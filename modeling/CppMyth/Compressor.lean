import CppMyth.Library.Codec

/-! The stream compressor and decompressor of `compressor.cpp`. The codec writes into a window
from the tail while the callers read it from the front. -/
namespace CppMyth
open Library

/-- `GZIP_CHUNK_SIZE` -/
def chunkSize : Nat := 16384

/-- `Z_STREAM_END` -/
def streamEnd : Int := 1
/-- `Z_BUF_ERROR` -/
def bufError : Int := -5

theorem bufError_negative : bufError < 0 := by decide

/-- The two sources of input. The read callback fails or gives some bytes, and nothing at the
end of its data. -/
inductive Input where
  | memBuffer (input : List UInt8)
  | fcbReader (reader : Nat → Option (List UInt8))

/-- The members that Compressor and Decompressor share. `output` is what the codec has written
into its window since it was last offered whole. `produced` records what the codec has written
at all, and `settled` how much of it up to its last step that did not fail. -/
structure Coder (C : Type) where
  strm : C
  availIn : List UInt8
  availOut : Nat
  status : Int
  finish : Bool
  stop : Bool
  input : Input
  output : List UInt8
  outputPos : Nat
  outputLen : Nat
  produced : List UInt8
  settled : Nat

inductive CoderClass where
  | compressor | decompressor
  deriving DecidableEq, Repr

namespace Coder

variable {C : Type}

/-- The constructors, with the state and the status that the init call leaves. -/
def start (strm : C) (status : Int) (input : Input) : Coder C :=
  ⟨strm, [], chunkSize, status, false, decide (status ≠ 0), input, [], 0, 0, [], 0⟩

/-- `Compressor::NextChunk`, which asks for the flush with the last chunk. -/
def deflateChunk (s : Coder C) : Coder C :=
  if s.finish then s
  else match s.input with
    | .memBuffer input =>
      let sz := min chunkSize input.length
      -- Check for end of data
      if sz = 0 then s
      else { s with
        availIn := input.take sz, input := .memBuffer (input.drop sz),
        finish := decide (input.drop sz = []) }
    | .fcbReader reader =>
      let s := { s with input := .fcbReader fun i => reader (i + 1) }
      match reader 0 with
      | none => { s with availIn := [] }
      | some got => { s with availIn := got, finish := decide (got = []) }

/-- `Decompressor::NextChunk` -/
def inflateChunk (s : Coder C) : Coder C :=
  match s.input with
  | .memBuffer input =>
    let sz := min chunkSize input.length
    if sz = 0 then s
    else { s with availIn := input.take sz, input := .memBuffer (input.drop sz) }
  | .fcbReader reader =>
    { s with input := .fcbReader fun i => reader (i + 1), availIn := (reader 0).getD [] }

def nextChunk : CoderClass → Coder C → Coder C
  | .compressor => deflateChunk
  | .decompressor => inflateChunk

def isCompleted (s : Coder C) : Bool := s.status == streamEnd

/-- What the next copy takes from. -/
def window (s : Coder C) : List UInt8 := (s.output.drop s.outputPos).take s.outputLen

def copied (s : Coder C) (sz : Nat) : Coder C :=
  { s with outputPos := s.outputPos + sz, outputLen := s.outputLen - sz }

/-- Input is there when there is any, and room for output. -/
def prepared (cls : CoderClass) (s : Coder C) : Coder C :=
  let s := if s.availIn = [] then s.nextChunk cls else s
  if s.availOut = 0 then { s with output := [], availOut := chunkSize, outputPos := 0 } else s

/-- The step of the codec, on what was prepared. -/
def stepped (codec : Codec C UInt8) (s : Coder C) : Coder C :=
  let r := codec.step s.strm s.availIn s.finish s.availOut
  let t := { s with
    strm := r.state, availIn := s.availIn.drop r.consumed, status := r.status,
    availOut := s.availOut - r.produced.length, output := s.output ++ r.produced,
    produced := s.produced ++ r.produced }
  if r.status < 0 then { t with stop := true }
  else { t with
    outputLen := chunkSize - t.outputPos - t.availOut, stop := false,
    settled := t.produced.length }

def turn (codec : Codec C UInt8) (cls : CoderClass) (s : Coder C) : Coder C :=
  (s.prepared cls).stepped codec

/-- The loop of ReadOutput, for `fuel` turns at most: the codec decides how many it takes. -/
def readLoop (codec : Codec C UInt8) (cls : CoderClass) :
    Nat → Coder C → Nat → List UInt8 → Option (List UInt8 × Coder C)
  | 0, _, _, _ => none
  | fuel + 1, s, len, out =>
    if len = 0 then some (out, s)
    else if s.outputLen ≠ 0 then
      let sz := min s.outputLen len
      readLoop codec cls fuel (s.copied sz) (len - sz) (out ++ s.window.take sz)
    else if s.status ≠ streamEnd then
      let t := s.turn codec cls
      -- what was copied in this call is not reported
      if t.status < 0 then some ([], t) else readLoop codec cls fuel t len out
    else some (out, { s with stop := true })

def readOutput (codec : Codec C UInt8) (cls : CoderClass) (fuel : Nat) (s : Coder C) (len : Nat) :
    Option (List UInt8 × Coder C) :=
  readLoop codec cls fuel s len []

def fetchLoop (codec : Codec C UInt8) (cls : CoderClass) :
    Nat → Coder C → Option (List UInt8 × Coder C)
  | 0, _ => none
  | fuel + 1, s =>
    if s.outputLen ≠ 0 then some (s.window, s.copied s.outputLen)
    else if s.status ≠ streamEnd then
      let t := s.turn codec cls
      if t.status < 0 then some ([], t) else fetchLoop codec cls fuel t
    else some ([], { s with stop := true })

/-- Compressor tests `m_stop` before the first turn of its loop, Decompressor after it. -/
def fetchOutput (codec : Codec C UInt8) (cls : CoderClass) (fuel : Nat) (s : Coder C) :
    Option (List UInt8 × Coder C) :=
  if cls = .compressor ∧ s.stop then some ([], s) else fetchLoop codec cls fuel s

end Coder

inductive OutputCall where
  | readOutput (len : Nat)
  | fetchOutput
  deriving DecidableEq, Repr

namespace Coder

section Window

variable {C : Type} {codec : Codec C UInt8} {cls : CoderClass} {s : Coder C}
  {reported : List UInt8}

/-- The window holds what was written and not reported: first the bytes of steps that did not
fail, then those of failed ones. -/
structure Accounted (s : Coder C) (reported : List UInt8) : Prop where
  room : s.output.length + s.availOut = chunkSize
  inside : s.outputPos + s.outputLen ≤ s.output.length
  whole : s.outputLen ≠ 0 → s.outputPos + s.outputLen = s.output.length
  bytes : s.produced = reported ++ s.output.drop s.outputPos
  settled : s.settled = reported.length + s.outputLen

theorem start_accounted (strm : C) (status : Int) (input : Input) :
    Accounted (start strm status input) [] :=
  ⟨Nat.zero_add chunkSize, Nat.le_refl 0, fun h => absurd rfl h, rfl, rfl⟩

theorem Accounted.window_length (acc : Accounted s reported) : s.window.length = s.outputLen := by
  have := acc.inside
  simp only [window, List.length_take, List.length_drop]
  omega

theorem Accounted.taken_length (acc : Accounted s reported) (len : Nat) :
    (s.window.take (min s.outputLen len)).length = min s.outputLen len := by
  rw [List.length_take, acc.window_length]
  omega

theorem Accounted.copied (acc : Accounted s reported) {sz : Nat} (fits : sz ≤ s.outputLen) :
    Accounted (s.copied sz) (reported ++ s.window.take sz) := by
  have inside := acc.inside
  have taken : s.window.take sz = (s.output.drop s.outputPos).take sz := by
    rw [window, List.take_take, Nat.min_eq_left fits]
  refine ⟨acc.room, ?_, ?_, ?_, ?_⟩
  · simp only [Coder.copied]
    omega
  · intro more
    simp only [Coder.copied] at more ⊢
    have := acc.whole (by omega)
    omega
  · simp only [Coder.copied]
    rw [acc.bytes, taken, List.append_assoc, ← List.drop_drop, List.take_append_drop]
  · have len := congrArg List.length taken
    simp only [List.length_take, List.length_drop] at len
    simp only [Coder.copied, List.length_append, List.length_take, acc.settled]
    rw [acc.window_length]
    omega

/-- No byte that is still to be reported is overwritten when the window is offered again. -/
def Unspoiled (s : Coder C) : Prop := s.availOut = 0 → s.outputPos = chunkSize

theorem nextChunk_output (cls : CoderClass) (s : Coder C) :
    (s.nextChunk cls).output = s.output ∧ (s.nextChunk cls).availOut = s.availOut ∧
      (s.nextChunk cls).outputPos = s.outputPos ∧ (s.nextChunk cls).outputLen = s.outputLen ∧
      (s.nextChunk cls).produced = s.produced ∧ (s.nextChunk cls).settled = s.settled := by
  cases cls with
  | compressor =>
    simp only [nextChunk, deflateChunk]
    split
    · simp
    · split
      · split <;> simp
      · split <;> simp
  | decompressor =>
    simp only [nextChunk, inflateChunk]
    split
    · split <;> simp
    · simp

theorem Accounted.prepared (acc : Accounted s reported) (empty : s.outputLen = 0)
    (unspoiled : Unspoiled s) :
    Accounted (s.prepared cls) reported ∧ (s.prepared cls).outputLen = 0 := by
  have fed : Accounted (if s.availIn = [] then s.nextChunk cls else s) reported ∧
      (if s.availIn = [] then s.nextChunk cls else s).outputLen = 0 ∧
      Unspoiled (if s.availIn = [] then s.nextChunk cls else s) := by
    obtain ⟨ho, ha, hp, hl, hw, hs⟩ := nextChunk_output cls s
    split
    · refine ⟨⟨?_, ?_, ?_, ?_, ?_⟩, hl.trans empty, ?_⟩
      · rw [ho, ha]
        exact acc.room
      · rw [ho, hp, hl]
        exact acc.inside
      · rw [ho, hp, hl]
        exact acc.whole
      · rw [ho, hp, hw]
        exact acc.bytes
      · rw [hs, hl]
        exact acc.settled
      · unfold Unspoiled
        rwa [ha, hp]
    · exact ⟨acc, empty, unspoiled⟩
  unfold Coder.prepared
  generalize (if s.availIn = [] then s.nextChunk cls else s) = u at fed ⊢
  obtain ⟨acc, empty, unspoiled⟩ := fed
  simp only
  split
  · rename_i full
    have read := unspoiled full
    have room := acc.room
    have none : u.output.drop u.outputPos = [] := by
      apply List.drop_eq_nil_of_le
      omega
    refine ⟨⟨by simp, by simp [empty], fun h => absurd empty h, ?_, acc.settled⟩, empty⟩
    rw [acc.bytes, none]
    rfl
  · exact ⟨acc, empty⟩

theorem Accounted.stepped (acc : Accounted s reported) (empty : s.outputLen = 0) :
    Accounted (s.stepped codec) reported := by
  have room := acc.room
  have inside := acc.inside
  have fits := codec.produced_le s.strm s.availIn s.finish s.availOut
  have bytes : s.produced ++ (codec.step s.strm s.availIn s.finish s.availOut).produced =
      reported ++ (s.output ++
        (codec.step s.strm s.availIn s.finish s.availOut).produced).drop s.outputPos := by
    rw [List.drop_append_of_le_length (by omega), acc.bytes, List.append_assoc]
  have total := congrArg List.length bytes
  simp only [List.length_append, List.length_drop] at total
  unfold Coder.stepped
  simp only
  split
  · exact ⟨by simp only [List.length_append]; omega, by simp only [List.length_append]; omega,
      fun h => absurd empty h, bytes, acc.settled⟩
  · refine ⟨by simp only [List.length_append]; omega, ?_, ?_, bytes, ?_⟩
    · simp only [List.length_append]
      omega
    · intro _
      simp only [List.length_append]
      omega
    · simp only [List.length_append]
      omega

theorem Accounted.turn (codec : Codec C UInt8) (cls : CoderClass) (acc : Accounted s reported)
    (empty : s.outputLen = 0) (unspoiled : Unspoiled s) : Accounted (s.turn codec cls) reported :=
  (acc.prepared empty unspoiled).1.stepped (acc.prepared empty unspoiled).2

end Window

section Calls

variable {C : Type} (codec : Codec C UInt8) (cls : CoderClass)

/-- Each step of the codec that a ReadOutput takes, with `out` bytes copied before it, finds no
unreported byte to overwrite, and does not fail once bytes are copied. -/
def ReadKeeps : Nat → Coder C → Nat → Nat → Prop
  | 0, _, _, _ => True
  | fuel + 1, s, len, out =>
    if len = 0 then True
    else if s.outputLen ≠ 0 then
      let sz := min s.outputLen len
      ReadKeeps fuel (s.copied sz) (len - sz) (out + sz)
    else if s.status ≠ streamEnd then
      Unspoiled s ∧ ((s.turn codec cls).status < 0 → out = 0) ∧
        (0 ≤ (s.turn codec cls).status → ReadKeeps fuel (s.turn codec cls) len out)
    else True

def FetchKeeps : Nat → Coder C → Prop
  | 0, _ => True
  | fuel + 1, s =>
    if s.outputLen ≠ 0 then True
    else if s.status ≠ streamEnd then
      Unspoiled s ∧ (0 ≤ (s.turn codec cls).status → FetchKeeps fuel (s.turn codec cls))
    else True

def perform (fuel : Nat) (s : Coder C) : OutputCall → Option (List UInt8 × Coder C)
  | .readOutput len => readOutput codec cls fuel s len
  | .fetchOutput => fetchOutput codec cls fuel s

def OutputKeeps (fuel : Nat) (s : Coder C) : OutputCall → Prop
  | .readOutput len => ReadKeeps codec cls fuel s len 0
  | .fetchOutput => FetchKeeps codec cls fuel s

/-- The bytes that calls one after another report, where each of them returns. -/
def outputs (fuel : Nat) : Coder C → List OutputCall → Option (List UInt8 × Coder C)
  | s, [] => some ([], s)
  | s, call :: calls =>
    match perform codec cls fuel s call with
    | none => none
    | some (got, s) =>
      match outputs fuel s calls with
      | none => none
      | some (rest, s) => some (got ++ rest, s)

def OutputsKeep (fuel : Nat) : Coder C → List OutputCall → Prop
  | _, [] => True
  | s, call :: calls => OutputKeeps codec cls fuel s call ∧
      ∀ got t, perform codec cls fuel s call = some (got, t) → OutputsKeep fuel t calls

variable {codec cls}

theorem readLoop_accounted (fuel : Nat) {s t : Coder C} {len : Nat}
    {reported out got : List UInt8} (acc : Accounted s (reported ++ out))
    (keeps : ReadKeeps codec cls fuel s len out.length)
    (result : readLoop codec cls fuel s len out = some (got, t)) :
    Accounted t (reported ++ got) := by
  induction fuel generalizing s len out with
  | zero => simp [readLoop] at result
  | succ fuel ih =>
    unfold readLoop at result
    unfold ReadKeeps at keeps
    by_cases done : len = 0
    · rw [if_pos done] at result
      obtain ⟨rfl, rfl⟩ := Prod.mk.inj (Option.some.inj result)
      exact acc
    · rw [if_neg done] at result keeps
      by_cases stored : s.outputLen ≠ 0
      · rw [if_pos stored] at result keeps
        have next := acc.copied (Nat.min_le_left s.outputLen len)
        rw [List.append_assoc] at next
        refine ih next ?_ result
        rw [List.length_append, acc.taken_length]
        exact keeps
      · rw [if_neg stored] at result keeps
        have empty : s.outputLen = 0 := not_not.mp stored
        by_cases going : s.status ≠ streamEnd
        · rw [if_pos going] at result keeps
          obtain ⟨unspoiled, whole, later⟩ := keeps
          have next := acc.turn codec cls empty unspoiled
          by_cases failed : (s.turn codec cls).status < 0
          · simp only [if_pos failed] at result
            obtain ⟨rfl, rfl⟩ := Prod.mk.inj (Option.some.inj result)
            rwa [List.length_eq_zero_iff.mp (whole failed)] at next
          · simp only [if_neg failed] at result
            exact ih next (later (Int.not_lt.mp failed)) result
        · rw [if_neg going] at result
          obtain ⟨rfl, rfl⟩ := Prod.mk.inj (Option.some.inj result)
          exact ⟨acc.room, acc.inside, acc.whole, acc.bytes, acc.settled⟩

theorem fetchLoop_accounted (fuel : Nat) {s t : Coder C} {reported got : List UInt8}
    (acc : Accounted s reported) (keeps : FetchKeeps codec cls fuel s)
    (result : fetchLoop codec cls fuel s = some (got, t)) : Accounted t (reported ++ got) := by
  induction fuel generalizing s with
  | zero => simp [fetchLoop] at result
  | succ fuel ih =>
    unfold fetchLoop at result
    unfold FetchKeeps at keeps
    by_cases stored : s.outputLen ≠ 0
    · rw [if_pos stored] at result
      obtain ⟨rfl, rfl⟩ := Prod.mk.inj (Option.some.inj result)
      have next := acc.copied (Nat.le_refl s.outputLen)
      rwa [List.take_of_length_le (Nat.le_of_eq acc.window_length)] at next
    · rw [if_neg stored] at result keeps
      have empty : s.outputLen = 0 := not_not.mp stored
      by_cases going : s.status ≠ streamEnd
      · rw [if_pos going] at result keeps
        have next := acc.turn codec cls empty keeps.1
        by_cases failed : (s.turn codec cls).status < 0
        · simp only [if_pos failed] at result
          obtain ⟨rfl, rfl⟩ := Prod.mk.inj (Option.some.inj result)
          rwa [List.append_nil]
        · simp only [if_neg failed] at result
          exact ih next (keeps.2 (Int.not_lt.mp failed)) result
      · rw [if_neg going] at result
        obtain ⟨rfl, rfl⟩ := Prod.mk.inj (Option.some.inj result)
        rw [List.append_nil]
        exact ⟨acc.room, acc.inside, acc.whole, acc.bytes, acc.settled⟩

theorem perform_accounted {fuel : Nat} {s t : Coder C} {reported got : List UInt8}
    {call : OutputCall} (acc : Accounted s reported) (keeps : OutputKeeps codec cls fuel s call)
    (result : perform codec cls fuel s call = some (got, t)) : Accounted t (reported ++ got) := by
  cases call with
  | readOutput len =>
    have start : Accounted s (reported ++ []) := by rwa [List.append_nil]
    exact readLoop_accounted fuel start keeps result
  | fetchOutput =>
    unfold perform fetchOutput at result
    by_cases stopped : cls = .compressor ∧ s.stop = true
    · rw [if_pos stopped] at result
      obtain ⟨rfl, rfl⟩ := Prod.mk.inj (Option.some.inj result)
      rwa [List.append_nil]
    · rw [if_neg stopped] at result
      exact fetchLoop_accounted fuel acc keeps result

theorem outputs_accounted {fuel : Nat} {s t : Coder C} {reported got : List UInt8}
    (calls : List OutputCall) (acc : Accounted s reported)
    (keep : OutputsKeep codec cls fuel s calls)
    (result : outputs codec cls fuel s calls = some (got, t)) :
    Accounted t (reported ++ got) := by
  induction calls generalizing s reported got with
  | nil =>
    obtain ⟨rfl, rfl⟩ := Prod.mk.inj (Option.some.inj result)
    rwa [List.append_nil]
  | cons call calls ih =>
    unfold outputs at result
    cases first : perform codec cls fuel s call with
    | none => simp [first] at result
    | some r =>
      obtain ⟨front, u⟩ := r
      simp only [first] at result
      cases rest : outputs codec cls fuel u calls with
      | none => simp [rest] at result
      | some q =>
        obtain ⟨back, v⟩ := q
        simp only [rest] at result
        obtain ⟨rfl, rfl⟩ := Prod.mk.inj (Option.some.inj result)
        rw [← List.append_assoc]
        exact ih (perform_accounted acc keep.1 first) (keep.2 front u first) rest

/-- What was reported is a front of what the codec wrote, and a next ReadOutput gives all that
the steps that did not fail have written since. -/
def Delivers (codec : Codec C UInt8) (cls : CoderClass) (s : Coder C) (reported : List UInt8) :
    Prop :=
  reported <+: s.produced ∧ ∃ last t, reported ++ last = s.produced.take s.settled ∧
    readOutput codec cls 2 s last.length = some (last, t)

theorem readOutput_window (codec : Codec C UInt8) (cls : CoderClass) {s : Coder C}
    {reported : List UInt8} (acc : Accounted s reported) :
    ∃ t, readOutput codec cls 2 s s.window.length = some (s.window, t) := by
  have length := acc.window_length
  by_cases empty : s.outputLen = 0
  · have none : s.window = [] := List.length_eq_zero_iff.mp (length.trans empty)
    exact ⟨s, by rw [none]; rfl⟩
  · refine ⟨s.copied s.outputLen, ?_⟩
    unfold readOutput readLoop
    rw [if_neg (by omega), if_pos empty, length]
    simp [readLoop, List.take_of_length_le (Nat.le_of_eq length)]

theorem outputs_delivered (codec : Codec C UInt8) (cls : CoderClass) (strm : C) (status : Int)
    (input : Input) (fuel : Nat) (calls : List OutputCall) (got : List UInt8) (t : Coder C)
    (result : outputs codec cls fuel (start strm status input) calls = some (got, t))
    (keep : OutputsKeep codec cls fuel (start strm status input) calls) :
    Delivers codec cls t got := by
  have acc := outputs_accounted calls (start_accounted strm status input) keep result
  rw [List.nil_append] at acc
  obtain ⟨u, later⟩ := readOutput_window codec cls acc
  refine ⟨⟨_, acc.bytes.symm⟩, t.window, u, ?_, later⟩
  rw [acc.bytes, acc.settled, List.take_length_add_append]
  rfl

end Calls

/-- A codec that decodes three bytes from its input and finds no more. -/
def truncated (after : Int) : Codec Nat UInt8 where
  step c input _ room := match c with
    | 0 => ⟨1, input.length, [97, 98, 99].take room, 0⟩
    | c + 1 => ⟨c + 1, 0, [], after⟩
  consumed_le c input _ _ := by cases c <;> simp
  produced_le c _ _ room := by cases c <;> simp

theorem outputs_delivered_ended :
    ∃ t, Delivers (truncated streamEnd) .decompressor t [97, 98] :=
  ⟨_, outputs_delivered (truncated streamEnd) .decompressor 0 0 (.memBuffer [75]) 9
    [.readOutput 2] _ _ rfl
    ⟨⟨fun h => absurd h (by decide), fun h => absurd h (by decide), fun _ => trivial⟩,
      fun _ _ _ => trivial⟩⟩

/-- The input ends within the stream: a long read drops what it has copied. -/
theorem not_always_reported :
    ¬ ∀ (codec : Codec Nat UInt8) (cls : CoderClass) (strm : Nat) (status : Int) (input : Input)
      (fuel : Nat) (calls : List OutputCall) (got : List UInt8) (t : Coder Nat),
      outputs codec cls fuel (start strm status input) calls = some (got, t) →
        Delivers codec cls t got := by
  intro claim
  obtain ⟨-, last, u, whole, later⟩ := claim (truncated bufError) .decompressor 0 0
    (.memBuffer [75]) 9 [.readOutput 10] _ _ rfl
  obtain rfl : last = [97, 98, 99] := whole
  have reported := congrArg (Option.map Prod.fst) later
  change some [] = some [97, 98, 99] at reported
  cases reported

end Coder

end CppMyth
