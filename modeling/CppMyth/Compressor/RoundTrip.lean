import CppMyth.Compressor
import CppMyth.Library.Stored

/-! The compressor followed by the decompressor, over a codec that keeps the contract of zlib. -/
namespace CppMyth
open Library

namespace Coder

variable {C E : Type}

/-- ReadOutput is called with one length after another until it returns 0. -/
def drain (codec : Codec C UInt8) (cls : CoderClass) (fuel : Nat) :
    Nat → (Nat → Nat) → Coder C → List UInt8 → Option (List UInt8 × Coder C)
  | 0, _, _, _ => none
  | calls + 1, lens, s, all =>
    match readOutput codec cls fuel s (lens 0) with
    | none => none
    | some (got, t) =>
      if got = [] then some (all, t)
      else drain codec cls fuel calls (fun i => lens (i + 1)) t (all ++ got)

/-- A read callback that gives the pieces in turn, and then the end of its data. -/
def delivery (pieces : List (List UInt8)) : Nat → Option (List UInt8) := fun i =>
  some (pieces.getD i [])

inductive Supplies : Input → List UInt8 → Prop
  | memory (data : List UInt8) : Supplies (.memBuffer data) data
  | reader (pieces : List (List UInt8)) (sized : ∀ p ∈ pieces, p ≠ []) :
      Supplies (.fcbReader (delivery pieces)) pieces.flatten

def IsMemory : Input → Prop
  | .memBuffer _ => True
  | .fcbReader _ => False

/-- Enough turns and calls bring both sides to their end, with `data` back. -/
def RoundTrips (deflate : Codec C UInt8) (deflateInit : C) (inflate : Codec E UInt8)
    (inflateInit : E) (data : List UInt8) (source : Input) (lens lens' : Nat → Nat) : Prop :=
  ∃ fuel zip c,
    drain deflate .compressor fuel fuel lens (start deflateInit 0 source) [] = some (zip, c) ∧
    c.isCompleted = true ∧ ∀ source', Supplies source' zip → ∃ fuel' d,
      drain inflate .decompressor fuel' fuel' lens' (start inflateInit 0 source') [] =
        some (data, d) ∧ d.isCompleted = true

section Loops

variable {codec : Codec C UInt8} {cls : CoderClass}

theorem readLoop_more {fuel : Nat} (more : Nat) {s : Coder C} {len : Nat} {out : List UInt8}
    {r : List UInt8 × Coder C} (result : readLoop codec cls fuel s len out = some r) :
    readLoop codec cls (fuel + more) s len out = some r := by
  induction fuel generalizing s len out with
  | zero => simp [readLoop] at result
  | succ fuel ih =>
    rw [Nat.succ_add]
    unfold readLoop at result ⊢
    split
    · rwa [if_pos ‹_›] at result
    · rw [if_neg ‹_›] at result
      split
      · rw [if_pos ‹_›] at result
        exact ih result
      · rw [if_neg ‹_›] at result
        split
        · rw [if_pos ‹_›] at result
          simp only at result ⊢
          split
          · rwa [if_pos ‹_›] at result
          · rw [if_neg ‹_›] at result
            exact ih result
        · rwa [if_neg ‹_›] at result

theorem drain_more {fuel calls : Nat} (more more' : Nat) {lens : Nat → Nat} {s : Coder C}
    {all : List UInt8} {r : List UInt8 × Coder C}
    (result : drain codec cls fuel calls lens s all = some r) :
    drain codec cls (fuel + more) (calls + more') lens s all = some r := by
  induction calls generalizing lens s all with
  | zero => simp [drain] at result
  | succ calls ih =>
    rw [Nat.succ_add]
    unfold drain at result ⊢
    cases first : readOutput codec cls fuel s (lens 0) with
    | none => simp [first] at result
    | some q =>
      have again : readOutput codec cls (fuel + more) s (lens 0) = some q :=
        readLoop_more more first
      rw [again]
      rw [first] at result
      simp only at result ⊢
      split
      · rwa [if_pos ‹_›] at result
      · rw [if_neg ‹_›] at result
        exact ih result

/-- A state predicate that the copies do not touch, under which each step of the codec goes on
or ends and brings the end nearer. -/
structure Sound (codec : Codec C UInt8) (cls : CoderClass) (P : Coder C → Prop)
    (rank : Coder C → Nat) (limit : Nat) : Prop where
  copied : ∀ s sz, P s → P (s.copied sz) ∧ rank (s.copied sz) = rank s
  stopped : ∀ s, P s → P { s with stop := true }
  settled : ∀ s, P s → s.settled = s.produced.length
  limited : ∀ s, P s → s.produced.length ≤ limit
  turn : ∀ s reported, P s → Accounted s reported → s.outputLen = 0 → s.status ≠ streamEnd →
    P (s.turn codec cls) ∧ 0 ≤ (s.turn codec cls).status ∧ rank (s.turn codec cls) < rank s

/-- The same where a step may also fail, if `Fails` holds. -/
structure Driven (codec : Codec C UInt8) (cls : CoderClass) (P : Coder C → Prop)
    (rank : Coder C → Nat) (Fails : Prop) : Prop where
  copied : ∀ s sz, P s → P (s.copied sz) ∧ rank (s.copied sz) = rank s
  stopped : ∀ s, P s → s.outputLen = 0 → s.status = streamEnd → P { s with stop := true }
  settled : ∀ s, P s → s.settled = s.produced.length
  turn : ∀ s reported, P s → Accounted s reported → s.outputLen = 0 → s.status ≠ streamEnd →
    (P (s.turn codec cls) ∧ 0 ≤ (s.turn codec cls).status ∧ rank (s.turn codec cls) < rank s) ∨
      (Fails ∧ (s.turn codec cls).status < 0)

variable {P : Coder C → Prop} {rank : Coder C → Nat} {limit : Nat} {Fails : Prop} {t : Coder C}
  {reported : List UInt8}

theorem Sound.driven (sound : Sound codec cls P rank limit) :
    Driven codec cls P rank False where
  copied := sound.copied
  stopped s holds _ _ := sound.stopped s holds
  settled := sound.settled
  turn s reported holds acc empty going := .inl (sound.turn s reported holds acc empty going)

/-- What a loop that comes to an end leaves. -/
structure Ended (P : Coder C → Prop) (reported got : List UInt8) (t : Coder C) : Prop where
  sound : P t
  accounted : Accounted t (reported ++ got)
  last : got = [] → t.status = streamEnd ∧ t.outputLen = 0

theorem unspoiled_of_settled {s : Coder C} {reported : List UInt8}
    (settled : s.settled = s.produced.length) (acc : Accounted s reported)
    (empty : s.outputLen = 0) : Unspoiled s := by
  intro full
  have written := congrArg List.length acc.bytes
  have := acc.settled
  have := acc.room
  have := acc.inside
  simp only [List.length_append, List.length_drop] at written
  omega

theorem turn_failed {s : Coder C} (failed : (s.turn codec cls).status < 0) :
    (s.turn codec cls).stop = true := by
  unfold turn stepped at failed ⊢
  simp only at failed ⊢
  split
  · rfl
  · rename_i went
    rw [if_neg went] at failed
    exact absurd failed went

theorem Driven.readLoop_returns (driven : Driven codec cls P rank Fails) (fuel : Nat)
    {s : Coder C} {len : Nat} {reported out : List UInt8} (holds : P s)
    (acc : Accounted s (reported ++ out))
    (enough : 2 * rank s + (if s.outputLen = 0 then 2 else 3) ≤ fuel)
    (asked : out = [] → 0 < len) :
    ∃ got t, readLoop codec cls fuel s len out = some (got, t) ∧
      (Ended P reported got t ∨ (Fails ∧ got = [] ∧ t.status < 0 ∧ t.stop = true)) := by
  induction fuel generalizing s len out with
  | zero =>
    split at enough <;> omega
  | succ fuel ih =>
    unfold readLoop
    by_cases done : len = 0
    · rw [if_pos done]
      exact ⟨out, s, rfl, .inl ⟨holds, acc, fun none => absurd done (Nat.ne_of_gt (asked none))⟩⟩
    · rw [if_neg done]
      by_cases stored : s.outputLen ≠ 0
      · rw [if_neg stored] at enough
        rw [if_pos stored]
        have next := acc.copied (Nat.min_le_left s.outputLen len)
        rw [List.append_assoc] at next
        obtain ⟨holds', same⟩ := driven.copied s (min s.outputLen len) holds
        have taken := acc.taken_length len
        have some_out : out ++ s.window.take (min s.outputLen len) ≠ [] := by
          intro none
          have := congrArg List.length none
          rw [List.length_append, taken, List.length_nil] at this
          omega
        by_cases short : len ≤ s.outputLen
        · -- the buffer is full, the next turn returns
          obtain ⟨fuel, rfl⟩ : ∃ k, fuel = k + 1 := ⟨fuel - 1, by omega⟩
          rw [Nat.min_eq_right short] at next holds' some_out
          simp only [Nat.min_eq_right short, Nat.sub_self, readLoop, if_true]
          exact ⟨_, _, rfl, .inl ⟨holds', next, fun none => absurd none some_out⟩⟩
        · have copied : (s.copied (min s.outputLen len)).outputLen = 0 := by
            simp only [Coder.copied]
            omega
          apply ih holds' next
          · rw [same, if_pos copied]
            omega
          · exact fun none => absurd none some_out
      · rw [if_neg stored]
        have empty : s.outputLen = 0 := not_not.mp stored
        rw [if_pos empty] at enough
        by_cases going : s.status ≠ streamEnd
        · rw [if_pos going]
          rcases driven.turn s _ holds acc empty going with ⟨holds', went, nearer⟩ | ⟨fails, failed⟩
          · have next := acc.turn codec cls empty
              (unspoiled_of_settled (driven.settled s holds) acc empty)
            simp only [if_neg (Int.not_lt.mpr went)]
            apply ih holds' next _ asked
            split <;> omega
          · simp only [if_pos failed]
            exact ⟨[], _, rfl, .inr ⟨fails, rfl, failed, turn_failed failed⟩⟩
        · rw [if_neg going]
          exact ⟨out, { s with stop := true }, rfl, .inl
            ⟨driven.stopped s holds empty (not_not.mp going),
              ⟨acc.room, acc.inside, acc.whole, acc.bytes, acc.settled⟩,
              fun _ => ⟨not_not.mp going, empty⟩⟩⟩

theorem Sound.readLoop_ends (sound : Sound codec cls P rank limit) {s : Coder C} {len : Nat}
    {reported : List UInt8} (holds : P s) (acc : Accounted s (reported ++ [])) (asked : 0 < len) :
    ∃ got t, readLoop codec cls (2 * rank s + 3) s len [] = some (got, t) ∧
      Ended P reported got t := by
  have enough : 2 * rank s + (if s.outputLen = 0 then 2 else 3) ≤ 2 * rank s + 3 := by
    split <;> omega
  obtain ⟨got, t, result, ended | failed⟩ :=
    sound.driven.readLoop_returns _ holds acc enough fun _ => asked
  · exact ⟨got, t, result, ended⟩
  · exact failed.1.elim

theorem Ended.produced (ended : Ended P reported [] t) (settled : t.settled = t.produced.length) :
    t.produced = reported := by
  have acc := ended.accounted
  have bytes := acc.bytes
  have total := acc.settled
  have written := congrArg List.length bytes
  rw [(ended.last rfl).2, settled] at total
  rw [List.length_append] at written
  have none : t.output.drop t.outputPos = [] := List.length_eq_zero_iff.mp (by omega)
  rw [bytes, none, List.append_nil, List.append_nil]

theorem Sound.drain_ends (sound : Sound codec cls P rank limit) (m : Nat) {s : Coder C}
    {lens : Nat → Nat} {all : List UInt8} (positive : ∀ i, 0 < lens i) (holds : P s)
    (acc : Accounted s all) (bound : limit < all.length + m) :
    ∃ fuel t, drain codec cls fuel fuel lens s all = some (t.produced, t) ∧ P t ∧
      t.status = streamEnd := by
  induction m generalizing s lens all with
  | zero =>
    have := sound.limited s holds
    rw [acc.bytes, List.length_append] at this
    omega
  | succ m ih =>
    have start : Accounted s (all ++ []) := by rwa [List.append_nil]
    obtain ⟨got, t, first, ended⟩ := sound.readLoop_ends holds start (positive 0)
    by_cases last : got = []
    · subst last
      refine ⟨2 * rank s + 3, t, ?_, ended.sound, (ended.last rfl).1⟩
      rw [ended.produced (sound.settled t ended.sound)]
      simp only [drain, readOutput, first, if_true]
    · have some_got := List.length_pos_iff.mpr last
      obtain ⟨fuel, u, rest, holds', done⟩ := ih (fun i => positive (i + 1))
        ended.sound ended.accounted
        (by rw [List.length_append]; omega)
      refine ⟨2 * rank s + 2 + fuel + 1, u, ?_, holds', done⟩
      have first' : readOutput codec cls (2 * rank s + 2 + fuel + 1) s (lens 0) =
          some (got, t) := by
        have more := readLoop_more fuel first
        have turns : 2 * rank s + 3 + fuel = 2 * rank s + 2 + fuel + 1 := by omega
        rwa [turns] at more
      have rest' := drain_more (2 * rank s + 2 + 1) (2 * rank s + 2) rest
      have arrange : fuel + (2 * rank s + 2 + 1) = 2 * rank s + 2 + fuel + 1 := by omega
      have arrange' : fuel + (2 * rank s + 2) = 2 * rank s + 2 + fuel := by omega
      rw [arrange, arrange'] at rest'
      rw [drain, first']
      simp only [if_neg last]
      exact rest'

theorem Sound.drain_start (sound : Sound codec cls P rank limit) (strm : C) (status : Int)
    (source : Input) {lens : Nat → Nat} (positive : ∀ i, 0 < lens i)
    (holds : P (start strm status source)) :
    ∃ fuel t, drain codec cls fuel fuel lens (start strm status source) [] =
      some (t.produced, t) ∧ P t ∧ t.status = streamEnd :=
  sound.drain_ends (limit + 1) positive holds (start_accounted strm status source) (by simp)

end Loops

section Turn

variable {cls : CoderClass} {s : Coder C}

theorem nextChunk_strm (cls : CoderClass) (s : Coder C) :
    (s.nextChunk cls).strm = s.strm ∧ (s.nextChunk cls).status = s.status := by
  cases cls with
  | compressor =>
    simp only [nextChunk, deflateChunk]
    split
    · simp
    · split
      · split <;> simp
      · split <;> simp
  | decompressor =>
    simp only [nextChunk, inflateChunk]
    split
    · split <;> simp
    · simp

/-- What the reset of the window does not touch. -/
structure Prepared (s u : Coder C) : Prop where
  strm : u.strm = s.strm
  availIn : u.availIn = s.availIn
  input : u.input = s.input
  finish : u.finish = s.finish
  status : u.status = s.status
  produced : u.produced = s.produced
  settled : u.settled = s.settled
  room : 0 < u.availOut

theorem prepared_reset (cls : CoderClass) (s : Coder C) :
    Prepared (if s.availIn = [] then s.nextChunk cls else s) (s.prepared cls) := by
  unfold prepared
  simp only
  generalize (if s.availIn = [] then s.nextChunk cls else s) = u
  split
  · exact ⟨rfl, rfl, rfl, rfl, rfl, rfl, rfl, Nat.zero_lt_succ 16383⟩
  · exact ⟨rfl, rfl, rfl, rfl, rfl, rfl, rfl, Nat.pos_of_ne_zero ‹_›⟩

/-- What a step that does not fail does to the members that are not about the window. -/
structure Stepped (codec : Codec C UInt8) (s t : Coder C) : Prop where
  strm : t.strm = (codec.step s.strm s.availIn s.finish s.availOut).state
  availIn : t.availIn =
    s.availIn.drop (codec.step s.strm s.availIn s.finish s.availOut).consumed
  input : t.input = s.input
  finish : t.finish = s.finish
  status : t.status = (codec.step s.strm s.availIn s.finish s.availOut).status
  produced : t.produced =
    s.produced ++ (codec.step s.strm s.availIn s.finish s.availOut).produced
  settled : t.settled = t.produced.length

theorem stepped_went (codec : Codec C UInt8)
    (went : 0 ≤ (codec.step s.strm s.availIn s.finish s.availOut).status) :
    Stepped codec s (s.stepped codec) := by
  unfold stepped
  simp only [if_neg (Int.not_lt.mpr went)]
  exact ⟨rfl, rfl, rfl, rfl, rfl, rfl, rfl⟩

end Turn

section Coding

variable {codec : Tracked C UInt8} {cls : CoderClass} {Feeds : Input → Bool → List UInt8 → Prop}
  {Able : C → List UInt8 → Bool → Prop} {whole : List UInt8} {Front Done : List UInt8 → Prop}
  {limit : Nat} {s u : Coder C}

/-- A coder on its way through `whole`: `Feeds` is what its source may still give, `Front` holds
of what is written so far and `Done` of all of it. -/
structure Coding (codec : Tracked C UInt8) (Feeds : Input → Bool → List UInt8 → Prop)
    (whole : List UInt8) (Front Done : List UInt8 → Prop) (s : Coder C) : Prop where
  supply : ∃ rest, codec.fed s.strm ++ s.availIn ++ rest = whole ∧ Feeds s.input s.finish rest
  emitted : codec.emitted s.strm = s.produced
  settled : s.settled = s.produced.length
  front : Front s.produced
  going : s.status ≠ streamEnd → codec.Running s.strm s.availIn s.finish
  ended : s.status = streamEnd → Done s.produced

/-- A step goes on by taking or giving something, or it ends the stream. -/
structure Outcome (Front Done : List UInt8 → Prop) (produced : List UInt8)
    (r : CodecStep C UInt8) : Prop where
  status : r.status = 0 ∨ r.status = streamEnd
  progress : r.status = 0 → 0 < r.consumed ∨ 0 < r.produced.length
  front : Front (produced ++ r.produced)
  ended : r.status = streamEnd → Done (produced ++ r.produced)

/-- What a class and its codec do for a coder on its way. `Able` says that the codec has
something to do. -/
structure Contract (codec : Tracked C UInt8) (cls : CoderClass)
    (Feeds : Input → Bool → List UInt8 → Prop) (Able : C → List UInt8 → Bool → Prop)
    (whole : List UInt8) (Front Done : List UInt8 → Prop) (limit : Nat) : Prop where
  input : ∀ c availIn finish, availIn ≠ [] → Able c availIn finish
  chunk : ∀ (s : Coder C) rest, Feeds s.input s.finish rest → s.availIn = [] →
    codec.fed s.strm ++ rest = whole → (s.finish = true → (s.nextChunk cls).availIn = [] ∧
      (s.nextChunk cls).finish = true) ∧ ∃ rest', (s.nextChunk cls).availIn ++ rest' = rest ∧
      Feeds (s.nextChunk cls).input (s.nextChunk cls).finish rest' ∧
      Able s.strm (s.nextChunk cls).availIn (s.nextChunk cls).finish
  step : ∀ s, Coding codec Feeds whole Front Done s → s.status ≠ streamEnd →
    Able s.strm s.availIn s.finish → 0 < s.availOut →
      Outcome Front Done s.produced (codec.step s.strm s.availIn s.finish s.availOut)
  limited : ∀ s, Coding codec Feeds whole Front Done s → s.produced.length ≤ limit

/-- What a contract says of the source. -/
structure Sourced (codec : Tracked C UInt8) (cls : CoderClass)
    (Feeds : Input → Bool → List UInt8 → Prop) (Able : C → List UInt8 → Bool → Prop)
    (whole : List UInt8) : Prop where
  input : ∀ c availIn finish, availIn ≠ [] → Able c availIn finish
  chunk : ∀ (s : Coder C) rest, Feeds s.input s.finish rest → s.availIn = [] →
    codec.fed s.strm ++ rest = whole → (s.finish = true → (s.nextChunk cls).availIn = [] ∧
      (s.nextChunk cls).finish = true) ∧ ∃ rest', (s.nextChunk cls).availIn ++ rest' = rest ∧
      Feeds (s.nextChunk cls).input (s.nextChunk cls).finish rest' ∧
      Able s.strm (s.nextChunk cls).availIn (s.nextChunk cls).finish

/-- How far the end is: what is still to take, and what may still be given. -/
def rank (codec : Tracked C UInt8) (whole : List UInt8) (limit : Nat) (s : Coder C) : Nat :=
  if s.status = streamEnd then 0
  else whole.length - (codec.fed s.strm).length + (limit - s.produced.length) + 1

theorem Coding.same (coding : Coding codec Feeds whole Front Done s) (same : Prepared s u) :
    Coding codec Feeds whole Front Done u := by
  obtain ⟨rest, all, feeds⟩ := coding.supply
  refine ⟨⟨rest, ?_, ?_⟩, ?_, ?_, ?_, ?_, ?_⟩
  · rw [same.strm, same.availIn]
    exact all
  · rw [same.input, same.finish]
    exact feeds
  · rw [same.strm, same.produced]
    exact coding.emitted
  · rw [same.settled, same.produced]
    exact coding.settled
  · rw [same.produced]
    exact coding.front
  · rw [same.status, same.strm, same.availIn, same.finish]
    exact coding.going
  · rw [same.status, same.produced]
    exact coding.ended

theorem Sourced.chunked (sourced : Sourced codec cls Feeds Able whole)
    (coding : Coding codec Feeds whole Front Done s) (empty : s.availIn = []) :
    Coding codec Feeds whole Front Done (s.nextChunk cls) ∧
      Able s.strm (s.nextChunk cls).availIn (s.nextChunk cls).finish := by
  obtain ⟨rest, all, feeds⟩ := coding.supply
  obtain ⟨-, -, -, -, hp, hs⟩ := nextChunk_output cls s
  obtain ⟨hstrm, hstatus⟩ := nextChunk_strm cls s
  rw [empty, List.append_nil] at all
  obtain ⟨asked, rest', given, feeds', able⟩ := sourced.chunk s rest feeds empty all
  refine ⟨⟨⟨rest', ?_, feeds'⟩, ?_, ?_, ?_, ?_, ?_⟩, able⟩
  · rw [hstrm, List.append_assoc, given]
    exact all
  · rw [hstrm, hp]
    exact coding.emitted
  · rw [hs, hp]
    exact coding.settled
  · rw [hp]
    exact coding.front
  · rw [hstatus, hstrm]
    intro going
    have running := coding.going going
    rw [empty] at running
    cases finish : s.finish with
    | true =>
      rw [(asked finish).1, (asked finish).2]
      rwa [finish] at running
    | false =>
      rw [finish] at running
      exact codec.running_more _ _ _ running
  · rw [hstatus, hp]
    exact coding.ended

theorem Sourced.prepared (sourced : Sourced codec cls Feeds Able whole) (limit : Nat)
    (coding : Coding codec Feeds whole Front Done s) :
    Coding codec Feeds whole Front Done (s.prepared cls) ∧
      Able (s.prepared cls).strm (s.prepared cls).availIn (s.prepared cls).finish ∧
      0 < (s.prepared cls).availOut ∧ (s.prepared cls).status = s.status ∧
      rank codec whole limit (s.prepared cls) = rank codec whole limit s := by
  have reset := prepared_reset cls s
  have fed : Coding codec Feeds whole Front Done (if s.availIn = [] then s.nextChunk cls else s) ∧
      Able s.strm (if s.availIn = [] then s.nextChunk cls else s).availIn
        (if s.availIn = [] then s.nextChunk cls else s).finish ∧
      (if s.availIn = [] then s.nextChunk cls else s).strm = s.strm ∧
      (if s.availIn = [] then s.nextChunk cls else s).status = s.status ∧
      (if s.availIn = [] then s.nextChunk cls else s).produced = s.produced := by
    by_cases empty : s.availIn = []
    · rw [if_pos empty]
      obtain ⟨coding', able⟩ := sourced.chunked coding empty
      exact ⟨coding', able, (nextChunk_strm cls s).1, (nextChunk_strm cls s).2,
        (nextChunk_output cls s).2.2.2.2.1⟩
    · rw [if_neg empty]
      exact ⟨coding, sourced.input _ _ _ empty, rfl, rfl, rfl⟩
  generalize (if s.availIn = [] then s.nextChunk cls else s) = v at reset fed
  obtain ⟨coding', able, hstrm, hstatus, hproduced⟩ := fed
  refine ⟨coding'.same reset, ?_, reset.room, reset.status.trans hstatus, ?_⟩
  · rw [reset.availIn, reset.finish, reset.strm, hstrm]
    exact able
  · unfold rank
    rw [reset.status, reset.strm, reset.produced, hstrm, hstatus, hproduced]

theorem Coding.stepped (coding : Coding codec Feeds whole Front Done s)
    (going : s.status ≠ streamEnd) (outcome : Outcome Front Done s.produced
      (codec.step s.strm s.availIn s.finish s.availOut))
    (limited : ∀ s, Coding codec Feeds whole Front Done s → s.produced.length ≤ limit) :
    Coding codec Feeds whole Front Done (s.stepped codec.toCodec) ∧
      0 ≤ (s.stepped codec.toCodec).status ∧
      rank codec whole limit (s.stepped codec.toCodec) < rank codec whole limit s := by
  have went : 0 ≤ (codec.step s.strm s.availIn s.finish s.availOut).status := by
    rcases outcome.status with h | h
    · rw [h]
    · rw [h]
      decide
  have step := stepped_went codec.toCodec went
  generalize s.stepped codec.toCodec = t at step ⊢
  obtain ⟨rest, all, feeds⟩ := coding.supply
  have fed := codec.fed_step s.strm s.availIn s.finish s.availOut
  have next : Coding codec Feeds whole Front Done t := by
    refine ⟨⟨rest, ?_, ?_⟩, ?_, step.settled, ?_, ?_, ?_⟩
    · rw [step.strm, step.availIn, fed, List.append_assoc _ (List.take _ _),
        List.take_append_drop]
      exact all
    · rw [step.input, step.finish]
      exact feeds
    · rw [step.strm, codec.emitted_step, step.produced, coding.emitted]
    · rw [step.produced]
      exact outcome.front
    · intro more
      rw [step.status] at more
      rw [step.strm, step.availIn, step.finish]
      exact codec.running_step _ _ _ _ (coding.going going) (outcome.status.resolve_right more)
    · rw [step.status, step.produced]
      exact outcome.ended
  refine ⟨next, by rw [step.status]; exact went, ?_⟩
  have limited := limited t next
  have taken := codec.consumed_le s.strm s.availIn s.finish s.availOut
  unfold rank
  rw [if_neg going]
  by_cases last : t.status = streamEnd
  · rw [if_pos last]
    exact Nat.succ_pos _
  · rw [if_neg last]
    have progress := outcome.progress (outcome.status.resolve_right (step.status ▸ last))
    have total := congrArg List.length all
    simp only [List.length_append] at total
    rw [step.strm, fed]
    rw [step.produced] at limited ⊢
    simp only [List.length_append, List.length_take] at limited ⊢
    omega

theorem Contract.sound (contract : Contract codec cls Feeds Able whole Front Done limit) :
    Sound codec.toCodec cls (Coding codec Feeds whole Front Done) (rank codec whole limit)
      limit where
  copied s sz h := ⟨⟨h.supply, h.emitted, h.settled, h.front, h.going, h.ended⟩, rfl⟩
  stopped s h := ⟨h.supply, h.emitted, h.settled, h.front, h.going, h.ended⟩
  settled s h := h.settled
  limited := contract.limited
  turn s reported h _ _ going := by
    have sourced : Sourced codec cls Feeds Able whole := ⟨contract.input, contract.chunk⟩
    obtain ⟨coding, able, room, status, same⟩ := sourced.prepared limit h
    have outcome := contract.step _ coding (status ▸ going) able room
    obtain ⟨next, went, nearer⟩ := coding.stepped (status ▸ going) outcome contract.limited
    exact ⟨next, went, same ▸ nearer⟩

end Coding

section Contracts

/-- The source of a compressor has `rest` to give, and then asks for the flush. -/
inductive Feeds : Input → Bool → List UInt8 → Prop
  | done (input : Input) : Feeds input true []
  | memory (rest : List UInt8) (more : rest ≠ []) : Feeds (.memBuffer rest) false rest
  | reader (pieces : List (List UInt8)) (sized : ∀ p ∈ pieces, p ≠ []) :
      Feeds (.fcbReader (delivery pieces)) false pieces.flatten

/-- The source of a decompressor, which asks for nothing at its end. -/
def Pours (input : Input) (finish : Bool) (rest : List UInt8) : Prop :=
  finish = false ∧ Supplies input rest

theorem delivery_succ (p : List UInt8) (pieces : List (List UInt8)) :
    (fun i => delivery (p :: pieces) (i + 1)) = delivery pieces := by
  funext i
  simp [delivery]

theorem delivery_nil : (fun i => delivery [] (i + 1)) = delivery [] := by
  funext i
  simp [delivery]

theorem chunk_ne_nil {data : List UInt8} (more : data ≠ []) :
    min chunkSize data.length ≠ 0 := by
  have := List.length_pos_iff.mpr more
  simp only [chunkSize]
  omega

theorem Feeds.finished {input : Input} {rest : List UInt8} (feeds : Feeds input true rest) :
    rest = [] := by
  cases feeds with
  | done => rfl

theorem deflateChunk_feeds {s : Coder C} {rest : List UInt8}
    (feeds : Feeds s.input s.finish rest) (empty : s.availIn = []) :
    ∃ rest', s.deflateChunk.availIn ++ rest' = rest ∧
      Feeds s.deflateChunk.input s.deflateChunk.finish rest' ∧
      (s.deflateChunk.availIn ≠ [] ∨ s.deflateChunk.finish = true) := by
  unfold deflateChunk
  generalize hi : s.input = input at feeds
  generalize hf : s.finish = finish at feeds
  cases feeds with
  | done =>
    exact ⟨[], by simp [empty], by simpa [hi, hf] using .done input, .inr (by simp [hf])⟩
  | memory _ more =>
    simp only [Bool.false_eq_true, if_false, if_neg (chunk_ne_nil more)]
    refine ⟨rest.drop (min chunkSize rest.length), List.take_append_drop _ _, ?_, .inl ?_⟩
    · by_cases last : rest.drop (min chunkSize rest.length) = []
      · rw [last]
        exact .done _
      · rw [decide_eq_false last]
        exact .memory _ last
    · simpa [more] using chunk_ne_nil more
  | reader pieces sized =>
    cases pieces with
    | nil =>
      exact ⟨[], by simp [delivery], by simpa [delivery] using .done _,
        .inr (by simp [delivery])⟩
    | cons p pieces =>
      have piece := sized p (by simp)
      refine ⟨pieces.flatten, by simp [delivery], ?_, .inl (by simpa [delivery] using piece)⟩
      simp only [Bool.false_eq_true, if_false, delivery_succ]
      simp only [delivery, List.getD_cons_zero, decide_eq_false piece]
      exact .reader pieces fun q hq => sized q (List.mem_cons_of_mem p hq)

theorem inflateChunk_supplies {s : Coder C} {rest : List UInt8} (supplies : Supplies s.input rest)
    (empty : s.availIn = []) :
    ∃ rest', s.inflateChunk.availIn ++ rest' = rest ∧ Supplies s.inflateChunk.input rest' ∧
      (s.inflateChunk.availIn ≠ [] ∨ rest = []) := by
  unfold inflateChunk
  generalize hi : s.input = input at supplies
  cases supplies with
  | memory =>
    by_cases more : rest = []
    · subst more
      exact ⟨[], by simp [empty], by simpa [hi] using .memory [], .inr rfl⟩
    · simp only [if_neg (chunk_ne_nil more)]
      exact ⟨rest.drop (min chunkSize rest.length), List.take_append_drop _ _, .memory _,
        .inl (by simpa [more] using chunk_ne_nil more)⟩
  | reader pieces sized =>
    cases pieces with
    | nil =>
      simp only [delivery_nil]
      exact ⟨[], by simp [delivery], .reader [] (by simp), .inr rfl⟩
    | cons p pieces =>
      simp only [delivery_succ]
      exact ⟨pieces.flatten, by simp [delivery],
        .reader pieces fun q hq => sized q (List.mem_cons_of_mem p hq),
        .inl (by simpa [delivery] using sized p (by simp))⟩

theorem compressor_contract (deflate : Encoder C UInt8 bufError) (data : List UInt8) :
    Contract deflate.toTracked .compressor Feeds (fun _ input finish => input ≠ [] ∨ finish = true)
      data (fun _ => True) (fun zip => deflate.Whole zip data) (deflate.bound data.length) where
  input c input finish more := .inl more
  chunk s rest feeds empty _ := by
    refine ⟨?_, deflateChunk_feeds feeds empty⟩
    intro finish
    simp [nextChunk, deflateChunk, finish, empty]
  step s coding going able room := by
    have running := coding.going going
    refine ⟨deflate.works _ _ _ _ running able room, ?_, trivial, ?_⟩
    · intro ok
      by_cases more : s.availIn = []
      · have finish := able.resolve_left (not_not.mpr more)
        rw [finish] at ok running ⊢
        right
        rw [deflate.flushes _ _ _ running ok]
        exact room
      · have input := List.length_pos_iff.mpr more
        rcases deflate.greedy _ _ _ _ running ok with all | full
        · exact .inl (by rw [all]; exact input)
        · exact .inr (by rw [full]; exact room)
    · intro last
      obtain ⟨rest, all, feeds⟩ := coding.supply
      obtain ⟨finish, taken, complete⟩ := deflate.ends _ _ _ _ running last
      rw [finish] at feeds
      rw [feeds.finished, List.append_nil] at all
      rw [deflate.emitted_step, deflate.fed_step, taken, List.take_length, all,
        coding.emitted] at complete
      exact complete
  limited s coding := by
    obtain ⟨rest, all, -⟩ := coding.supply
    have fits : (deflate.fed s.strm).length ≤ data.length := by
      rw [← all]
      simp only [List.length_append]
      omega
    by_cases last : s.status = streamEnd
    · exact deflate.bounded_whole _ _ (coding.ended last)
    · rw [← coding.emitted]
      exact Nat.le_trans (deflate.bounded _ _ _ (coding.going last)) (deflate.bound_mono fits)

theorem inflateChunk_finish (s : Coder C) : s.inflateChunk.finish = s.finish := by
  unfold inflateChunk
  split
  · simp only
    split <;> rfl
  · rfl

theorem decompressor_contract {Whole : List UInt8 → List UInt8 → Prop}
    (inflate : Decoder E UInt8 Whole) {zip data : List UInt8} (complete : Whole zip data) :
    Contract inflate.toTracked .decompressor Pours
      (fun c input _ => input ≠ [] ∨ inflate.fed c = zip) zip (fun out => out <+: data)
      (fun out => out = data) data.length where
  input c input finish more := .inl more
  chunk s rest pours empty all := by
    obtain ⟨rest', given, supplies, able⟩ := inflateChunk_supplies pours.2 empty
    refine ⟨fun asked => absurd (pours.1.symm.trans asked) Bool.false_ne_true, rest', given,
      ⟨(inflateChunk_finish s).trans pours.1, supplies⟩, able.imp_right ?_⟩
    intro none
    rwa [none, List.append_nil] at all
  step s coding going able room := by
    have running := coding.going going
    obtain ⟨rest, all, finish, -⟩ := coding.supply
    rw [finish] at running
    have fits : inflate.fed s.strm ++ s.availIn <+: zip := ⟨rest, all⟩
    have front : inflate.emitted s.strm <+: data := by
      rw [coding.emitted]
      exact coding.front
    have written : s.produced ++ (inflate.step s.strm s.availIn false s.availOut).produced =
        inflate.emitted (inflate.step s.strm s.availIn false s.availOut).state := by
      rw [inflate.emitted_step, coding.emitted]
    rw [finish]
    refine ⟨inflate.works zip data _ _ _ complete running fits able room, ?_, ?_, ?_⟩
    · intro ok
      by_cases more : s.availIn = []
      · have fed := able.resolve_left (not_not.mpr more)
        have there : inflate.fed (inflate.step s.strm s.availIn false s.availOut).state = zip := by
          rw [inflate.fed_step, more, List.take_nil, List.append_nil, fed]
        right
        rw [inflate.flushes zip data _ _ _ complete running ok there]
        exact room
      · have input := List.length_pos_iff.mpr more
        rcases inflate.greedy _ _ _ _ running ok with all | full
        · exact .inl (by rw [all]; exact input)
        · exact .inr (by rw [full]; exact room)
    · rw [written]
      exact inflate.front zip data _ _ _ complete running front fits
    · intro last
      rw [written]
      exact inflate.ends zip data _ _ _ complete running front fits last
  limited s coding := coding.front.length_le

end Contracts

section RoundTrip

variable (deflate : Encoder C UInt8 bufError) (inflate : Decoder E UInt8 deflate.Whole)
  {data : List UInt8} {source : Input} {lens lens' : Nat → Nat}

theorem open_start : (0 : Int) ≠ streamEnd := by decide

theorem decompressor_ends {zip : List UInt8} (complete : deflate.Whole zip data)
    (supplies : Supplies source zip) (positive : ∀ i, 0 < lens i) :
    ∃ fuel d, drain inflate.toCodec .decompressor fuel fuel lens
      (start inflate.init 0 source) [] = some (data, d) ∧ d.isCompleted = true := by
  have coding : Coding inflate.toTracked Pours zip (fun out => out <+: data)
      (fun out => out = data) (start inflate.init 0 source) :=
    ⟨⟨zip, by simp [start, inflate.fed_init], rfl, supplies⟩, inflate.emitted_init, rfl,
      List.nil_prefix, fun _ => inflate.running_init _ _, fun h => absurd h open_start⟩
  obtain ⟨fuel, d, result, coding', last⟩ :=
    (decompressor_contract inflate complete).sound.drain_start _ _ _ positive coding
  rw [coding'.ended last] at result
  exact ⟨fuel, d, result, by simp [isCompleted, last]⟩

theorem compressor_ends (supplies : Supplies source data) (flushed : data ≠ [] ∨ ¬ IsMemory source)
    (positive : ∀ i, 0 < lens i) :
    ∃ fuel zip c, drain deflate.toCodec .compressor fuel fuel lens
      (start deflate.init 0 source) [] = some (zip, c) ∧ c.isCompleted = true ∧
      deflate.Whole zip data := by
  have feeds : Feeds source false data := by
    cases supplies with
    | memory => exact .memory data (flushed.resolve_right (not_not.mpr trivial))
    | reader pieces sized => exact .reader pieces sized
  have coding : Coding deflate.toTracked Feeds data (fun _ => True)
      (fun zip => deflate.Whole zip data) (start deflate.init 0 source) :=
    ⟨⟨data, by simp [start, deflate.fed_init], feeds⟩, deflate.emitted_init, rfl, trivial,
      fun _ => deflate.running_init _ _, fun h => absurd h open_start⟩
  obtain ⟨fuel, c, result, coding', last⟩ :=
    (compressor_contract deflate data).sound.drain_start _ _ _ positive coding
  exact ⟨fuel, c.produced, c, result, by simp [isCompleted, last], coding'.ended last⟩

/-- The compressor of an empty memory buffer never asks for the flush. -/
theorem compressor_starves (positive : 0 < lens 0) {fuel : Nat} {zip : List UInt8} {c : Coder C}
    (result : drain deflate.toCodec .compressor fuel fuel lens
      (start deflate.init 0 (.memBuffer [])) [] = some (zip, c)) : c.isCompleted = false := by
  have still : (start deflate.init 0 (.memBuffer [])).prepared .compressor =
      start deflate.init 0 (.memBuffer []) := by
    simp [prepared, nextChunk, deflateChunk, start, chunkSize]
  have starved : ((start deflate.init 0 (.memBuffer [])).turn deflate.toCodec .compressor).status =
      bufError := by
    rw [turn, still, stepped]
    simp only [start, deflate.idle, bufError]
    rfl
  cases fuel with
  | zero => simp [drain] at result
  | succ fuel =>
    have first : readOutput deflate.toCodec .compressor (fuel + 1)
        (start deflate.init 0 (.memBuffer [])) (lens 0) =
        some ([], (start deflate.init 0 (.memBuffer [])).turn deflate.toCodec .compressor) := by
      have asked : lens 0 ≠ 0 := Nat.ne_of_gt positive
      have going : (start deflate.init 0 (.memBuffer [])).status ≠ streamEnd := open_start
      rw [readOutput, readLoop, if_neg asked, if_neg (by simp [start]), if_pos going]
      simp only [starved]
      rfl
    rw [drain, first] at result
    obtain ⟨-, rfl⟩ := Prod.mk.inj (Option.some.inj result)
    rw [isCompleted, starved]
    rfl

theorem round_trips_iff (supplies : Supplies source data) (positive : ∀ i, 0 < lens i)
    (positive' : ∀ i, 0 < lens' i) :
    RoundTrips deflate.toCodec deflate.init inflate.toCodec inflate.init data source lens lens' ↔
      data ≠ [] ∨ ¬ IsMemory source := by
  constructor
  · rintro ⟨fuel, zip, c, result, completed, -⟩
    by_contra stuck
    obtain ⟨empty, memory⟩ := not_or.mp stuck
    cases supplies with
    | memory =>
      obtain rfl : data = [] := not_not.mp empty
      rw [compressor_starves deflate (positive 0) result] at completed
      cases completed
    | reader => exact memory fun h => h
  · intro flushed
    obtain ⟨fuel, zip, c, result, completed, complete⟩ :=
      compressor_ends deflate supplies flushed positive
    exact ⟨fuel, zip, c, result, completed, fun source' supplies' =>
      decompressor_ends deflate inflate complete supplies' positive'⟩

end RoundTrip

def storedDeflate : Encoder (PrefixCode.Held UInt8) UInt8 bufError :=
  storedCode.encoder bufError bufError_negative

def storedInflate : Decoder (PrefixCode.Held UInt8) UInt8 storedDeflate.Whole :=
  storedCode.decoder bufError bufError_negative

theorem round_trips_iff_stored : RoundTrips storedDeflate.toCodec storedDeflate.init
    storedInflate.toCodec storedInflate.init [97] (.memBuffer [97]) (fun _ => 1024) fun _ => 1024 :=
  (round_trips_iff storedDeflate storedInflate (.memory [97]) (fun _ => by decide)
    (fun _ => by decide)).mpr (.inl (by decide))

theorem not_always_round_trips :
    ¬ ∀ (deflate : Encoder (PrefixCode.Held UInt8) UInt8 bufError)
      (inflate : Decoder (PrefixCode.Held UInt8) UInt8 deflate.Whole) (data : List UInt8)
      (source : Input) (lens lens' : Nat → Nat), Supplies source data → (∀ i, 0 < lens i) →
        (∀ i, 0 < lens' i) → RoundTrips deflate.toCodec deflate.init inflate.toCodec inflate.init
          data source lens lens' := by
  intro claim
  obtain ⟨fuel, zip, c, result, completed, -⟩ := claim storedDeflate storedInflate []
    (.memBuffer []) (fun _ => 1024) (fun _ => 1024) (.memory []) (fun _ => by decide)
    (fun _ => by decide)
  have positive : 0 < (fun _ : Nat => 1024) 0 := by decide
  rw [compressor_starves storedDeflate positive result] at completed
  cases completed

end Coder

end CppMyth
