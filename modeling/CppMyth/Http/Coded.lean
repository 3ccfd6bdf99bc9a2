import CppMyth.Compressor.RoundTrip
import CppMyth.Http.Chunked
import CppMyth.Http.Header
import CppMyth.Library.Gzip

/-! Coded bodies. The decompressor pulls what the framing of the body lets through, and a whole
stream is decoded whatever the framing, where a cut one is reported. -/
namespace CppMyth
open Library

namespace Coder

/-- A read callback that has `rest` to give, and nothing after it. A failure gives nothing. -/
inductive Draws : Input → Bool → List UInt8 → Prop
  | reader (reader : Nat → Option (List UInt8)) (pieces : List (List UInt8))
      (sized : ∀ p ∈ pieces, p ≠ []) (given : ∀ i, (reader i).getD [] = pieces.getD i []) :
      Draws (.fcbReader reader) false pieces.flatten

variable {C : Type} {Whole : List UInt8 → List UInt8 → Prop} {s : Coder C}
  {part zip data : List UInt8}

theorem inflateChunk_draws {rest : List UInt8} (draws : Draws s.input s.finish rest) :
    s.finish = false ∧ ∃ rest', s.inflateChunk.availIn ++ rest' = rest ∧
      Draws s.inflateChunk.input s.inflateChunk.finish rest' ∧
      (s.inflateChunk.availIn ≠ [] ∨ rest = []) := by
  rw [inflateChunk_finish]
  unfold inflateChunk
  generalize s.input = input at draws
  generalize s.finish = finish at draws
  cases draws with
  | reader reader pieces sized given =>
    refine ⟨rfl, ?_⟩
    cases pieces with
    | nil =>
      refine ⟨[], by simp [given 0], ?_, .inr rfl⟩
      exact .reader (fun i => reader (i + 1)) [] (by simp) fun i => by simp [given (i + 1)]
    | cons p pieces =>
      refine ⟨pieces.flatten, by simp [given 0], ?_, .inl ?_⟩
      · apply Draws.reader (fun i => reader (i + 1)) pieces
        · exact fun q mem => sized q (List.mem_cons_of_mem p mem)
        · exact fun i => given (i + 1)
      · simpa [given 0] using sized p (by simp)

theorem decompressor_sourced (codec : Tracked C UInt8) (part : List UInt8) :
    Sourced codec .decompressor Draws (fun c input _ => input ≠ [] ∨ codec.fed c = part)
      part where
  input c availIn finish more := .inl more
  chunk s rest draws empty all := by
    obtain ⟨finish, rest', given, draws', able⟩ := inflateChunk_draws draws
    refine ⟨fun asked => absurd (finish.symm.trans asked) Bool.false_ne_true, rest', given,
      draws', able.imp_right ?_⟩
    intro none
    rwa [none, List.append_nil] at all

theorem Draws.finish {input : Input} {finish : Bool} {rest : List UInt8}
    (draws : Draws input finish rest) : finish = false := by
  cases draws
  rfl

theorem stepped_status (codec : Codec C UInt8) (s : Coder C) :
    (s.stepped codec).status = (codec.step s.strm s.availIn s.finish s.availOut).status := by
  unfold stepped
  simp only
  split <;> rfl

theorem stepped_going (codec : Codec C UInt8) (s : Coder C)
    (went : 0 ≤ (s.stepped codec).status) : (s.stepped codec).stop = false := by
  rw [stepped_status] at went
  unfold stepped
  simp only [if_neg (Int.not_lt.mpr went)]

/-- A decompressor on its way through `part`, which is `zip` or a front of it. -/
structure Inflating (inflate : FrontDecoder C UInt8 Whole) (part zip data : List UInt8)
    (s : Coder C) : Prop where
  coding : Coding inflate.toTracked Draws part (fun out => out <+: data)
    (fun out => out = data ∧ part = zip) s
  stops : s.stop = true → s.status = streamEnd ∧ s.outputLen = 0

/-- The decoder goes on or ends, if its status is not a failure. -/
theorem Inflating.outcome {inflate : FrontDecoder C UInt8 Whole} (complete : Whole zip data)
    (front : part <+: zip)
    (coding : Coding inflate.toTracked Draws part (fun out => out <+: data)
      (fun out => out = data ∧ part = zip) s)
    (going : s.status ≠ streamEnd) (room : 0 < s.availOut)
    (went : 0 ≤ (inflate.step s.strm s.availIn s.finish s.availOut).status) :
    Outcome (fun out => out <+: data) (fun out => out = data ∧ part = zip) s.produced
      (inflate.step s.strm s.availIn s.finish s.availOut) := by
  have running := coding.going going
  obtain ⟨rest, all, draws⟩ := coding.supply
  rw [draws.finish] at running went ⊢
  have within : inflate.fed s.strm ++ s.availIn <+: part := ⟨rest, all⟩
  have fits := within.trans front
  have emitted : inflate.emitted s.strm <+: data := by
    rw [coding.emitted]
    exact coding.front
  have written : s.produced ++ (inflate.step s.strm s.availIn false s.availOut).produced =
      inflate.emitted (inflate.step s.strm s.availIn false s.availOut).state := by
    rw [inflate.emitted_step, coding.emitted]
  have most := inflate.outcomes zip data _ _ s.availOut complete running fits
  constructor
  · unfold streamEnd
    omega
  · exact inflate.progress _ _ _ running room
  · rw [written]
    exact inflate.front zip data _ _ _ complete running emitted fits
  · intro last
    have fed := inflate.complete zip data _ _ _ complete running fits last
    have taken : zip <+: part := by
      rw [← fed, inflate.fed_step]
      exact ((List.prefix_append_right_inj _).mpr (List.take_prefix _ _)).trans within
    rw [written]
    exact ⟨inflate.ends zip data _ _ _ complete running emitted fits last,
      front.eq_of_length (Nat.le_antisymm front.length_le taken.length_le)⟩

theorem inflating_driven (inflate : FrontDecoder C UInt8 Whole) (complete : Whole zip data)
    (front : part <+: zip) :
    Driven inflate.toCodec .decompressor (Inflating inflate part zip data)
      (rank inflate.toTracked part data.length) (part ≠ zip) where
  copied s sz h := by
    refine ⟨⟨⟨h.coding.supply, h.coding.emitted, h.coding.settled, h.coding.front, h.coding.going,
      h.coding.ended⟩, ?_⟩, rfl⟩
    intro stop
    obtain ⟨last, empty⟩ := h.stops stop
    exact ⟨last, by rw [Coder.copied, empty, Nat.zero_sub]⟩
  stopped s h empty last :=
    ⟨⟨h.coding.supply, h.coding.emitted, h.coding.settled, h.coding.front, h.coding.going,
      h.coding.ended⟩, fun _ => ⟨last, empty⟩⟩
  settled s h := h.coding.settled
  turn s reported h acc empty going := by
    obtain ⟨coding, able, room, status, same⟩ :=
      (decompressor_sourced inflate.toTracked part).prepared data.length h.coding
    by_cases went : 0 ≤ (s.turn inflate.toCodec .decompressor).status
    · left
      have kept := stepped_going _ _ went
      unfold turn at went
      rw [stepped_status] at went
      obtain ⟨next, forward, nearer⟩ := coding.stepped (status ▸ going)
        (Inflating.outcome complete front coding (status ▸ going) room went)
        fun s coding => coding.front.length_le
      refine ⟨⟨next, ?_⟩, forward, same ▸ nearer⟩
      intro stop
      exact absurd (kept.symm.trans stop) Bool.false_ne_true
    · right
      refine ⟨?_, Int.not_le.mp went⟩
      rintro rfl
      obtain ⟨rest, all, draws⟩ := coding.supply
      have running := coding.going (status ▸ going)
      unfold turn at went
      rw [stepped_status] at went
      rw [draws.finish] at running went
      have works := inflate.works part data _ _ _ complete running ⟨rest, all⟩ able room
      omega

end Coder

namespace WSResponse
open NetSocket

/-- How the end of a body is told. -/
inductive BodyFraming where
  | length (n : Nat)
  | chunked
  | untilClose
  deriving DecidableEq, Repr

/-- The header fields of a gzip-coded body. A length beside the chunks is not looked at. -/
def ResponseHeader.Declares (h : ResponseHeader) : BodyFraming → Prop
  | .length n => h.contentEncoding = .gzip ∧ h.contentChunked = false ∧ h.contentLength = n ∧
      h.contentEmpty = decide (n = 0)
  | .chunked => h.contentEncoding = .gzip ∧ h.contentChunked = true ∧ h.chunkNext = true
  | .untilClose => h.contentEncoding = .gzip ∧ h.contentChunked = false ∧ h.contentLength = 0 ∧
      h.contentEmpty = false

/-- The response when its header section is read. -/
def ResponseHeader.response {S : Type} (D : Type) (h : ResponseHeader) (socket : S) :
    Response S D :=
  ⟨socket, h.contentEncoding, h.hasContent, h.contentEmpty, h.contentChunked, h.chunkNext,
    h.contentLength, 0, [], 0, none⟩

variable {S D : Type} [NetSocket S] {Arrives : S → List UInt8 → Prop}

section Sources

variable {r : Response S D} {data : List UInt8} {n : Nat}

def calls (reader : Response S D → Nat → (Int × List UInt8) × Response S D) :
    Machine (Response S D) Nat (Int × List UInt8) where
  step := reader

omit [NetSocket S] in
theorem answers_eq (reader : Response S D → Nat → (Int × List UInt8) × Response S D) (sz : Nat)
    (r : Response S D) (i : Nat) :
    answers reader sz r i =
      if ((calls reader).answerAt r (fun _ => sz) i).1 < 0 then none
      else some ((calls reader).answerAt r (fun _ => sz) i).2 := by
  induction i generalizing r with
  | zero => rfl
  | succ i ih =>
    rw [answers, ih, Machine.answerAt_succ]
    rfl

omit [NetSocket S] in
theorem draws_of_drains {reader : Response S D → Nat → (Int × List UInt8) × Response S D}
    {sz : Nat} (code : Int)
    (drains : Drains ((calls reader).answerAt r fun _ => sz) data code) :
    Coder.Draws (.fcbReader (answers reader sz r)) false data := by
  obtain ⟨pieces, sized, rfl, given⟩ := drains.pieces
  apply Coder.Draws.reader _ pieces sized
  intro i
  rw [answers_eq, ← given i]
  split
  · rename_i failed
    exact (drains.silent failed).symm
  · rfl

def bodyLeft (r : Response S D) (body : List UInt8) : List UInt8 :=
  if r.contentLength = 0 ∧ ¬ r.contentEmpty then body
  else body.take (r.contentLength - r.consumed)

/-- The socket reader still has `data` to give, and then the end. -/
def Receives (Arrives : S → List UInt8 → Prop) (r : Response S D) (data : List UInt8)
    (code : Int) : Prop :=
  code = 0 ∧ ∃ body, Arrives r.socket body ∧ data = bodyLeft r body

theorem Receives.piece {code : Int} (delivery : Delivery Arrives)
    (receives : Receives Arrives r data code) (more : data ≠ []) (positive : 0 < n) :
    ∃ piece rest, data = piece ++ rest ∧ piece ≠ [] ∧
      (r.socketStreamReader n).1 = ((piece.length : Int), piece) ∧
      Receives Arrives (r.socketStreamReader n).2 rest code := by
  obtain ⟨rfl, body, arrives, rfl⟩ := receives
  unfold bodyLeft at more ⊢
  unfold Response.socketStreamReader
  by_cases unknown : r.contentLength = 0 ∧ ¬ r.contentEmpty
  · rw [if_pos unknown] at more ⊢
    rw [if_pos unknown]
    obtain ⟨rest, whole, -, ends, next⟩ := delivery.took arrives positive
    refine ⟨_, rest, whole, fun none => more (ends none), rfl, rfl, rest, next, ?_⟩
    rw [bodyLeft, if_pos unknown]
  · rw [if_neg unknown] at more ⊢
    have left : r.contentLength > r.consumed := by
      by_contra full
      apply more
      rw [Nat.sub_eq_zero_of_le (Nat.le_of_not_lt full), List.take_zero]
    rw [if_neg unknown, if_pos left]
    have room : 0 < min (r.contentLength - r.consumed) n := by omega
    obtain ⟨rest, whole, fits, ends, next⟩ := delivery.took arrives room
    generalize receiveData r.socket (min (r.contentLength - r.consumed) n) = rcv
      at whole fits ends next ⊢
    have some_bytes : rcv.1 ≠ [] := by
      intro none
      apply more
      rw [ends none, List.take_nil]
    refine ⟨rcv.1, rest.take (r.contentLength - r.consumed - rcv.1.length), ?_, some_bytes, rfl,
      rfl, rest, next, ?_⟩
    · rw [whole, List.take_append, List.take_of_length_le (by omega)]
    · rw [bodyLeft, if_neg unknown]
      simp only [if_neg some_bytes, Nat.sub_sub]

theorem Receives.last {code : Int} (delivery : Delivery Arrives)
    (receives : Receives Arrives r [] code) (positive : 0 < n) :
    (r.socketStreamReader n).1 = (code, []) ∧
      Receives Arrives (r.socketStreamReader n).2 [] 0 := by
  obtain ⟨rfl, body, arrives, none⟩ := receives
  unfold bodyLeft at none
  unfold Response.socketStreamReader
  by_cases unknown : r.contentLength = 0 ∧ ¬ r.contentEmpty
  · rw [if_pos unknown] at none
    subst none
    rw [if_pos unknown]
    obtain ⟨rest, whole, -, -, next⟩ := delivery.took arrives positive
    obtain ⟨got, gone⟩ := List.append_eq_nil_iff.mp whole.symm
    subst gone
    refine ⟨by simp [got], rfl, [], next, ?_⟩
    rw [bodyLeft, if_pos unknown]
  · rw [if_neg unknown] at none
    rw [if_neg unknown]
    by_cases left : r.contentLength > r.consumed
    · rw [if_pos left]
      obtain rfl : body = [] := by
        rcases List.take_eq_nil_iff.mp none.symm with full | empty
        · omega
        · exact empty
      obtain ⟨rest, whole, -, -, next⟩ := delivery.took arrives
        (show 0 < min (r.contentLength - r.consumed) n by omega)
      obtain ⟨got, gone⟩ := List.append_eq_nil_iff.mp whole.symm
      subst gone
      refine ⟨by simp [got], rfl, [], next, ?_⟩
      rw [bodyLeft, if_neg unknown, List.take_nil]
    · rw [if_neg left]
      refine ⟨rfl, rfl, body, arrives, ?_⟩
      rw [bodyLeft, if_neg unknown]
      simp

/-- The callback of the decompressor. -/
def bodyReader (chunked : Bool) : Response S D → Nat → (Int × List UInt8) × Response S D :=
  if chunked then Response.chunkStreamReader else Response.socketStreamReader

/-- What is let through of the bytes on the connection. -/
def BodyFraming.delivers : BodyFraming → List UInt8 → List UInt8
  | .length n, wire => wire.take n
  | .chunked, wire => (scan 0 wire).data
  | .untilClose, wire => wire

theorem response_draws (delivery : Delivery Arrives) {h : ResponseHeader} {framing : BodyFraming}
    (declares : h.Declares framing) {s : S} {wire : List UInt8} (arrives : Arrives s wire) :
    Coder.Draws (.fcbReader (answers (bodyReader h.contentChunked) chunkSize (h.response D s)))
      false (framing.delivers wire) := by
  have socket : h.contentChunked = false → bodyLeft (h.response D s) wire = framing.delivers wire →
      Coder.Draws (.fcbReader (answers (bodyReader h.contentChunked) chunkSize (h.response D s)))
        false (framing.delivers wire) := by
    intro plain left
    rw [plain]
    apply draws_of_drains 0
    exact (calls Response.socketStreamReader).drains (Receives Arrives) (fun n => 0 < n)
      (fun receives more asked => receives.piece delivery more asked)
      (fun receives asked => receives.last delivery asked)
      ⟨rfl, wire, arrives, left.symm⟩ fun _ => by decide
  cases framing with
  | length n =>
    obtain ⟨-, plain, length, empty⟩ := declares
    apply socket plain
    unfold bodyLeft ResponseHeader.response BodyFraming.delivers
    simp [length, empty]
  | chunked =>
    obtain ⟨-, chunked, next⟩ := declares
    rw [chunked]
    apply draws_of_drains (scan 0 wire).ending.code
    exact (calls Response.chunkStreamReader).drains (Streams Arrives) (fun n => 0 < n)
      (fun streams more asked => streams.piece delivery more asked)
      (fun streams asked => streams.last delivery asked)
      ⟨chunked, .inl ⟨next, _, ⟨wire, arrives, rfl, rfl⟩, rfl⟩⟩ fun _ => by decide
  | untilClose =>
    obtain ⟨-, plain, length, empty⟩ := declares
    apply socket plain
    unfold bodyLeft ResponseHeader.response BodyFraming.delivers
    simp [length, empty]

end Sources


section Decoding

variable {C : Type} {Whole : List UInt8 → List UInt8 → Prop}
  {inflate : FrontDecoder C UInt8 Whole} {fuel : Nat} {part zip data reported : List UInt8}
  {r : Response S (Coder C)} {n : Nat}

/-- The decompressor over a decoder, with `fuel` turns for a read. -/
def inflater (inflate : FrontDecoder C UInt8 Whole) (fuel : Nat) : Decompressor (Coder C) :=
  .ofCoder inflate.toCodec (fun _ => inflate.init) fuel

/-- The decompressor, also before the first call makes it. -/
def decoderOf (dec : Decompressor D) (r : Response S D) : D :=
  r.decoder.getD (dec.start (decide (r.contentEncoding = .gzip))
    (answers (bodyReader r.contentChunked) chunkSize r))

def decoderRead (dec : Decompressor D) (d : D) (n : Nat) : List UInt8 × D :=
  if dec.hasOutputData d then dec.readOutput d n else ([], d)

theorem readContent_coded (dec : Decompressor D) (r : Response S D) (n : Nat)
    (gzip : r.contentEncoding = .gzip) :
    r.readContent dec n =
      (if (decoderRead dec (decoderOf dec r) n).1 = [] ∧
          ¬ dec.isCompleted (decoderRead dec (decoderOf dec r) n).2 then (-1, [])
        else (((decoderRead dec (decoderOf dec r) n).1.length : Int),
          (decoderRead dec (decoderOf dec r) n).1),
        { r with decoder := some (decoderRead dec (decoderOf dec r) n).2 }) := by
  have reader : r.readContent dec n = r.readCoded dec (bodyReader r.contentChunked) n := by
    unfold Response.readContent bodyReader
    cases r.contentChunked <;> simp [gzip]
  rw [reader]
  by_cases silent : (decoderRead dec (decoderOf dec r) n).1 = [] ∧
      ¬ dec.isCompleted (decoderRead dec (decoderOf dec r) n).2
  · rw [if_pos silent]
    exact if_pos silent
  · rw [if_neg silent]
    exact if_neg silent

/-- ReadContent has handed out `reported`. -/
structure Decoding (inflate : FrontDecoder C UInt8 Whole) (fuel : Nat)
    (part zip data : List UInt8) (r : Response S (Coder C)) (reported : List UInt8) : Prop where
  gzip : r.contentEncoding = .gzip
  inflating : Coder.Inflating inflate part zip data (decoderOf (inflater inflate fuel) r)
  accounted : Coder.Accounted (decoderOf (inflater inflate fuel) r) reported

def turns (zip data : List UInt8) : Nat := 2 * (zip.length + data.length + 1) + 3

theorem turns_enough (front : part <+: zip) (d : Coder C) :
    2 * Coder.rank inflate.toTracked part data.length d +
      (if d.outputLen = 0 then 2 else 3) ≤ turns zip data := by
  have := front.length_le
  unfold Coder.rank turns
  split <;> split <;> omega

/-- A call hands out what the decompressor has, or reports that there is no more input. -/
theorem Decoding.call (complete : Whole zip data) (front : part <+: zip)
    (enough : turns zip data ≤ fuel) (decoding : Decoding inflate fuel part zip data r reported)
    (positive : 0 < n) :
    ∃ t, (r.readContent (inflater inflate fuel) n).2 = { r with decoder := some t } ∧
      ((∃ got, (r.readContent (inflater inflate fuel) n).1 = ((got.length : Int), got) ∧
        Coder.Ended (Coder.Inflating inflate part zip data) reported got t) ∨
      (part ≠ zip ∧ (r.readContent (inflater inflate fuel) n).1 = (-1, []) ∧ t.stop = true ∧
        t.status ≠ streamEnd)) := by
  obtain ⟨gzip, inflating, accounted⟩ := decoding
  rw [readContent_coded _ r n gzip]
  generalize decoderOf (inflater inflate fuel) r = d at inflating accounted ⊢
  rw [← List.append_nil reported] at accounted
  cases stop : d.stop with
  | true =>
    obtain ⟨last, empty⟩ := inflating.stops stop
    have read : decoderRead (inflater inflate fuel) d n = ([], d) :=
      if_neg (by simp [inflater, Decompressor.ofCoder, stop])
    have completed : (inflater inflate fuel).isCompleted d = true := by
      simp [inflater, Decompressor.ofCoder, Coder.isCompleted, last]
    rw [read]
    refine ⟨d, rfl, .inl ⟨[], ?_, inflating, accounted, fun _ => ⟨last, empty⟩⟩⟩
    simp [completed]
  | false =>
    have driven := Coder.inflating_driven inflate complete front
    obtain ⟨got, t, result, outcome⟩ := driven.readLoop_returns fuel inflating accounted
      (Nat.le_trans (turns_enough front d) enough) fun _ => positive
    have read : decoderRead (inflater inflate fuel) d n = (got, t) := by
      have output : d.readOutput inflate.toCodec .decompressor fuel n = some (got, t) := result
      simp [decoderRead, inflater, Decompressor.ofCoder, stop, output]
    rw [read]
    refine ⟨t, rfl, ?_⟩
    rcases outcome with ended | ⟨fails, rfl, failed, stopped⟩
    · refine .inl ⟨got, ?_, ended⟩
      apply if_neg
      rintro ⟨none, going⟩
      apply going
      simp [inflater, Decompressor.ofCoder, Coder.isCompleted, (ended.last none).1]
    · have going : t.status ≠ streamEnd := by
        unfold streamEnd
        omega
      refine .inr ⟨fails, ?_, stopped, going⟩
      apply if_pos
      simp [inflater, Decompressor.ofCoder, Coder.isCompleted, going]

theorem Decoding.start (inflate : FrontDecoder C UInt8 Whole) (fuel : Nat) (zip data : List UInt8)
    (gzip : r.contentEncoding = .gzip) (fresh : r.decoder = none)
    (draws : Coder.Draws (.fcbReader (answers (bodyReader r.contentChunked) chunkSize r)) false
      part) : Decoding inflate fuel part zip data r [] := by
  have start : decoderOf (inflater inflate fuel) r = Coder.start inflate.init 0
      (.fcbReader (answers (bodyReader r.contentChunked) chunkSize r)) := by
    rw [decoderOf, fresh]
    rfl
  refine ⟨gzip, ?_, ?_⟩
  · rw [start]
    refine ⟨⟨⟨part, ?_, draws⟩, inflate.emitted_init, rfl, List.nil_prefix,
      fun _ => inflate.running_init _ _, fun last => absurd last Coder.open_start⟩, ?_⟩
    · simp [Coder.start, inflate.fed_init]
    · intro stop
      cases stop
  · rw [start]
    exact Coder.start_accounted _ _ _

theorem Decoding.next {t : Coder C} {got bytes : List UInt8}
    (decoding : Decoding inflate fuel part zip data r reported) (whole : reported ++ bytes = data)
    (ended : Coder.Ended (Coder.Inflating inflate part zip data) reported got t) :
    (∃ rest, bytes = got ++ rest ∧
      Decoding inflate fuel part zip data { r with decoder := some t } (reported ++ got) ∧
      reported ++ got ++ rest = data) ∧ (got = [] → bytes = [] ∧ part = zip) := by
  have produced := ended.accounted.bytes
  constructor
  · have front : reported ++ got <+: reported ++ bytes := by
      rw [whole]
      exact List.IsPrefix.trans ⟨_, produced.symm⟩ ended.sound.coding.front
    obtain ⟨rest, rfl⟩ := (List.prefix_append_right_inj reported).mp front
    refine ⟨rest, rfl, ⟨decoding.gzip, ended.sound, ended.accounted⟩, ?_⟩
    rw [List.append_assoc]
    exact whole
  · rintro rfl
    obtain ⟨all, same⟩ := ended.sound.coding.ended (ended.last rfl).1
    rw [ended.produced ended.sound.coding.settled, ← whole] at all
    exact ⟨List.append_right_eq_self.mp all.symm, same⟩

theorem decoded (complete : Whole zip data) (enough : turns zip data ≤ fuel)
    (decoding : Decoding inflate fuel zip zip data r []) {lens : Nat → Nat}
    (positive : ∀ i, 0 < lens i) :
    Drains ((content S (inflater inflate fuel)).answerAt r lens) data 0 := by
  apply (content S (inflater inflate fuel)).drains
    (fun r bytes code => code = 0 ∧ ∃ reported, Decoding inflate fuel zip zip data r reported ∧
      reported ++ bytes = data) (fun n => 0 < n) ?_ ?_ ⟨rfl, [], decoding, rfl⟩ positive
  · rintro r bytes code n ⟨rfl, reported, decoding, whole⟩ more asked
    obtain ⟨t, state, ⟨got, answer, ended⟩ | ⟨cut, -⟩⟩ :=
      decoding.call complete List.prefix_rfl enough asked
    · obtain ⟨⟨rest, split, next, whole'⟩, last⟩ := decoding.next whole ended
      refine ⟨got, rest, split, fun none => more (last none).1, answer, rfl, _, ?_, whole'⟩
      exact state ▸ next
    · exact absurd rfl cut
  · rintro r code n ⟨rfl, reported, decoding, whole⟩ asked
    obtain ⟨t, state, ⟨got, answer, ended⟩ | ⟨cut, -⟩⟩ :=
      decoding.call complete List.prefix_rfl enough asked
    · obtain ⟨⟨rest, split, next, whole'⟩, -⟩ := decoding.next whole ended
      obtain ⟨rfl, rfl⟩ := List.append_eq_nil_iff.mp split.symm
      exact ⟨answer, rfl, _, state ▸ next, whole'⟩
    · exact absurd rfl cut

/-- The state that a failure leaves: there is no output and there will be none. -/
def Broken (r : Response S (Coder C)) : Prop :=
  r.contentEncoding = .gzip ∧ ∃ d, r.decoder = some d ∧ d.stop = true ∧ d.status ≠ streamEnd

theorem Broken.call (broken : Broken r) (inflate : FrontDecoder C UInt8 Whole) (fuel n : Nat) :
    (r.readContent (inflater inflate fuel) n).1 = (-1, []) ∧
      Broken (r.readContent (inflater inflate fuel) n).2 := by
  obtain ⟨gzip, d, made, stop, going⟩ := broken
  have read : decoderRead (inflater inflate fuel) (decoderOf (inflater inflate fuel) r) n =
      ([], d) := by
    rw [decoderOf, made]
    exact if_neg (by simp [inflater, Decompressor.ofCoder, stop])
  rw [readContent_coded _ r n gzip, read]
  refine ⟨?_, gzip, d, rfl, stop, going⟩
  apply if_pos
  simp [inflater, Decompressor.ofCoder, Coder.isCompleted, going]

theorem broken_off (complete : Whole zip data) (front : part <+: zip) (cut : part ≠ zip)
    (enough : turns zip data ≤ fuel) (decoding : Decoding inflate fuel part zip data r [])
    {lens : Nat → Nat} (positive : ∀ i, 0 < lens i) :
    Breaks ((content S (inflater inflate fuel)).answerAt r lens) data := by
  apply (content S (inflater inflate fuel)).breaks
    (fun r bytes => ∃ reported, Decoding inflate fuel part zip data r reported ∧
      reported ++ bytes = data) Broken (fun n => 0 < n) ?_ ?_ ⟨[], decoding, rfl⟩ positive
  · rintro r bytes n ⟨reported, decoding, whole⟩ asked
    obtain ⟨t, state, ⟨got, answer, ended⟩ | ⟨-, answer, stop, going⟩⟩ :=
      decoding.call complete front enough asked
    · obtain ⟨⟨rest, split, next, whole'⟩, last⟩ := decoding.next whole ended
      refine .inl ⟨got, rest, split, fun none => cut (last none).2, answer, _, ?_, whole'⟩
      exact state ▸ next
    · right
      change (r.readContent (inflater inflate fuel) n).1.1 < 0 ∧
        Broken (r.readContent (inflater inflate fuel) n).2
      rw [answer, state]
      exact ⟨by decide, decoding.gzip, t, rfl, stop, going⟩
  · intro r n broken _
    obtain ⟨answer, next⟩ := broken.call inflate fuel n
    refine ⟨?_, next⟩
    change (r.readContent (inflater inflate fuel) n).1.1 < 0
    rw [answer]
    decide

end Decoding


section Cut

theorem readHeaderLoop_unended (fuel : Nat) {front tail : List UInt8} (plain : 13 ∉ front)
    (ends : tail = [] ∨ tail = [13]) (buf line : List UInt8) (l : Nat)
    (room : l + buf.length + front.length < headerMaxLen)
    (enough : front.length + tail.length < fuel) :
    (readHeaderLoop crlf fuel (front ++ tail) buf 0 line l).2 = [] := by
  induction front generalizing fuel buf line l with
  | nil =>
    obtain ⟨fuel, rfl⟩ := Nat.exists_eq_add_one_of_ne_zero (Nat.ne_of_gt (Nat.zero_lt_of_lt enough))
    rcases ends with rfl | rfl
    · rfl
    · obtain ⟨fuel, rfl⟩ : ∃ k, fuel = k + 1 := ⟨fuel - 1, by simp at enough; omega⟩
      rfl
  | cons b front ih =>
    rw [List.mem_cons, not_or] at plain
    rw [List.length_cons] at room enough
    obtain ⟨fuel, rfl⟩ := Nat.exists_eq_add_one_of_ne_zero (Nat.ne_of_gt (Nat.zero_lt_of_lt enough))
    have other : ¬ crlf[0]? = some b := fun same => plain.1 (Option.some.inj same)
    simp only [List.cons_append, readHeaderLoop, receiveData, List.take_succ_cons, List.take_zero,
      List.drop_succ_cons, List.drop_zero, if_neg other]
    by_cases flush : (buf ++ [b]).length > responseBufferSize - 2 - crlf.length
    · have below : l + (buf ++ [b]).length < headerMaxLen := by
        simp only [List.length_append, List.length_cons, List.length_nil]
        omega
      rw [if_pos flush, if_pos below]
      apply ih fuel plain.2
      · simp only [List.length_append, List.length_cons, List.length_nil]
        omega
      · omega
    · rw [if_neg flush]
      apply ih fuel plain.2
      · simp only [List.length_append, List.length_cons, List.length_nil]
        omega
      · omega

theorem skipBlank_nil (fuel : Nat) : (skipBlank fuel ([] : List UInt8)).2 = [] :=
  List.length_eq_zero_iff.mp (Nat.le_zero.mp (skipBlank_length fuel []).1)

theorem sizeLine_unended {front tail : List UInt8} (plain : 13 ∉ front)
    (ends : tail = [] ∨ tail = [13]) (short : front.length < headerMaxLen) :
    (sizeLine (front ++ tail)).2 = [] := by
  have one : tail.length < responseBufferSize := by
    rcases ends with rfl | rfl <;> decide
  have line : (readHeaderLine crlf (front ++ tail)).2 = [] :=
    readHeaderLoop_unended _ plain ends [] [] 0 (by simpa using short)
      (Nat.add_lt_add short one)
  unfold sizeLine
  cases pending (front ++ tail) with
  | zero => exact line
  | succ fuel =>
    unfold skipBlank
    simp only
    split
    · rw [line]
      exact skipBlank_nil fuel
    · exact line

/-- A size line that the stream ends in is the last of the body. -/
theorem scan_unended {front tail : List UInt8} (plain : 13 ∉ front)
    (ends : tail = [] ∨ tail = [13]) (short : front.length < headerMaxLen) :
    (scan 0 (front ++ tail)).data = [] := by
  rw [scan_line (Nat.not_lt_zero _), List.drop_zero, sizeLine_unended plain ends short]
  cases scanSize (sizeLine (front ++ tail)).1.line with
  | none => rfl
  | some size =>
    simp only
    by_cases zero : size = 0
    · rw [if_pos zero]
      rfl
    · rw [if_neg zero]
      by_cases overflow : size > chunkMaxSize
      · rw [if_pos overflow]
        rfl
      · rw [if_neg overflow, scan_cut (Nat.pos_of_ne_zero zero)]
        rfl

theorem front_of_crlf {d : List UInt8} (front : d <+: crlf) (part : d.length < crlf.length) :
    d = [] ∨ d = [13] := by
  match d, front, part with
  | [], _, _ => exact .inl rfl
  | [b], front, _ =>
    right
    rw [(List.cons_prefix_cons.mp front).1]
  | _ :: _ :: _, _, part => exact absurd part (by simp [crlf])

theorem scan_cut_chunk (c : Chunk) {wire : List UInt8}
    (front : wire <+: c.size.line ++ crlf ++ c.data)
    (part : wire.length < (c.size.line ++ crlf ++ c.data).length) :
    (scan 0 wire).data <+: c.data ∧ (scan 0 wire).data.length < c.data.length := by
  have positive := List.length_pos_iff.mpr c.some_data
  have plain : 13 ∉ c.size.line := c.size.line_plain.2.1
  have nothing : (scan 0 wire).data = [] →
      (scan 0 wire).data <+: c.data ∧ (scan 0 wire).data.length < c.data.length := by
    intro none
    rw [none]
    exact ⟨List.nil_prefix, positive⟩
  rcases front_append front with ⟨within, short⟩ | ⟨d, rfl, within⟩
  · apply nothing
    rcases front_append within with ⟨text, shorter⟩ | ⟨tail, rfl, ends⟩
    · rw [← List.append_nil wire]
      exact scan_unended (fun mem => plain (text.subset mem)) (.inl rfl)
        (Nat.lt_trans shorter c.size.short)
    · rw [List.length_append, List.length_append] at short
      exact scan_unended plain (front_of_crlf ends (Nat.lt_of_add_lt_add_left short))
        c.size.short
  · have less : d.length < c.data.length := by
      simp only [List.length_append] at part
      omega
    rw [(scan_size c d).1, scan_cut less]
    exact ⟨within, less⟩

/-- Of chunks that lack some bytes up to the last one of their data, less than all is read. -/
theorem scan_missing (chunks : List Chunk) {wire missing : List UInt8}
    (whole : wire ++ missing ++ crlf = chunks.flatMap Chunk.bytes) (some_missing : missing ≠ []) :
    (scan 0 wire).data <+: chunks.flatMap Chunk.data ∧
      (scan 0 wire).data.length < (chunks.flatMap Chunk.data).length := by
  induction chunks generalizing wire with
  | nil => simp [some_missing] at whole
  | cons c chunks ih =>
    have front : wire <+: c.size.line ++ crlf ++ c.data ++
        (crlf ++ chunks.flatMap Chunk.bytes) :=
      ⟨missing ++ crlf, by simpa [Chunk.bytes, List.append_assoc] using whole⟩
    rw [List.flatMap_cons, List.length_append]
    rcases front_append front with ⟨within, short⟩ | ⟨q, rfl, within⟩
    · obtain ⟨part, less⟩ := scan_cut_chunk c within short
      exact ⟨part.trans (List.prefix_append _ _), Nat.lt_add_right _ less⟩
    · have rest : q ++ missing ++ crlf = crlf ++ chunks.flatMap Chunk.bytes := by
        simpa [Chunk.bytes, List.append_assoc] using whole
      have later : (scan 0 q).data <+: chunks.flatMap Chunk.data ∧
          (scan 0 q).data.length < (chunks.flatMap Chunk.data).length := by
        rcases front_append within with ⟨cut, short⟩ | ⟨q, rfl, -⟩
        · have none : (scan 0 q).data = [] := by
            have ends := front_of_crlf cut short
            rw [← List.nil_append q]
            exact scan_unended List.not_mem_nil ends (by decide)
          rw [none]
          refine ⟨List.nil_prefix, ?_⟩
          cases chunks with
          | nil =>
            have lengths := congrArg List.length rest
            have positive := List.length_pos_iff.mpr some_missing
            simp only [List.length_append, List.flatMap_nil, List.length_nil] at lengths
            omega
          | cons c chunks =>
            have positive := List.length_pos_iff.mpr c.some_data
            rw [List.flatMap_cons, List.length_append]
            exact Nat.lt_add_right _ positive
        · rw [scan_blank]
          apply ih
          simpa [List.append_assoc] using rest
      have read := (scan_chunk_data c q).1
      rw [← List.append_assoc] at read
      rw [read, List.length_append]
      exact ⟨(List.prefix_append_right_inj c.data).mpr later.1, Nat.add_lt_add_left later.2 _⟩

end Cut

section Bodies

/-- The connection carries `body` in its framing, and whatever may follow it. -/
inductive Conveys (body : List UInt8) : BodyFraming → List UInt8 → Prop
  | length (rest : List UInt8) : Conveys body (.length body.length) (body ++ rest)
  | chunked (chunks : ChunkedBody) (data : chunks.data = body) (rest : List UInt8) :
      Conveys body .chunked (chunks.bytes ++ rest)
  | untilClose : Conveys body .untilClose body

/-- The body is cut before its end: by its sender, who frames what is left of it, or on the way,
with the framing of the whole. -/
inductive Cuts (body : List UInt8) : BodyFraming → List UInt8 → Prop
  | framed {framing : BodyFraming} {wire part : List UInt8} (conveys : Conveys part framing wire)
      (front : part <+: body) (less : part ≠ body) : Cuts body framing wire
  | length {wire : List UInt8} (front : wire <+: body) (less : wire ≠ body) :
      Cuts body (.length body.length) wire
  | chunked (chunks : ChunkedBody) (data : chunks.data = body) {wire missing : List UInt8}
      (whole : wire ++ missing ++ crlf = chunks.chunks.flatMap Chunk.bytes)
      (some_missing : missing ≠ []) : Cuts body .chunked wire

theorem Conveys.delivers {body wire : List UInt8} {framing : BodyFraming}
    (conveys : Conveys body framing wire) : framing.delivers wire = body := by
  cases conveys with
  | length rest => exact List.take_left
  | chunked chunks data rest => exact (scan_bytes chunks rest).1.trans data
  | untilClose => rfl

theorem Cuts.delivers {body wire : List UInt8} {framing : BodyFraming}
    (cuts : Cuts body framing wire) :
    framing.delivers wire <+: body ∧ framing.delivers wire ≠ body := by
  cases cuts with
  | framed conveys front less =>
    rw [conveys.delivers]
    exact ⟨front, less⟩
  | length front less =>
    rw [BodyFraming.delivers, List.take_of_length_le front.length_le]
    exact ⟨front, less⟩
  | chunked chunks data whole some_missing =>
    obtain ⟨front, less⟩ := scan_missing chunks.chunks whole some_missing
    rw [← data]
    exact ⟨front, fun same => Nat.ne_of_lt less (congrArg List.length same)⟩

/-- A coded body is decoded to its end in every framing, and in none is a cut one taken for it.
The turns of a read are bounded by the body and its text alone. -/
theorem coded_content_delivered {C : Type} {Whole : List UInt8 → List UInt8 → Prop}
    (inflate : FrontDecoder C UInt8 Whole) {zip data : List UInt8} (complete : Whole zip data)
    (delivery : Delivery Arrives) :
    ∃ enough, ∀ fuel, enough ≤ fuel → ∀ (h : ResponseHeader) (framing : BodyFraming) (s : S)
      (wire : List UInt8) (lens : Nat → Nat), h.Declares framing → Arrives s wire →
        (∀ i, 0 < lens i) →
      (Conveys zip framing wire → Drains ((content S (inflater inflate fuel)).answerAt
        (h.response (Coder C) s) lens) data 0) ∧
      (Cuts zip framing wire → Breaks ((content S (inflater inflate fuel)).answerAt
        (h.response (Coder C) s) lens) data) := by
  refine ⟨turns zip data, ?_⟩
  intro fuel enough h framing s wire lens declares arrives positive
  have gzip : (h.response (Coder C) s).contentEncoding = .gzip := by
    cases framing <;> exact declares.1
  have decoding := Decoding.start inflate fuel zip data gzip rfl
    (response_draws delivery declares arrives)
  constructor
  · intro conveys
    rw [conveys.delivers] at decoding
    exact decoded complete enough decoding positive
  · intro cuts
    exact broken_off complete cuts.delivers.1 cuts.delivers.2 enough decoding positive

def gzipInflate : FrontDecoder (PrefixCode.Held UInt8) UInt8 fun zip data => zip = gzip data :=
  gzipCode.frontDecoder bufError bufError_negative

/-- A body that ends with its connection. -/
theorem coded_content_delivered_gzip :
    let s := TcpSocket.connected (gzip (ascii "ok")) (fun _ => .ready 2) fun _ => true
    let h := { noHeader with contentEncoding := .gzip, hasContent := true }
    ∃ enough, ∀ fuel, enough ≤ fuel →
      Drains ((content TcpSocket (inflater gzipInflate fuel)).answerAt (h.response _ s) fun _ => 1)
        (ascii "ok") 0 := by
  intro s h
  obtain ⟨enough, delivered⟩ := coded_content_delivered gzipInflate rfl ready_delivery
  refine ⟨enough, ?_⟩
  intro fuel le
  exact (delivered fuel le h .untilClose s (gzip (ascii "ok")) (fun _ => 1) ⟨rfl, rfl, rfl, rfl⟩
    ⟨rfl, fun _ => ⟨2, rfl⟩, rfl⟩ fun _ => Nat.one_pos).1 .untilClose

end Bodies

end WSResponse

end CppMyth
