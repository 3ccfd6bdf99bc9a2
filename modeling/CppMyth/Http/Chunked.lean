import CppMyth.Http.Content
import CppMyth.Library.Drain
import CppMyth.Library.Stored

/-! Chunked bodies. The decoder is compared with a reading of the whole body at once: what it
hands out and how it closes depend on the bytes alone, not on how they are delivered or asked
for. -/
namespace CppMyth.WSResponse
open Library NetSocket

variable {S D : Type} [NetSocket S]

/-- How a body comes to its end: a size line is refused, a size line is taken for the last one,
or the stream ends inside the data of a chunk. -/
inductive Ending where
  | refused | zero | cut
  deriving DecidableEq, Repr

/-- What ReadContent returns then. -/
def Ending.code : Ending → Int
  | .refused => -1
  | .zero => 0
  | .cut => 0

/-- The number of a size line: hexadecimal digits, before an extension or nothing. -/
def hexSize (line : List UInt8) : Option Nat :=
  let rest := (line.dropWhile isxdigit).dropWhile fun c => c = 32 || c = 9
  if line.takeWhile isxdigit ≠ [] ∧ (rest = [] ∨ rest.head? = some 59) then
    some (hexValue (line.takeWhile isxdigit))
  else none

/-- A whole line whose number is the size that ReadChunk takes from it. -/
def Exact (l : HeaderLine) : Prop := l.complete = true ∧ hexSize l.line = scanSize l.line

instance (l : HeaderLine) : Decidable (Exact l) :=
  inferInstanceAs (Decidable (_ ∧ _))

/-- A body read through: its data, how it ended, and whether every size line on the way says
what was taken from it. -/
structure Scan where
  data : List UInt8
  ending : Ending
  exact : Bool
  deriving DecidableEq, Repr

/-- `room` bytes of the current chunk are still to come. Each turn takes a size line. -/
def scanLoop : Nat → Nat → List UInt8 → Scan
  | 0, _, _ => ⟨[], .refused, true⟩
  | fuel + 1, room, body =>
    if body.length < room then ⟨body, .cut, true⟩
    else
      let l := sizeLine (body.drop room)
      match scanSize l.1.line with
      | none => ⟨body.take room, .refused, true⟩
      | some size =>
        if size = 0 then ⟨body.take room, .zero, decide (Exact l.1)⟩
        else if size > chunkMaxSize then ⟨body.take room, .refused, true⟩
        else
          let next := scanLoop fuel size l.2
          ⟨body.take room ++ next.data, next.ending, decide (Exact l.1) && next.exact⟩

def scan (room : Nat) (body : List UInt8) : Scan := scanLoop (body.length + 1) room body

section Lines

theorem readHeaderLine_nil : readHeaderLine crlf ([] : List UInt8) = (⟨false, [], 0⟩, []) := rfl

theorem readHeaderLine_length (body : List UInt8) :
    (readHeaderLine crlf body).2.length ≤ body.length ∧
      (body ≠ [] → (readHeaderLine crlf body).2.length < body.length) := by
  obtain ⟨le, lt⟩ := readHeaderLoop_length crlf (headerMaxLen + responseBufferSize) body [] 0 [] 0
  exact ⟨le, lt (by decide)⟩

theorem skipBlank_enough (f g : Nat) {body : List UInt8} (hf : body.length ≤ f)
    (hg : body.length ≤ g) : skipBlank f body = skipBlank g body := by
  induction f generalizing g body with
  | zero =>
    obtain rfl : body = [] := List.length_eq_zero_iff.mp (Nat.le_zero.mp hf)
    cases g with
    | zero => rfl
    | succ g => simp [skipBlank, readHeaderLine_nil]
  | succ f ih =>
    cases body with
    | nil =>
      cases g with
      | zero => simp [skipBlank, readHeaderLine_nil]
      | succ g => simp [skipBlank, readHeaderLine_nil]
    | cons b body =>
      cases g with
      | zero => exact absurd hg (Nat.not_succ_le_zero _)
      | succ g =>
        have less := (readHeaderLine_length (b :: body)).2 (List.cons_ne_nil b body)
        simp only [List.length_cons] at hf hg less
        unfold skipBlank
        simp only
        split
        · exact ih g (by omega) (by omega)
        · rfl

theorem skipBlank_arrives {Arrives : S → List UInt8 → Prop} (delivery : Delivery Arrives)
    (fuel : Nat) {s : S} {body : List UInt8} (arrives : Arrives s body) :
    (skipBlank fuel s).1 = (skipBlank fuel body).1 ∧
      Arrives (skipBlank fuel s).2 (skipBlank fuel body).2 := by
  induction fuel generalizing s body with
  | zero => exact readHeaderLine_arrives delivery crlf arrives
  | succ fuel ih =>
    obtain ⟨same, next⟩ := readHeaderLine_arrives delivery crlf arrives
    unfold skipBlank
    simp only [same]
    by_cases blank : (readHeaderLine crlf body).1.complete = true ∧
        (readHeaderLine crlf body).1.len = 0
    · rw [if_pos blank, if_pos blank]
      exact ih next
    · rw [if_neg blank, if_neg blank]
      exact ⟨same, next⟩

theorem sizeLine_arrives {Arrives : S → List UInt8 → Prop} (delivery : Delivery Arrives) {s : S}
    {body : List UInt8} (arrives : Arrives s body) :
    (sizeLine s).1 = (sizeLine body).1 ∧ Arrives (sizeLine s).2 (sizeLine body).2 := by
  have enough : skipBlank (pending s) body = sizeLine body :=
    skipBlank_enough _ _ (delivery.bound arrives) (Nat.le_refl _)
  rw [← enough]
  exact skipBlank_arrives delivery _ arrives

theorem skipBlank_length (fuel : Nat) (body : List UInt8) :
    (skipBlank fuel body).2.length ≤ body.length ∧
      (body ≠ [] → (skipBlank fuel body).2.length < body.length) := by
  induction fuel generalizing body with
  | zero => exact readHeaderLine_length body
  | succ fuel ih =>
    obtain ⟨le, lt⟩ := readHeaderLine_length body
    unfold skipBlank
    simp only
    split
    · have next := (ih (readHeaderLine crlf body).2).1
      exact ⟨Nat.le_trans next le, fun more => Nat.lt_of_le_of_lt next (lt more)⟩
    · exact ⟨le, lt⟩

theorem sizeLine_length (body : List UInt8) :
    (sizeLine body).2.length ≤ body.length ∧
      (body ≠ [] → (sizeLine body).2.length < body.length) :=
  skipBlank_length _ body

theorem scanSize_nil_line : scanSize (sizeLine ([] : List UInt8)).1.line = none := rfl

end Lines

section Scan

theorem scanLoop_enough (f g room : Nat) (body : List UInt8) (hf : body.length - room < f)
    (hg : body.length - room < g) : scanLoop f room body = scanLoop g room body := by
  induction f generalizing g room body with
  | zero => exact absurd hf (Nat.not_lt_zero _)
  | succ f ih =>
    cases g with
    | zero => exact absurd hg (Nat.not_lt_zero _)
    | succ g =>
      unfold scanLoop
      split
      · rfl
      · simp only
        cases hs : scanSize (sizeLine (body.drop room)).1.line with
        | none => rfl
        | some size =>
          have more : body.drop room ≠ [] := by
            intro none
            rw [none, scanSize_nil_line] at hs
            cases hs
          have less := (sizeLine_length (body.drop room)).2 more
          rw [List.length_drop] at less
          simp only
          rw [ih g size (sizeLine (body.drop room)).2 (by omega) (by omega)]

theorem scan_cut {room : Nat} {body : List UInt8} (short : body.length < room) :
    scan room body = ⟨body, .cut, true⟩ := by
  rw [scan, scanLoop, if_pos short]

theorem scan_line {room : Nat} {body : List UInt8} (enough : ¬ body.length < room) :
    scan room body =
      match scanSize (sizeLine (body.drop room)).1.line with
      | none => ⟨body.take room, .refused, true⟩
      | some size =>
        if size = 0 then ⟨body.take room, .zero, decide (Exact (sizeLine (body.drop room)).1)⟩
        else if size > chunkMaxSize then ⟨body.take room, .refused, true⟩
        else
          let next := scan size (sizeLine (body.drop room)).2
          ⟨body.take room ++ next.data, next.ending,
            decide (Exact (sizeLine (body.drop room)).1) && next.exact⟩ := by
  rw [scan, scanLoop, if_neg enough]
  simp only
  cases hs : scanSize (sizeLine (body.drop room)).1.line with
  | none => rfl
  | some size =>
    have more : body.drop room ≠ [] := by
      intro none
      rw [none, scanSize_nil_line] at hs
      cases hs
    have less := (sizeLine_length (body.drop room)).2 more
    rw [List.length_drop] at less
    have same := scanLoop_enough body.length ((sizeLine (body.drop room)).2.length + 1) size
      (sizeLine (body.drop room)).2 (by omega) (by omega)
    simp only [scan, same]

theorem scan_received {room : Nat} {got : List UInt8} (fits : got.length ≤ room)
    (body : List UInt8) :
    scan room (got ++ body) =
      { scan (room - got.length) body with
        data := got ++ (scan (room - got.length) body).data } := by
  by_cases short : (got ++ body).length < room
  · have less : body.length < room - got.length := by
      rw [List.length_append] at short
      omega
    rw [scan_cut short, scan_cut less]
  · have enough : ¬ body.length < room - got.length := by
      rw [List.length_append] at short
      omega
    have front : (got ++ body).take room = got ++ body.take (room - got.length) := by
      rw [List.take_append, List.take_of_length_le fits]
    have back : (got ++ body).drop room = body.drop (room - got.length) := by
      rw [List.drop_append, List.drop_eq_nil_of_le fits, List.nil_append]
    rw [scan_line short, scan_line enough, front, back]
    cases scanSize (sizeLine (body.drop (room - got.length))).1.line with
    | none => rfl
    | some size =>
      simp only
      split
      · rfl
      · split
        · rfl
        · simp only [List.append_assoc]

end Scan

section Decoder

variable {Arrives : S → List UInt8 → Prop} {r : Response S D} {data : List UInt8}
  {ending : Ending} {n : Nat}

/-- The fields of a response that reading a chunk does not touch. -/
structure Same (r r' : Response S D) : Prop where
  contentChunked : r'.contentChunked = r.contentChunked
  contentEncoding : r'.contentEncoding = r.contentEncoding
  chunkNext : r'.chunkNext = r.chunkNext

/-- What is held and what still comes are `data`, up to the ending of the body. -/
def Serving (Arrives : S → List UInt8 → Prop) (r : Response S D) (data : List UInt8)
    (ending : Ending) : Prop :=
  ∃ body, Arrives r.socket body ∧ data = r.chunk ++ (scan r.room body).data ∧
    ending = (scan r.room body).ending

omit [NetSocket S] in
theorem copyChunk_serving (serving : Serving Arrives r data ending) (some_bytes : r.chunk ≠ [])
    (positive : 0 < n) :
    ∃ piece rest, data = piece ++ rest ∧ piece ≠ [] ∧
      (r.copyChunk n).1 = ((piece.length : Int), piece) ∧
      Serving Arrives (r.copyChunk n).2 rest ending := by
  obtain ⟨body, arrives, rfl, rfl⟩ := serving
  have taken : r.chunk.take (min n r.chunk.length) = r.chunk.take n := by
    rw [List.take_eq_take_iff]
    omega
  have dropped : r.chunk.drop (min n r.chunk.length) = r.chunk.drop n := by
    rw [List.drop_eq_drop_iff]
    omega
  have len := List.length_pos_iff.mpr some_bytes
  refine ⟨r.chunk.take n, r.chunk.drop n ++ (scan r.room body).data, ?_, ?_, ?_, ?_⟩
  · rw [← List.append_assoc, List.take_append_drop]
  · rw [← List.length_pos_iff, List.length_take]
    omega
  · simp only [Response.copyChunk, taken, List.length_take]
  · exact ⟨body, arrives, by rw [← dropped]; rfl, rfl⟩

theorem fillChunk_serving (delivery : Delivery Arrives) (serving : Serving Arrives r data ending)
    (more : r.chunk ≠ [] ∨ r.room ≠ 0) :
    (Serving Arrives r.fillChunk data ending ∧ r.fillChunk.chunk ≠ []) ∨
      (data = [] ∧ ending = .cut ∧ r.fillChunk.chunk = []) := by
  unfold Response.fillChunk
  by_cases empty : r.chunk = []
  · rw [if_pos empty]
    obtain ⟨body, arrives, rfl, rfl⟩ := serving
    have room : 0 < r.room := Nat.pos_of_ne_zero (more.resolve_left (fun h => h empty))
    obtain ⟨rest, whole, fits, ends, next⟩ := delivery.took arrives room
    generalize receiveData r.socket r.room = rcv at whole fits ends next ⊢
    rw [empty, List.nil_append]
    by_cases got : rcv.1 = []
    · obtain rfl := ends got
      rw [scan_cut room]
      exact .inr ⟨rfl, rfl, got⟩
    · refine .inl ⟨⟨rest, next, ?_, ?_⟩, got⟩
      · rw [whole, scan_received fits]
      · rw [whole, scan_received fits]
  · rw [if_neg empty]
    exact .inl ⟨serving, empty⟩

theorem nextChunk_serving (delivery : Delivery Arrives) (serving : Serving Arrives r data ending)
    (empty : r.chunk = [] ∧ r.room = 0) :
    match r.nextChunk with
    | (some code, _) => data = [] ∧ code = ending.code
    | (none, r') => Serving Arrives r' data ending ∧ r'.room ≠ 0 := by
  obtain ⟨body, arrives, rfl, rfl⟩ := serving
  obtain ⟨same, next⟩ := sizeLine_arrives delivery arrives
  have enough : ¬ body.length < 0 := Nat.not_lt_zero _
  rw [empty.1, empty.2, scan_line enough, List.nil_append, List.drop_zero, List.take_zero]
  unfold Response.nextChunk
  simp only [same]
  cases scanSize (sizeLine body).1.line with
  | none => exact ⟨rfl, rfl⟩
  | some size =>
    simp only
    by_cases zero : size = 0
    · rw [if_neg (by omega), if_pos zero]
      exact ⟨rfl, rfl⟩
    · rw [if_pos (Nat.pos_of_ne_zero zero), if_neg zero]
      by_cases overflow : size > chunkMaxSize
      · rw [if_pos overflow, if_pos overflow]
        exact ⟨rfl, rfl⟩
      · rw [if_neg overflow, if_neg overflow]
        exact ⟨⟨_, next, rfl, rfl⟩, zero⟩

theorem readChunk_same (r : Response S D) (n : Nat) : Same r (r.readChunk n).2 := by
  have fill : ∀ r : Response S D, Same r (r.fillChunk.copyChunk n).2 := by
    intro r
    unfold Response.fillChunk
    split <;> exact ⟨rfl, rfl, rfl⟩
  have header : Same r r.nextChunk.2 := by
    unfold Response.nextChunk
    simp only
    cases scanSize (sizeLine r.socket).1.line with
    | none => exact ⟨rfl, rfl, rfl⟩
    | some size =>
      simp only
      split
      · split <;> exact ⟨rfl, rfl, rfl⟩
      · exact ⟨rfl, rfl, rfl⟩
  unfold Response.readChunk
  split
  · split
    · cases h : r.nextChunk with
      | mk code next =>
        rw [h] at header
        cases code with
        | none =>
          have filled := fill next
          exact ⟨filled.1.trans header.1, filled.2.trans header.2, filled.3.trans header.3⟩
        | some code => exact header
    · exact fill r
  · exact ⟨rfl, rfl, rfl⟩

theorem fillCopy_serving (delivery : Delivery Arrives) (serving : Serving Arrives r data ending)
    (more : r.chunk ≠ [] ∨ r.room ≠ 0) (positive : 0 < n) :
    (∃ piece rest, data = piece ++ rest ∧ piece ≠ [] ∧
      (r.fillChunk.copyChunk n).1 = ((piece.length : Int), piece) ∧
      Serving Arrives (r.fillChunk.copyChunk n).2 rest ending) ∨
    (data = [] ∧ (r.fillChunk.copyChunk n).1 = (ending.code, [])) := by
  rcases fillChunk_serving delivery serving more with ⟨held, some_bytes⟩ | ⟨rfl, rfl, none⟩
  · exact .inl (copyChunk_serving held some_bytes positive)
  · refine .inr ⟨rfl, ?_⟩
    simp [Response.copyChunk, none, Ending.code]

theorem readChunk_serving (delivery : Delivery Arrives) (chunked : r.contentChunked = true)
    (serving : Serving Arrives r data ending) (positive : 0 < n) :
    (∃ piece rest, data = piece ++ rest ∧ piece ≠ [] ∧
      (r.readChunk n).1 = ((piece.length : Int), piece) ∧
      Serving Arrives (r.readChunk n).2 rest ending) ∨
    (data = [] ∧ (r.readChunk n).1 = (ending.code, [])) := by
  unfold Response.readChunk
  rw [if_pos chunked]
  by_cases empty : r.chunk = [] ∧ r.room = 0
  · rw [if_pos empty]
    have header := nextChunk_serving delivery serving empty
    cases h : r.nextChunk with
    | mk code next =>
      rw [h] at header
      cases code with
      | none => exact fillCopy_serving delivery header.1 (.inr header.2) positive
      | some code => exact .inr ⟨header.1, by rw [header.2]⟩
  · rw [if_neg empty]
    exact fillCopy_serving delivery serving (not_and_or.mp empty) positive

/-- ReadContent still has `data` to hand out, and will then return `code`. -/
structure Holds (Arrives : S → List UInt8 → Prop) (r : Response S D) (data : List UInt8)
    (code : Int) : Prop where
  chunked : r.contentChunked = true
  plain : r.contentEncoding = .none
  held : (r.chunkNext = true ∧ ∃ ending, Serving Arrives r data ending ∧ code = ending.code) ∨
    (r.chunkNext = false ∧ data = [] ∧ code = 0)

theorem readContent_chunked (dec : Decompressor D) (n : Nat) (chunked : r.contentChunked = true)
    (plain : r.contentEncoding = .none) : r.readContent dec n = r.chunkStreamReader n := by
  rw [Response.readContent, if_pos chunked, plain]

theorem chunkStreamReader_encoding (r : Response S D) (n : Nat) :
    (r.chunkStreamReader n).2.contentEncoding = r.contentEncoding := by
  have same := readChunk_same r n
  unfold Response.chunkStreamReader
  split
  · simp only
    split <;> exact same.contentEncoding
  · rfl

/-- The same of the chunk reader, whatever the coding of what it hands out. -/
structure Streams (Arrives : S → List UInt8 → Prop) (r : Response S D) (data : List UInt8)
    (code : Int) : Prop where
  chunked : r.contentChunked = true
  held : (r.chunkNext = true ∧ ∃ ending, Serving Arrives r data ending ∧ code = ending.code) ∨
    (r.chunkNext = false ∧ data = [] ∧ code = 0)

theorem Streams.piece {code : Int} (delivery : Delivery Arrives)
    (streams : Streams Arrives r data code) (more : data ≠ []) (positive : 0 < n) :
    ∃ piece rest, data = piece ++ rest ∧ piece ≠ [] ∧
      (r.chunkStreamReader n).1 = ((piece.length : Int), piece) ∧
      Streams Arrives (r.chunkStreamReader n).2 rest code := by
  obtain ⟨chunked, ⟨next, ending, serving, rfl⟩ | ⟨-, empty, -⟩⟩ := streams
  · have same := readChunk_same r n
    rcases readChunk_serving delivery chunked serving positive with
      ⟨piece, rest, rfl, some_bytes, answer, kept⟩ | ⟨empty, -⟩
    · have going : ¬ (r.readChunk n).1.1 ≤ 0 := by
        have len := List.length_pos_iff.mpr some_bytes
        rw [answer]
        simp only
        omega
      refine ⟨piece, rest, rfl, some_bytes, ?_, ?_⟩
      · rw [Response.chunkStreamReader, if_pos next]
        simp only [if_neg going]
        exact answer
      · rw [Response.chunkStreamReader, if_pos next]
        simp only [if_neg going]
        exact ⟨same.contentChunked.trans chunked,
          .inl ⟨same.chunkNext.trans next, ending, kept, rfl⟩⟩
    · exact absurd empty more
  · exact absurd empty more

theorem Streams.last {code : Int} (delivery : Delivery Arrives)
    (streams : Streams Arrives r [] code) (positive : 0 < n) :
    (r.chunkStreamReader n).1 = (code, []) ∧ Streams Arrives (r.chunkStreamReader n).2 [] 0 := by
  obtain ⟨chunked, ⟨next, ending, serving, rfl⟩ | ⟨next, -, rfl⟩⟩ := streams
  · have same := readChunk_same r n
    rcases readChunk_serving delivery chunked serving positive with
      ⟨piece, rest, whole, some_bytes, -, -⟩ | ⟨-, answer⟩
    · exact absurd (List.append_eq_nil_iff.mp whole.symm).1 some_bytes
    · have stops : (r.readChunk n).1.1 ≤ 0 := by
        rw [answer]
        cases ending <;> decide
      rw [Response.chunkStreamReader, if_pos next]
      simp only [if_pos stops]
      exact ⟨answer, same.contentChunked.trans chunked, .inr ⟨rfl, rfl, rfl⟩⟩
  · have stopped : ¬ r.chunkNext = true := by simp [next]
    rw [Response.chunkStreamReader, if_neg stopped]
    exact ⟨rfl, chunked, .inr ⟨next, rfl, rfl⟩⟩

theorem Holds.piece {code : Int} (delivery : Delivery Arrives) (holds : Holds Arrives r data code)
    (more : data ≠ []) (positive : 0 < n) :
    ∃ piece rest, data = piece ++ rest ∧ piece ≠ [] ∧
      (r.chunkStreamReader n).1 = ((piece.length : Int), piece) ∧
      Holds Arrives (r.chunkStreamReader n).2 rest code := by
  have streams : Streams Arrives r data code := ⟨holds.chunked, holds.held⟩
  obtain ⟨piece, rest, whole, some_bytes, answer, next⟩ := streams.piece delivery more positive
  exact ⟨piece, rest, whole, some_bytes, answer, next.chunked,
    (chunkStreamReader_encoding r n).trans holds.plain, next.held⟩

theorem Holds.last {code : Int} (delivery : Delivery Arrives) (holds : Holds Arrives r [] code)
    (positive : 0 < n) :
    (r.chunkStreamReader n).1 = (code, []) ∧ Holds Arrives (r.chunkStreamReader n).2 [] 0 := by
  have streams : Streams Arrives r [] code := ⟨holds.chunked, holds.held⟩
  obtain ⟨answer, next⟩ := streams.last delivery positive
  exact ⟨answer, next.chunked, (chunkStreamReader_encoding r n).trans holds.plain, next.held⟩

/-- Each call hands out some of the data. The call after the last byte returns the code of the
ending, and the calls after it zero. -/
theorem content_drains (delivery : Delivery Arrives) (dec : Decompressor D) {s : S}
    {body : List UInt8} (arrives : Arrives s body) (lens : Nat → Nat)
    (positive : ∀ i, 0 < lens i) :
    Drains ((content S dec).answerAt (chunkedResponse D s) lens) (scan 0 body).data
      (scan 0 body).ending.code := by
  have start : Holds Arrives (chunkedResponse D s) (scan 0 body).data
      (scan 0 body).ending.code :=
    ⟨rfl, rfl, .inl ⟨rfl, _, ⟨body, arrives, rfl, rfl⟩, rfl⟩⟩
  apply (content S dec).drains (Holds Arrives) (fun n => 0 < n) ?_ ?_ start positive
  · intro r data code n holds more asked
    change ∃ piece rest, _ ∧ _ ∧ (r.readContent dec n).1 = _ ∧ Holds _ (r.readContent dec n).2 _ _
    rw [readContent_chunked dec n holds.chunked holds.plain]
    exact holds.piece delivery more asked
  · intro r code n holds asked
    change (r.readContent dec n).1 = _ ∧ Holds _ (r.readContent dec n).2 _ _
    rw [readContent_chunked dec n holds.chunked holds.plain]
    exact holds.last delivery asked

end Decoder

section Body

def Plain (line : List UInt8) : Prop := 0 ∉ line ∧ 13 ∉ line ∧ 10 ∉ line

instance (line : List UInt8) : Decidable (Plain line) := inferInstanceAs (Decidable (_ ∧ _))

structure SizeText where
  digits : List UInt8
  extension : List UInt8
  some_digits : digits ≠ []
  hex : ∀ c ∈ digits, isxdigit c = true
  separated : ∀ c, extension.head? = some c → isxdigit c = false
  plain : Plain extension
  short : (digits ++ extension).length < headerMaxLen

def SizeText.line (t : SizeText) : List UInt8 := t.digits ++ t.extension

structure Chunk where
  size : SizeText
  data : List UInt8
  some_data : data ≠ []
  fits : data.length ≤ chunkMaxSize
  sized : hexValue size.digits = data.length

def Chunk.bytes (c : Chunk) : List UInt8 := c.size.line ++ crlf ++ c.data ++ crlf

structure Trailer where
  line : List UInt8
  some_text : line ≠ []
  plain : Plain line
  short : line.length < headerMaxLen

structure ChunkedBody where
  chunks : List Chunk
  last : SizeText
  zero : hexValue last.digits = 0
  trailers : List Trailer

def ChunkedBody.data (b : ChunkedBody) : List UInt8 := b.chunks.flatMap Chunk.data

def ChunkedBody.bytes (b : ChunkedBody) : List UInt8 :=
  b.chunks.flatMap Chunk.bytes ++ b.last.line ++ crlf ++
    (b.trailers.flatMap fun t => t.line ++ crlf) ++ crlf

theorem scanSize_eq {line : List UInt8} (some_text : line ≠ []) :
    scanSize line = some (hexValue (line.takeWhile isxdigit) % 2 ^ 32) := by
  have digits : (line.takeWhile (· ≠ 59)).takeWhile isxdigit = line.takeWhile isxdigit := by
    rw [List.takeWhile_takeWhile]
    congr 1
    funext c
    by_cases hc : c = 59
    · subst hc
      decide
    · simp [hc]
  rw [scanSize, if_neg some_text, scanHex]
  have front : (ascii "0x0" ++ line.takeWhile (· ≠ 59)).take 2 = ascii "0x" := rfl
  have back : (ascii "0x0" ++ line.takeWhile (· ≠ 59)).drop 2 =
      48 :: line.takeWhile (· ≠ 59) := rfl
  have zero : isxdigit 48 = true := by decide
  simp only [if_pos front, back, List.takeWhile_cons_of_pos zero, digits]
  rfl

theorem isxdigit_plain {c : UInt8} (hex : isxdigit c = true) : c ≠ 0 ∧ c ≠ 13 ∧ c ≠ 10 := by
  refine ⟨?_, ?_, ?_⟩ <;> rintro rfl <;> simp [isxdigit] at hex

theorem SizeText.takeWhile (t : SizeText) : t.line.takeWhile isxdigit = t.digits := by
  rw [line, List.takeWhile_append_of_pos t.hex]
  have separated := t.separated
  cases h : t.extension with
  | nil => simp
  | cons c rest =>
    rw [h] at separated
    simp [separated c rfl]

theorem SizeText.line_ne_nil (t : SizeText) : t.line ≠ [] := by
  simp [line, t.some_digits]

theorem SizeText.line_plain (t : SizeText) : Plain t.line := by
  have digits : ∀ c, c ∈ t.line → c ∈ t.extension ∨ c ≠ 0 ∧ c ≠ 13 ∧ c ≠ 10 := by
    intro c mem
    rcases List.mem_append.mp mem with h | h
    · exact .inr (isxdigit_plain (t.hex c h))
    · exact .inl h
  refine ⟨?_, ?_, ?_⟩
  · intro mem
    exact (digits 0 mem).elim t.plain.1 fun h => h.1 rfl
  · intro mem
    exact (digits 13 mem).elim t.plain.2.1 fun h => h.2.1 rfl
  · intro mem
    exact (digits 10 mem).elim t.plain.2.2 fun h => h.2.2 rfl

theorem sizeLine_text {text : List UInt8} (some_text : text ≠ []) (plain : Plain text)
    (short : text.length < headerMaxLen) (rest : List UInt8) :
    sizeLine (text ++ crlf ++ rest) = (⟨true, text, text.length⟩, rest) := by
  have len : text.length ≠ 0 := by simp [some_text]
  have one : 0 < (text ++ crlf ++ rest).length := by simp [crlf]
  obtain ⟨fuel, hfuel⟩ := Nat.exists_eq_succ_of_ne_zero (Nat.ne_of_gt one)
  change skipBlank (text ++ crlf ++ rest).length _ = _
  rw [hfuel, skipBlank, readHeaderLine_text plain.1 plain.2.1 short rest]
  simp only [len, and_false, if_false]

theorem sizeLine_blank (rest : List UInt8) : sizeLine (crlf ++ rest) = sizeLine rest := by
  have blank : readHeaderLine crlf ([] ++ crlf ++ rest) = (⟨true, [], 0⟩, rest) :=
    readHeaderLine_text (by simp) (by simp) (by decide) rest
  change skipBlank (rest.length + 1 + 1) _ = _
  rw [List.nil_append] at blank
  rw [skipBlank, blank]
  exact skipBlank_enough _ _ (Nat.le_succ _) (Nat.le_refl _)

theorem scan_blank (rest : List UInt8) : scan 0 (crlf ++ rest) = scan 0 rest := by
  rw [scan_line (Nat.not_lt_zero _), scan_line (Nat.not_lt_zero _), List.drop_zero,
    List.drop_zero, sizeLine_blank]
  rfl

theorem scan_size (c : Chunk) (rest : List UInt8) :
    (scan 0 (c.size.line ++ crlf ++ rest)).data = (scan c.data.length rest).data ∧
      (scan 0 (c.size.line ++ crlf ++ rest)).ending = (scan c.data.length rest).ending := by
  have line := sizeLine_text c.size.line_ne_nil c.size.line_plain c.size.short rest
  have positive := List.length_pos_iff.mpr c.some_data
  have small : c.data.length < 2 ^ 32 := Nat.lt_of_le_of_lt c.fits (by decide)
  have size : scanSize c.size.line = some c.data.length := by
    rw [scanSize_eq c.size.line_ne_nil, c.size.takeWhile, c.sized, Nat.mod_eq_of_lt small]
  rw [scan_line (Nat.not_lt_zero _), List.drop_zero, line]
  simp only [size, if_neg (Nat.ne_of_gt positive), if_neg (Nat.not_lt.mpr c.fits)]
  exact ⟨rfl, trivial⟩

theorem scan_chunk_data (c : Chunk) (rest : List UInt8) :
    (scan 0 (c.size.line ++ crlf ++ (c.data ++ rest))).data = c.data ++ (scan 0 rest).data ∧
      (scan 0 (c.size.line ++ crlf ++ (c.data ++ rest))).ending = (scan 0 rest).ending := by
  obtain ⟨data, ending⟩ := scan_size c (c.data ++ rest)
  have next := scan_received (Nat.le_refl c.data.length) rest
  rw [Nat.sub_self] at next
  rw [data, ending, next]
  exact ⟨rfl, rfl⟩

theorem scan_chunk (c : Chunk) (rest : List UInt8) :
    (scan 0 (c.bytes ++ rest)).data = c.data ++ (scan 0 rest).data ∧
      (scan 0 (c.bytes ++ rest)).ending = (scan 0 rest).ending := by
  have whole : c.bytes ++ rest = c.size.line ++ crlf ++ (c.data ++ (crlf ++ rest)) := by
    simp [Chunk.bytes]
  have next := scan_chunk_data c (crlf ++ rest)
  rw [scan_blank] at next
  rw [whole]
  exact next

theorem scan_last {t : SizeText} (zero : hexValue t.digits = 0) (rest : List UInt8) :
    (scan 0 (t.line ++ crlf ++ rest)).data = [] ∧
      (scan 0 (t.line ++ crlf ++ rest)).ending = .zero := by
  have size : scanSize t.line = some 0 := by
    rw [scanSize_eq t.line_ne_nil, t.takeWhile, zero, Nat.zero_mod]
  rw [scan_line (Nat.not_lt_zero _), List.drop_zero,
    sizeLine_text t.line_ne_nil t.line_plain t.short rest]
  simp only [size, if_pos]
  exact ⟨rfl, trivial⟩

theorem scan_chunks (chunks : List Chunk) (rest : List UInt8) :
    (scan 0 (chunks.flatMap Chunk.bytes ++ rest)).data =
        chunks.flatMap Chunk.data ++ (scan 0 rest).data ∧
      (scan 0 (chunks.flatMap Chunk.bytes ++ rest)).ending = (scan 0 rest).ending := by
  induction chunks with
  | nil => exact ⟨rfl, rfl⟩
  | cons c chunks ih =>
    obtain ⟨data, ending⟩ := scan_chunk c (chunks.flatMap Chunk.bytes ++ rest)
    simp only [List.flatMap_cons, List.append_assoc] at data ending ih ⊢
    rw [data, ending, ih.1, ih.2]
    exact ⟨rfl, rfl⟩

theorem scan_bytes (body : ChunkedBody) (rest : List UInt8) :
    (scan 0 (body.bytes ++ rest)).data = body.data ∧
      (scan 0 (body.bytes ++ rest)).ending = .zero := by
  have whole : body.bytes ++ rest = body.chunks.flatMap Chunk.bytes ++ (body.last.line ++ crlf ++
      ((body.trailers.flatMap fun t => t.line ++ crlf) ++ crlf ++ rest)) := by
    simp only [ChunkedBody.bytes, List.append_assoc]
  obtain ⟨data, ending⟩ := scan_chunks body.chunks (body.last.line ++ crlf ++
    ((body.trailers.flatMap fun t => t.line ++ crlf) ++ crlf ++ rest))
  obtain ⟨none, zero⟩ := scan_last body.zero
    ((body.trailers.flatMap fun t => t.line ++ crlf) ++ crlf ++ rest)
  rw [whole, data, ending, none, zero, List.append_nil]
  exact ⟨rfl, rfl⟩

/-- Three segmentations of the same bytes: by chunks, by deliveries and by buffers. -/
theorem chunked_content_delivered {Arrives : S → List UInt8 → Prop} (delivery : Delivery Arrives)
    (dec : Decompressor D) (body : ChunkedBody) (rest : List UInt8) {s : S}
    (arrives : Arrives s (body.bytes ++ rest)) {lens : Nat → Nat} (positive : ∀ i, 0 < lens i) :
    Drains ((content S dec).answerAt (chunkedResponse D s) lens) body.data 0 := by
  have drains := content_drains delivery dec arrives lens positive
  obtain ⟨data, ending⟩ := scan_bytes body rest
  rw [data, ending] at drains
  exact drains

def shortBody : ChunkedBody where
  chunks := [⟨⟨ascii "02", ascii ";q=1", by decide, by simp [ascii, isxdigit],
    by simp [ascii, isxdigit], by decide, by decide⟩, ascii "ok", by decide, by decide, by decide⟩]
  last := ⟨ascii "0", [], by decide, by simp [ascii, isxdigit], by simp, by decide, by decide⟩
  zero := by decide
  trailers := [⟨ascii "T: 1", by decide, by decide, by decide⟩]

def storedDecompressor : Decompressor (Coder (PrefixCode.Held UInt8)) :=
  .ofCoder (storedCode.decoder bufError bufError_negative).toCodec (fun _ => ⟨[], []⟩) 0x10000

theorem chunked_content_delivered_short :
    let s := TcpSocket.connected (ascii "02;q=1\r\nok\r\n0\r\nT: 1\r\n\r\n") (fun _ => .ready 2)
      fun _ => true
    Drains ((content TcpSocket storedDecompressor).answerAt (chunkedResponse _ s) fun _ => 1)
      (ascii "ok") 0 :=
  chunked_content_delivered ready_delivery storedDecompressor shortBody []
    ⟨rfl, fun _ => ⟨2, rfl⟩, by decide⟩ fun _ => Nat.one_pos

end Body

end CppMyth.WSResponse
