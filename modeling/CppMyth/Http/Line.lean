import CppMyth.Proto.Fields
import CppMyth.Socket.Stream

/-! The connections that `wsresponse.cpp` reads from, and its line reader. A connection gives
what the network has ready, so a read may be shorter than it was asked for. -/
namespace CppMyth
open Library
open ProtoBase (cstr cstr_of_not_mem)

/-- `pending` bounds what can still come. The loops that skip lines recurse on it. -/
class NetSocket (S : Type) where
  sendData : S → List UInt8 → Bool × S
  receiveData : S → Nat → List UInt8 × S
  pending : S → Nat

namespace NetSocket

instance : NetSocket TcpSocket where
  sendData := TcpSocket.sendData
  receiveData := TcpSocket.receiveData
  pending s := s.pending.length

/-- Bytes that are all there already. -/
instance : NetSocket (List UInt8) where
  sendData text _ := (false, text)
  receiveData text n := (text.take n, text.drop n)
  pending text := text.length

/-- The peer's bytes come in order, at least one for each read until the end of the stream.
`Arrives s bytes` says that `bytes` are what the peer still sends to `s`. -/
structure Delivery {S : Type} [NetSocket S] (Arrives : S → List UInt8 → Prop) : Prop where
  took : ∀ {s bytes n}, Arrives s bytes → 0 < n →
    ∃ rest, bytes = (receiveData s n).1 ++ rest ∧ (receiveData s n).1.length ≤ n ∧
      ((receiveData s n).1 = [] → bytes = []) ∧ Arrives (receiveData s n).2 rest
  bound : ∀ {s bytes}, Arrives s bytes → bytes.length ≤ pending s

/-- A TCP connection whose polls all report input. -/
def Ready (s : TcpSocket) (bytes : List UInt8) : Prop :=
  s.valid = true ∧ (∀ i, ∃ k, s.polls i = .ready k) ∧ s.pending = bytes

theorem ready_delivery : Delivery Ready where
  took := by
    rintro s bytes n ⟨valid, polls, rfl⟩ positive
    obtain ⟨short, whole, hv, -⟩ := s.receiveData_spec n
    have answers : ∀ i, s.polls i ≠ .nothing := by
      intro i
      obtain ⟨k, hk⟩ := polls i
      simp [hk]
    have ready := TcpSocket.receiveData_polls (P := fun p => ∃ k, p = .ready k) s n polls
    refine ⟨_, whole, short, ?_, hv.trans valid, ready, rfl⟩
    intro none
    change (s.receiveData n).1 = [] at none
    have less : (s.receiveData n).1.length < n := by
      rw [none]
      exact positive
    rw [none, List.nil_append] at whole
    cases TcpSocket.receiveData_short valid answers less with
    | timedOut i poll => simpa [poll] using polls i
    | failed i code poll => rcases poll with poll | poll <;> simpa [poll] using polls i
    | hungUp i poll => simpa [poll] using polls i
    | ended i k poll all => exact whole.trans all
  bound := by
    rintro s bytes ⟨-, -, rfl⟩
    exact Nat.le_refl _

theorem Delivery.one {S : Type} [NetSocket S] {Arrives : S → List UInt8 → Prop}
    (delivery : Delivery Arrives) {s : S} {bytes : List UInt8} (arrives : Arrives s bytes) :
    (receiveData s 1).1 = bytes.take 1 ∧ Arrives (receiveData s 1).2 (bytes.drop 1) := by
  obtain ⟨rest, whole, short, ends, next⟩ := delivery.took arrives Nat.one_pos
  generalize receiveData s 1 = r at whole short ends next ⊢
  cases h : r.1 with
  | nil =>
    obtain rfl := ends h
    obtain rfl : rest = [] := by simpa [h] using whole.symm
    exact ⟨rfl, next⟩
  | cons b more =>
    rw [h] at whole short
    obtain rfl : more = [] := by simpa using short
    exact ⟨by rw [whole]; rfl, by simpa [whole] using next⟩

end NetSocket

namespace WSResponse
open NetSocket

/-- `WS_CRLF` -/
def crlf : List UInt8 := [13, 10]
/-- `HTTP_HEADER_MAXLEN` -/
def headerMaxLen : Nat := 0x4000
/-- `RESPONSE_BUFFER_SIZE` -/
def responseBufferSize : Nat := 0x400

/-- `complete` is what ReadHeaderLine returns. -/
structure HeaderLine where
  complete : Bool
  line : List UInt8
  len : Nat
  deriving DecidableEq, Repr

variable {S : Type} [NetSocket S]

/-- The loop of ReadHeaderLine: `buf` holds the first `p` bytes of the buffer, `pEol` the bytes
of the end of line matched at its end. A turn takes a byte, which bounds their number. -/
def readHeaderLoop (eol : List UInt8) :
    Nat → S → List UInt8 → Nat → List UInt8 → Nat → HeaderLine × S
  | 0, s, _, _, line, l => (⟨true, line, l⟩, s)
  | fuel + 1, s, buf, pEol, line, l =>
    let rcv := receiveData s 1
    match rcv.1 with
    -- No EOL found until end of data
    | [] => (⟨false, line, l⟩, rcv.2)
    | b :: _ =>
      let buf := buf ++ [b]
      if eol[pEol]? = some b then
        if pEol + 1 ≥ eol.length then
          (⟨true, line ++ cstr (buf.take (buf.length - eol.length)),
            l + (buf.length - eol.length)⟩, rcv.2)
        else readHeaderLoop eol fuel rcv.2 buf (pEol + 1) line l
      else if buf.length > responseBufferSize - 2 - eol.length then
        if l + buf.length < headerMaxLen then
          readHeaderLoop eol fuel rcv.2 [] 0 (line ++ cstr buf) (l + buf.length)
        else (⟨true, line ++ cstr buf, l + buf.length⟩, rcv.2)
      else readHeaderLoop eol fuel rcv.2 buf 0 line l

def readHeaderLine (eol : List UInt8) (s : S) : HeaderLine × S :=
  readHeaderLoop eol (headerMaxLen + responseBufferSize) s [] 0 [] 0

theorem readHeaderLoop_arrives {Arrives : S → List UInt8 → Prop} (delivery : Delivery Arrives)
    (eol : List UInt8) (fuel : Nat) (s : S) (bytes buf : List UInt8) (pEol : Nat)
    (line : List UInt8) (l : Nat) (arrives : Arrives s bytes) :
    (readHeaderLoop eol fuel s buf pEol line l).1 =
        (readHeaderLoop eol fuel bytes buf pEol line l).1 ∧
      Arrives (readHeaderLoop eol fuel s buf pEol line l).2
        (readHeaderLoop eol fuel bytes buf pEol line l).2 := by
  induction fuel generalizing s bytes buf pEol line l with
  | zero => exact ⟨rfl, arrives⟩
  | succ fuel ih =>
    obtain ⟨one, next⟩ := delivery.one arrives
    unfold readHeaderLoop
    simp only [one]
    cases bytes with
    | nil => exact ⟨rfl, next⟩
    | cons b bytes =>
      simp only [receiveData, List.take_succ_cons, List.take_zero, List.drop_succ_cons,
        List.drop_zero] at next ⊢
      split
      · split
        · exact ⟨rfl, next⟩
        · exact ih _ _ _ _ _ _ next
      · split
        · split
          · exact ih _ _ _ _ _ _ next
          · exact ⟨rfl, next⟩
        · exact ih _ _ _ _ _ _ next

theorem readHeaderLine_arrives {Arrives : S → List UInt8 → Prop} (delivery : Delivery Arrives)
    (eol : List UInt8) {s : S} {bytes : List UInt8} (arrives : Arrives s bytes) :
    (readHeaderLine eol s).1 = (readHeaderLine eol bytes).1 ∧
      Arrives (readHeaderLine eol s).2 (readHeaderLine eol bytes).2 :=
  readHeaderLoop_arrives delivery eol _ s bytes [] 0 [] 0 arrives

theorem readHeaderLoop_length (eol : List UInt8) (fuel : Nat) (bytes buf : List UInt8)
    (pEol : Nat) (line : List UInt8) (l : Nat) :
    (readHeaderLoop eol fuel bytes buf pEol line l).2.length ≤ bytes.length ∧
      (fuel ≠ 0 → bytes ≠ [] →
        (readHeaderLoop eol fuel bytes buf pEol line l).2.length < bytes.length) := by
  induction fuel generalizing bytes buf pEol line l with
  | zero => exact ⟨Nat.le_refl _, fun h => absurd rfl h⟩
  | succ fuel ih =>
    cases bytes with
    | nil => exact ⟨Nat.le_refl _, fun _ h => absurd rfl h⟩
    | cons b bytes =>
      have less : (readHeaderLoop eol (fuel + 1) (b :: bytes) buf pEol line l).2.length ≤
          bytes.length := by
        simp only [readHeaderLoop, receiveData, List.take_succ_cons, List.take_zero,
          List.drop_succ_cons, List.drop_zero]
        split
        · split
          · exact Nat.le_refl _
          · exact (ih _ _ _ _ _).1
        · split
          · split
            · exact (ih _ _ _ _ _).1
            · exact Nat.le_refl _
          · exact (ih _ _ _ _ _).1
      exact ⟨Nat.le_succ_of_le less, fun _ _ => Nat.lt_succ_of_le less⟩

/-- How the reader ends on `bytes`, behind the bytes `front` of the line and `k` of the end of
line: with what the matcher cuts, at the end of the data, or past the limit of a line. -/
def Outcome (k : Nat) (front bytes : List UInt8) (r : HeaderLine × List UInt8) : Prop :=
  (∃ more text, cut crlf k bytes = some (more, r.2) ∧ text ++ crlf = front ++ more ∧
    (0 ∉ text → r.1 = ⟨true, text, text.length⟩)) ∨
  (cut crlf k bytes = none ∧ r.1.complete = false) ∨
  (headerMaxLen < r.1.len ∧ ∀ more back, cut crlf k bytes = some (more, back) →
    r.1.len + crlf.length ≤ (front ++ more).length)

theorem Outcome.cons {k : Nat} {b : UInt8} {front bytes : List UInt8}
    {r : HeaderLine × List UInt8} (goes_on : advance crlf k b ≠ crlf.length)
    (next : Outcome (advance crlf k b) (front ++ [b]) bytes r) :
    Outcome k front (b :: bytes) r := by
  have step : cut crlf k (b :: bytes) =
      (cut crlf (advance crlf k b) bytes).map fun r => (b :: r.1, r.2) := by
    rw [cut, if_neg goes_on]
  rcases next with ⟨more, text, cutting, whole, read⟩ | ⟨none, ended⟩ | ⟨long, within⟩
  · refine .inl ⟨b :: more, text, ?_, ?_, read⟩
    · rw [step, cutting]
      rfl
    · rw [whole, List.append_assoc]
      rfl
  · refine .inr (.inl ⟨?_, ended⟩)
    rw [step, none]
    rfl
  · refine .inr (.inr ⟨long, ?_⟩)
    intro more back cutting
    rw [step] at cutting
    obtain ⟨⟨more', back'⟩, cutting', same⟩ := Option.map_eq_some_iff.mp cutting
    cases same
    have bound := within more' _ cutting'
    rw [List.append_assoc] at bound
    exact bound

/-- The buffer is flushed at 1021 or 1022 bytes, so the length of a line never is the limit. -/
def Flushed (l : Nat) : Prop := l < headerMaxLen ∧ ∃ k, 1021 * k ≤ l ∧ l ≤ 1022 * k

/-- The loop with `fuel` turns left; `past` are the bytes that were flushed to `line`. -/
structure Reading (fuel : Nat) (buf line past : List UInt8) (pEol : Nat) : Prop where
  short : pEol < crlf.length
  matched : crlf.take pEol <:+ buf
  room : buf.length ≤ 1020 + pEol
  flushed : Flushed past.length
  turns : past.length + buf.length + fuel = headerMaxLen + responseBufferSize
  same : 0 ∉ past → line = past

namespace Reading

variable {fuel pEol : Nat} {b : UInt8} {buf line past bytes : List UInt8}

theorem grown (h : Reading fuel buf line past pEol) (hit : crlf[pEol]? = some b) :
    crlf.take (pEol + 1) <:+ buf ++ [b] := by
  obtain ⟨x, hx⟩ := h.matched
  rw [take_succ_of_getElem? hit]
  exact ⟨x, by rw [← List.append_assoc, hx]⟩

theorem hit (h : Reading (fuel + 1) buf line past pEol) (hit : crlf[pEol]? = some b)
    (more : pEol + 1 < crlf.length) : Reading fuel (buf ++ [b]) line past (pEol + 1) := by
  have room := h.room
  have turns := h.turns
  refine ⟨more, h.grown hit, ?_, h.flushed, ?_, h.same⟩
  · rw [List.length_append, List.length_singleton]
    omega
  · rw [List.length_append, List.length_singleton]
    omega

theorem miss (h : Reading (fuel + 1) buf line past pEol)
    (room : (buf ++ [b]).length ≤ responseBufferSize - 2 - crlf.length) :
    Reading fuel (buf ++ [b]) line past 0 := by
  have turns := h.turns
  refine ⟨by decide, by simp, ?_, h.flushed, ?_, h.same⟩
  · exact room
  · rw [List.length_append, List.length_singleton]
    omega

theorem sizes (h : Reading (fuel + 1) buf line past pEol)
    (full : (buf ++ [b]).length > responseBufferSize - 2 - crlf.length) :
    ∃ k, 1021 * k ≤ past.length + (buf ++ [b]).length ∧
      past.length + (buf ++ [b]).length ≤ 1022 * k := by
  have two : crlf.length = 2 := rfl
  have whole_buffer : responseBufferSize = 1024 := rfl
  have size : (buf ++ [b]).length = buf.length + 1 := List.length_append
  have short := h.short
  have room := h.room
  obtain ⟨-, k, lower, upper⟩ := h.flushed
  exact ⟨k + 1, by omega, by omega⟩

theorem flush (h : Reading (fuel + 1) buf line past pEol)
    (full : (buf ++ [b]).length > responseBufferSize - 2 - crlf.length)
    (below : past.length + (buf ++ [b]).length < headerMaxLen) :
    Reading fuel [] (line ++ cstr (buf ++ [b])) (past ++ (buf ++ [b])) 0 := by
  have turns := h.turns
  have sizes := h.sizes full
  have flushed : (past ++ (buf ++ [b])).length = past.length + (buf ++ [b]).length :=
    List.length_append
  rw [← flushed] at sizes below
  refine ⟨by decide, by simp, Nat.zero_le _, ⟨below, sizes⟩, ?_, ?_⟩
  · rw [flushed, List.length_append, List.length_singleton, List.length_nil]
    omega
  · intro clean
    rw [List.mem_append, not_or] at clean
    rw [h.same clean.1, cstr_of_not_mem clean.2]

theorem ended (h : Reading fuel buf line past pEol) (hit : crlf[pEol]? = some b)
    (full : pEol + 1 = crlf.length) :
    Outcome pEol (past ++ buf) (b :: bytes)
      (⟨true, line ++ cstr ((buf ++ [b]).take ((buf ++ [b]).length - crlf.length)),
        past.length + ((buf ++ [b]).length - crlf.length)⟩, bytes) := by
  have stepped : advance crlf pEol b = pEol + 1 := if_pos hit
  have grown := h.grown hit
  rw [full, List.take_length] at grown
  obtain ⟨x, hx⟩ := grown
  have size : (buf ++ [b]).length - crlf.length = x.length := by
    rw [← hx, List.length_append, Nat.add_sub_cancel]
  rw [size, ← hx, List.take_left]
  refine .inl ⟨[b], past ++ x, ?_, ?_, ?_⟩
  · rw [cut, stepped, if_pos full]
  · rw [List.append_assoc, hx, List.append_assoc]
  · intro clean
    rw [List.mem_append, not_or] at clean
    rw [h.same clean.1, cstr_of_not_mem clean.2, List.length_append]

theorem overlong (h : Reading (fuel + 1) buf line past pEol) (missed : ¬ crlf[pEol]? = some b)
    (full : (buf ++ [b]).length > responseBufferSize - 2 - crlf.length)
    (reached : ¬ past.length + (buf ++ [b]).length < headerMaxLen) :
    Outcome pEol (past ++ buf) (b :: bytes)
      (⟨true, line ++ cstr (buf ++ [b]), past.length + (buf ++ [b]).length⟩, bytes) := by
  have limit : headerMaxLen = 16384 := rfl
  have stepped : advance crlf pEol b = 0 := if_neg missed
  obtain ⟨k, lower, upper⟩ := h.sizes full
  have long : headerMaxLen < past.length + (buf ++ [b]).length := by omega
  refine .inr (.inr ⟨long, ?_⟩)
  intro rest back cutting
  rw [cut, stepped, if_neg (by decide)] at cutting
  obtain ⟨⟨rest', back'⟩, cutting', eq⟩ := Option.map_eq_some_iff.mp cutting
  cases eq
  have ahead := cut_length (by decide) cutting'
  simp only [List.length_append, List.length_cons, List.length_nil] at ahead ⊢
  omega

end Reading

theorem readHeaderLoop_outcome {fuel : Nat} {bytes buf line past : List UInt8} {pEol : Nat}
    (h : Reading fuel buf line past pEol) :
    Outcome pEol (past ++ buf) bytes
      (readHeaderLoop crlf fuel bytes buf pEol line past.length) := by
  have two : crlf.length = 2 := rfl
  induction fuel generalizing bytes buf line past pEol with
  | zero =>
    obtain ⟨short, -, room, ⟨below, -⟩, turns, -⟩ := h
    have limit : headerMaxLen = 16384 := rfl
    have whole_buffer : responseBufferSize = 1024 := rfl
    omega
  | succ fuel ih =>
    cases bytes with
    | nil => exact .inr (.inl ⟨rfl, rfl⟩)
    | cons b bytes =>
      have short := h.short
      simp only [readHeaderLoop, receiveData, List.take_succ_cons, List.take_zero,
        List.drop_succ_cons, List.drop_zero]
      by_cases hit : crlf[pEol]? = some b
      · have stepped : advance crlf pEol b = pEol + 1 := if_pos hit
        rw [if_pos hit]
        by_cases full : pEol + 1 = crlf.length
        · rw [if_pos (Nat.le_of_eq full.symm)]
          exact h.ended hit full
        · rw [if_neg (by omega)]
          apply Outcome.cons (by omega)
          rw [stepped, List.append_assoc]
          exact ih (h.hit hit (by omega))
      · have stepped : advance crlf pEol b = 0 := if_neg hit
        rw [if_neg hit]
        by_cases full : (buf ++ [b]).length > responseBufferSize - 2 - crlf.length
        · rw [if_pos full]
          by_cases below : past.length + (buf ++ [b]).length < headerMaxLen
          · have next := @ih bytes _ _ _ _ (h.flush full below)
            rw [List.append_nil, List.length_append] at next
            rw [if_pos below]
            apply Outcome.cons (by omega)
            rwa [stepped, List.append_assoc]
          · rw [if_neg below]
            exact h.overlong hit full below
        · rw [if_neg full]
          apply Outcome.cons (by omega)
          rw [stepped, List.append_assoc]
          exact ih (h.miss (Nat.le_of_not_lt full))

theorem readHeaderLine_outcome (bytes : List UInt8) :
    Outcome 0 [] bytes (readHeaderLine crlf bytes) := by
  have start : Reading (headerMaxLen + responseBufferSize) [] [] [] 0 :=
    ⟨by decide, by simp, Nat.zero_le _, ⟨by decide, 0, Nat.zero_le _, Nat.zero_le _⟩,
      Nat.zero_add _, fun _ => rfl⟩
  exact readHeaderLoop_outcome start

theorem readHeaderLine_of_cut {text rest : List UInt8} (clean : 0 ∉ text)
    (short : text.length ≤ headerMaxLen)
    (cutting : cut crlf 0 (text ++ crlf ++ rest) = some (text ++ crlf, rest)) :
    readHeaderLine crlf (text ++ crlf ++ rest) = (⟨true, text, text.length⟩, rest) := by
  rcases readHeaderLine_outcome (text ++ crlf ++ rest) with ⟨more, text', cutting', whole, same⟩ |
    ⟨none, -⟩ | ⟨long, within⟩
  · rw [cutting] at cutting'
    obtain ⟨rfl, back⟩ := Prod.mk.inj (Option.some.inj cutting')
    obtain rfl : text' = text := List.append_cancel_right whole
    exact Prod.ext (same clean) back.symm
  · rw [cutting] at none
    cases none
  · have bound := within _ _ cutting
    rw [List.nil_append, List.length_append] at bound
    omega

theorem cut_of_readHeaderLine {text rest : List UInt8} (clean : 0 ∉ text ++ crlf ++ rest)
    (short : text.length ≤ headerMaxLen)
    (read : (readHeaderLine crlf (text ++ crlf ++ rest)).1 = ⟨true, text, text.length⟩) :
    cut crlf 0 (text ++ crlf ++ rest) = some (text ++ crlf, rest) := by
  rcases readHeaderLine_outcome (text ++ crlf ++ rest) with ⟨more, text', cutting, whole, same⟩ |
    ⟨-, ended⟩ | ⟨long, -⟩
  · have all := cut_append cutting
    rw [List.nil_append] at whole
    have clean' : 0 ∉ text' := by
      intro mem
      apply clean
      rw [all, ← whole]
      simp [mem]
    obtain rfl : text = text' := congrArg HeaderLine.line (read.symm.trans (same clean'))
    rw [← whole] at cutting all
    rwa [← List.append_cancel_left all] at cutting
  · rw [read] at ended
    cases ended
  · rw [read] at long
    exact absurd long (Nat.not_lt_of_le short)

theorem readHeaderLine_text {text : List UInt8} (clean : 0 ∉ text) (plain : 13 ∉ text)
    (short : text.length < headerMaxLen) (rest : List UInt8) :
    readHeaderLine crlf (text ++ crlf ++ rest) = (⟨true, text, text.length⟩, rest) := by
  apply readHeaderLine_of_cut clean (Nat.le_of_lt short)
  exact (cut_iff_broken (by decide) text rest).mpr (broken_of_not_mem rfl plain)

end WSResponse

end CppMyth
