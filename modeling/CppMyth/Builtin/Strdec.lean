import CppMyth.Builtin.Numerals
import CppMyth.Library.Memory

/-! The number writers of `builtin.c` as they work in memory: digits are stored from `str`
upwards, the lowest first, and then put in order where they stand. -/
namespace CppMyth
open Library

/-- The digit loop: the memory, the pointer and the number that is left. -/
def strdecDigits : Nat → Nat → Nat → Memory UInt8 → Memory UInt8 × Nat × Nat
  | 0, n, ptr, m => (m, ptr, n)
  | room + 1, n, ptr, m =>
    let n10 := n / 10
    let m := m.put ptr (digit (n - n10 * 10))
    if n10 / 10 > 0 ∧ room > 0 then strdecDigits room n10 (ptr + 1) m else (m, ptr + 1, n10)

def strdecPad : Nat → Nat → Memory UInt8 → Memory UInt8 × Nat
  | 0, ptr, m => (m, ptr)
  | room + 1, ptr, m => strdecPad room (ptr + 1) (m.put ptr (digit 0))

/-- The loop that reorders the digits between `str` and `ptr`. A turn takes two of them. -/
def reorder : Nat → Nat → Nat → Memory UInt8 → Memory UInt8
  | 0, _, _, m => m
  | fuel + 1, str, ptr, m =>
    let ptr := ptr - 1
    if ptr > str then
      reorder fuel (str + 1) ptr ((m.put str (m.cell ptr)).put ptr (m.cell str))
    else m

def strdecAt (u str len : Nat) (pad : Bool) (m : Memory UInt8) : Nat × Memory UInt8 :=
  if len = 0 then (len, m)
  else
    let stop := str + len
    let written := strdecDigits len u str m
    let r :=
      if written.2.1 < stop then
        -- push last digit
        let r :=
          if written.2.2 > 0 then
            (written.1.put written.2.1 (digit written.2.2), written.2.1 + 1)
          else (written.1, written.2.1)
        if pad then strdecPad (stop - r.2) r.2 r.1 else r
      else (written.1, written.2.1)
    let len := r.2 - str
    (len, reorder len str r.2 r.1)

def uintToStrdecAt (u : UInt32) (str len : Nat) (pad : Bool) (m : Memory UInt8) :
    Nat × Memory UInt8 :=
  strdecAt u.toNat str len pad m

def uint64ToStrdecAt (ul : UInt64) (str len : Nat) (pad : Bool) (m : Memory UInt8) :
    Nat × Memory UInt8 :=
  strdecAt ul.toNat str len pad m

/-- What the digits of a number become in `len` places: the lowest ones where there are too
many, and with padding the zeros that are missing in front. -/
def fitted (digits : List UInt8) (len : Nat) (pad : Bool) : List UInt8 :=
  (if pad then List.replicate (len - digits.length) (digit 0) else []) ++
    digits.drop (digits.length - len)

section Fitted

theorem fitted_concat (digits : List UInt8) (c : UInt8) (len : Nat) :
    fitted (digits ++ [c]) (len + 1) true = fitted digits len true ++ [c] := by
  have short : digits.length - len ≤ digits.length := Nat.sub_le _ _
  simp only [fitted, if_true, List.length_append, List.length_singleton, Nat.add_sub_add_right,
    List.drop_append_of_le_length short, List.append_assoc]

theorem padded_fitted (len u : Nat) : padded len u = fitted (decimal u) len true := by
  induction len generalizing u with
  | zero => simp [padded, fitted]
  | succ len ih =>
    by_cases one : u < 10
    · rw [padded_small one, decimal_of_lt one]
      simp [fitted]
    · rw [decimal_of_ge (Nat.le_of_not_lt one), fitted_concat, padded, ih]

/-- A number too long for the room takes all of it in the loop. -/
theorem strdecLoop_full {room n : Nat} (long : 10 ^ room ≤ n) (out : List UInt8) :
    (strdecLoop room n out).1.length = out.length + room := by
  induction room generalizing n out with
  | zero => rfl
  | succ room ih =>
    rw [strdecLoop]
    cases room with
    | zero => simp
    | succ room =>
      have tail : 10 ^ (room + 1) ≤ n / 10 := by
        rw [Nat.pow_succ] at long
        omega
      have more : n / 10 / 10 > 0 := by
        have positive : 0 < 10 ^ room := Nat.pow_pos (by decide)
        rw [Nat.pow_succ] at tail
        omega
      simp only [if_pos (And.intro more (Nat.succ_pos room)), ih tail, List.length_append,
        List.length_singleton]
      omega

theorem uintToStrdec_fitted (u len : Nat) (pad : Bool) :
    uintToStrdec u len pad = fitted (decimal u) len pad := by
  have whole := (uintToStrdec_padded u len).trans (padded_fitted len u)
  cases pad with
  | true => exact whole
  | false =>
    rcases Nat.eq_zero_or_pos len with rfl | positive
    · simp [uintToStrdec, fitted]
    · by_cases fits : u < 10 ^ len
      · have short := decimal_length positive fits
        rw [uintToStrdec_decimal positive fits, fitted, Nat.sub_eq_zero_of_le short]
        rfl
      · -- no digit and no zero is pushed after the loop, so padding changes nothing
        have full := strdecLoop_full (Nat.le_of_not_lt fits) []
        have long : len ≤ (decimal u).length := by
          apply Nat.le_of_not_lt
          intro short
          apply fits
          exact (Nat.length_toDigits_le_iff (by decide) positive).mp (by
            simpa [decimal] using Nat.le_of_lt short)
        have same : uintToStrdec u len false = uintToStrdec u len true := by
          simp only [List.length_nil, Nat.zero_add] at full
          simp only [uintToStrdec, full, Nat.lt_irrefl, if_false]
        rw [same, whole, fitted, fitted, Nat.sub_eq_zero_of_le long]
        rfl

end Fitted

section Written

/-- `text` stands at `str`, its length was returned, and nothing was stored behind the
`len` cells from `str` or in front of them. -/
structure Written (m : Memory UInt8) (str len : Nat) (text : List UInt8)
    (r : Nat × Memory UInt8) : Prop where
  count : r.1 = text.length
  room : text.length ≤ len
  stands : r.2.cells str text.length = text
  within : Memory.Within m r.2 str (str + len)

theorem strdecLoop_length (room n : Nat) (out : List UInt8) :
    (strdecLoop room n out).1.length ≤ out.length + room := by
  induction room generalizing n out with
  | zero => exact Nat.le_refl _
  | succ room ih =>
    have tail := ih (n / 10) (out ++ [digit (n - n / 10 * 10)])
    rw [List.length_append, List.length_singleton] at tail
    rw [strdecLoop]
    split
    · omega
    · simp

theorem strdecDigits_write (room n : Nat) (out : List UInt8) (str : Nat) (m : Memory UInt8) :
    strdecDigits room n (str + out.length) (m.write str out) =
      (m.write str (strdecLoop room n out).1, str + (strdecLoop room n out).1.length,
        (strdecLoop room n out).2) := by
  induction room generalizing n out with
  | zero => rfl
  | succ room ih =>
    have stored : (m.write str out).put (str + out.length) (digit (n - n / 10 * 10)) =
        m.write str (out ++ [digit (n - n / 10 * 10)]) := (m.write_append str out [_]).symm
    have moved : str + out.length + 1 = str + (out ++ [digit (n - n / 10 * 10)]).length := by
      rw [List.length_append, List.length_singleton, Nat.add_assoc]
    rw [strdecDigits, strdecLoop]
    simp only [stored, moved]
    split
    · exact ih _ _
    · rfl

theorem strdecPad_write (room : Nat) (out : List UInt8) (str : Nat) (m : Memory UInt8) :
    strdecPad room (str + out.length) (m.write str out) =
      (m.write str (out ++ List.replicate room (digit 0)), str + out.length + room) := by
  induction room generalizing out with
  | zero => simp [strdecPad]
  | succ room ih =>
    have stored : (m.write str out).put (str + out.length) (digit 0) =
        m.write str (out ++ [digit 0]) := (m.write_append str out [_]).symm
    have tail := ih (out ++ [digit 0])
    rw [List.length_append, List.length_singleton, ← Nat.add_assoc] at tail
    rw [strdecPad, stored, tail, List.append_assoc, List.singleton_append,
      ← List.replicate_succ, Nat.add_assoc, Nat.add_comm 1]

/-- Each turn brings the outermost two cells to their places. -/
theorem reorder_cell (fuel str ptr : Nat) (m : Memory UInt8) (enough : ptr - str ≤ fuel) (p : Nat) :
    (reorder fuel str ptr m).cell p =
      if str ≤ p ∧ p < ptr then m.cell (str + ptr - 1 - p) else m.cell p := by
  induction fuel generalizing str ptr m with
  | zero =>
    rw [if_neg (by omega)]
    rfl
  | succ fuel ih =>
    rw [reorder]
    by_cases more : ptr - 1 > str
    · rw [if_pos more, ih (str + 1) (ptr - 1) _ (by omega)]
      by_cases first : p = str
      · subst first
        have outer : p + ptr - 1 - p = ptr - 1 := by omega
        rw [if_neg (by omega), if_pos (by omega), Memory.put_cell_other (by omega),
          Memory.put_cell_same, outer]
      · by_cases last : p = ptr - 1
        · subst last
          have outer : str + ptr - 1 - (ptr - 1) = str := by omega
          rw [if_neg (by omega), if_pos (by omega), Memory.put_cell_same, outer]
        · have inner : str + 1 + (ptr - 1) - 1 - p = str + ptr - 1 - p := by omega
          by_cases inside : str ≤ p ∧ p < ptr
          · rw [if_pos (by omega), if_pos inside, inner, Memory.put_cell_other (by omega),
              Memory.put_cell_other (by omega)]
          · rw [if_neg (by omega), if_neg inside, Memory.put_cell_other (by omega),
              Memory.put_cell_other (by omega)]
    · rw [if_neg more]
      by_cases one : str ≤ p ∧ p < ptr
      · have self : str + ptr - 1 - p = p := by omega
        rw [if_pos one, self]
      · rw [if_neg one]

theorem reorder_within (fuel str ptr : Nat) (m : Memory UInt8) :
    Memory.Within m (reorder fuel str ptr m) str ptr := by
  induction fuel generalizing str ptr m with
  | zero => exact .refl m str ptr
  | succ fuel ih =>
    rw [reorder]
    split
    · apply Memory.Within.trans
      · exact Memory.put_within (m.cell (ptr - 1)) (Nat.le_refl str) (by omega)
      · apply Memory.Within.trans
        · exact Memory.put_within (m.cell str) (by omega) (by omega : ptr - 1 < ptr)
        · exact (ih (str + 1) (ptr - 1) _).mono (Nat.le_succ str) (Nat.sub_le ptr 1)
    · exact .refl m str ptr

theorem reorder_written (m : Memory UInt8) (str len : Nat) (text : List UInt8)
    (room : text.length ≤ len) :
    Written m str len text.reverse
      (text.length, reorder text.length str (str + text.length) (m.write str text)) where
  count := text.length_reverse.symm
  room := by rwa [List.length_reverse]
  stands := by
    rw [List.length_reverse]
    have stood := m.cells_write str text
    apply List.ext_getElem
    · simp
    · intro i hi hi'
      rw [Memory.cells_length] at hi
      have place : str + (str + text.length) - 1 - (str + i) = str + (text.length - 1 - i) := by
        omega
      have cell : (m.write str text).cell (str + (text.length - 1 - i)) =
          text[text.length - 1 - i] := by
        rw [← Memory.cells_getElem (n := text.length) (by rw [Memory.cells_length]; omega)]
        simp only [stood]
      rw [Memory.cells_getElem, reorder_cell _ _ _ _ (by omega), if_pos (by omega), place, cell,
        List.getElem_reverse]
  within := by
    apply Memory.Within.trans
    · exact (m.write_within str text).mono (Nat.le_refl str) (by omega)
    · exact (reorder_within _ _ _ _).mono (Nat.le_refl str) (by omega)

theorem push_write (out : List UInt8) (n str : Nat) (m : Memory UInt8) :
    (if n > 0 then ((m.write str out).put (str + out.length) (digit n), str + out.length + 1)
      else (m.write str out, str + out.length)) =
    (m.write str (if n > 0 then out ++ [digit n] else out),
      str + (if n > 0 then out ++ [digit n] else out).length) := by
  split
  · rw [List.length_append, m.write_append]
    rfl
  · rfl

theorem pad_write (out : List UInt8) (str len : Nat) (pad : Bool) (m : Memory UInt8) :
    (if pad then strdecPad (str + len - (str + out.length)) (str + out.length) (m.write str out)
      else (m.write str out, str + out.length)) =
    (m.write str (if pad then out ++ List.replicate (len - out.length) (digit 0) else out),
      str + (if pad then out ++ List.replicate (len - out.length) (digit 0) else out).length) := by
  cases pad with
  | false => rfl
  | true =>
    rw [if_pos rfl, if_pos rfl, strdecPad_write, List.length_append, List.length_replicate,
      Nat.add_assoc, Nat.add_sub_add_left]

theorem strdecAt_written (u str len : Nat) (pad : Bool) (m : Memory UInt8) :
    Written m str len (uintToStrdec u len pad) (strdecAt u str len pad m) := by
  rcases Nat.eq_zero_or_pos len with rfl | positive
  · exact ⟨rfl, Nat.le_refl 0, rfl, .refl m str _⟩
  · have ended : ∀ out : List UInt8, out.length ≤ len → Written m str len out.reverse
        (str + out.length - str,
          reorder (str + out.length - str) str (str + out.length) (m.write str out)) := by
      intro out room
      rw [Nat.add_sub_cancel_left]
      exact reorder_written m str len out room
    have loop := strdecDigits_write len u [] str m
    have bound := strdecLoop_length len u []
    rw [List.length_nil, Nat.zero_add] at bound
    simp only [List.length_nil, Nat.add_zero, Memory.write] at loop
    simp only [strdecAt, uintToStrdec, if_neg (Nat.ne_of_gt positive), loop,
      Nat.add_lt_add_iff_left]
    by_cases short : (strdecLoop len u []).1.length < len
    · have room : (if (strdecLoop len u []).2 > 0 then
          (strdecLoop len u []).1 ++ [digit (strdecLoop len u []).2]
          else (strdecLoop len u []).1).length ≤ len := by
        split
        · rw [List.length_append, List.length_singleton]
          exact short
        · exact bound
      simp only [if_pos short, push_write, pad_write]
      apply ended
      cases pad with
      | false => exact room
      | true =>
        rw [if_pos rfl, List.length_append, List.length_replicate]
        omega
    · simp only [if_neg short]
      exact ended _ bound

/-- Every number, in every place and room and with or without padding, is written as its
canonical digits fitted into the room, and nothing else is stored to. -/
theorem strdec_written (m : Memory UInt8) (str len : Nat) (pad : Bool) :
    (∀ u : UInt32, Canonical u.toNat (decimal u.toNat) ∧
      Written m str len (fitted (decimal u.toNat) len pad) (uintToStrdecAt u str len pad m)) ∧
    (∀ ul : UInt64, Canonical ul.toNat (decimal ul.toNat) ∧
      Written m str len (fitted (decimal ul.toNat) len pad)
        (uint64ToStrdecAt ul str len pad m)) := by
  have both : ∀ n : Nat, Canonical n (decimal n) ∧
      Written m str len (fitted (decimal n) len pad) (strdecAt n str len pad m) := by
    intro n
    constructor
    · exact decimalInt_canonical n
    · rw [← uintToStrdec_fitted]
      exact strdecAt_written n str len pad m
  exact ⟨fun u => both u.toNat, fun ul => both ul.toNat⟩

end Written
end CppMyth
