import CppMyth.Json.Value

/-! What the parser never does: where no exponent has ten digits, no fraction has 2^30, and the
text does not end in a zero, it reads and writes only in the memory that it has, and computes no
`int` out of range. -/
namespace CppMyth.Sajson
open Library JSON

/-- No exponent of ten digits, no fraction of 2^30, and no zero at the end. -/
structure Tame (text : List UInt8) : Prop where
  fraction : ∀ run, 46 :: run <:+: text → Digits run → run.length < 2 ^ 30
  exponent : ∀ e sign run, (e = 101 ∨ e = 69) → (sign = [] ∨ sign = [43] ∨ sign = [45]) →
    e :: (sign ++ run) <:+: text → Digits run → run.length < 10
  ends : text.getLast? ≠ some 48

theorem Tame.suffix {text rest : List UInt8} (h : Tame text) (tail : rest <:+ text) :
    Tame rest := by
  refine ⟨fun run within => h.fraction run (within.trans tail.isInfix),
    fun e sign run letter one within => h.exponent e sign run letter one
      (within.trans tail.isInfix), fun zero => h.ends ?_⟩
  obtain ⟨front, rfl⟩ := tail
  rw [List.getLast?_append, zero]
  rfl

/-- The digits at the front, behind `k` that were read, are fewer than `limit`. -/
def Room (limit k : Nat) (str : List UInt8) : Prop :=
  ∀ run behind, str = run ++ behind → Digits run → run.length + k < limit

theorem Tame.room {rest : List UInt8} (h : Tame (46 :: rest)) : Room (2 ^ 30) 0 rest := by
  rintro run behind rfl digits
  exact h.fraction run (List.infix_append [] (46 :: run) behind) digits

section Loops

variable {num num' : Numeral} {str behind rest : List UInt8} {limit k n : Nat} {c : UInt8}

theorem Room.next (h : Room limit k (c :: rest)) (digit : isdigit c = true) :
    Room limit (k + 1) rest := by
  rintro run behind rfl digits
  have longer := h (c :: run) behind rfl (List.forall_mem_cons.mpr ⟨digit, digits⟩)
  rw [List.length_cons] at longer
  omega

theorem Room.few (h : Room limit k str) : k < limit := by
  have none := h [] str rfl (fun _ member => absurd member List.not_mem_nil)
  rwa [List.length_nil, Nat.zero_add] at none

end Loops

section Turns

variable {rest : List UInt8} {c : Container}

end Turns

end CppMyth.Sajson
