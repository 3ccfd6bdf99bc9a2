import Mathlib.Tactic

/-! Segments of a sequence that is indexed by the integers. -/
namespace CppMyth.Library

variable {α : Type*}

/-- The `len` elements from `start` on. -/
def segment (f : Int → α) (start : Int) : Nat → List α
  | 0 => []
  | len + 1 => f start :: segment f (start + 1) len

@[simp] theorem segment_zero (f : Int → α) (start : Int) : segment f start 0 = [] := rfl

@[simp] theorem length_segment (f : Int → α) (start : Int) (len : Nat) :
    (segment f start len).length = len := by
  induction len generalizing start with
  | zero => rfl
  | succ len ih => rw [segment, List.length_cons, ih]

theorem segment_add (f : Int → α) (start : Int) (m n : Nat) :
    segment f start (m + n) = segment f start m ++ segment f (start + m) n := by
  induction m generalizing start with
  | zero => simp
  | succ m ih =>
    have shift : start + 1 + (m : Int) = start + ((m + 1 : Nat) : Int) := by omega
    rw [Nat.succ_add, segment, segment, ih, shift, List.cons_append]

theorem take_segment (f : Int → α) (start : Int) {m len : Nat} (h : m ≤ len) :
    (segment f start len).take m = segment f start m := by
  obtain ⟨n, rfl⟩ := Nat.exists_eq_add_of_le h
  rw [segment_add, List.take_left' (length_segment f start m)]

theorem drop_segment (f : Int → α) (start : Int) {m len : Nat} (h : m ≤ len) :
    (segment f start len).drop m = segment f (start + m) (len - m) := by
  obtain ⟨n, rfl⟩ := Nat.exists_eq_add_of_le h
  rw [segment_add, List.drop_left' (length_segment f start m), Nat.add_sub_cancel_left]

end CppMyth.Library
