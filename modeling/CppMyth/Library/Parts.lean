import Mathlib.Algebra.BigOperators.Group.List.Basic
import Mathlib.Order.Lattice
import Mathlib.Data.List.Range

/-! Parts laid end to end: where each begins, and which one a position falls in when it is
looked for from a given part on, forwards or backwards. -/
namespace CppMyth.Library.Parts

variable {α : Type*} [AddCommMonoid α]

/-- Where part `i` begins; past the last part, where it ends. -/
def start (sizes : List α) (i : Nat) : α := (sizes.take i).sum

@[simp] theorem start_zero (sizes : List α) : start sizes 0 = 0 := rfl

theorem start_length (sizes : List α) : start sizes sizes.length = sizes.sum := by
  rw [start, List.take_length]

theorem start_succ {sizes : List α} {i : Nat} {size : α} (found : sizes[i]? = some size) :
    start sizes (i + 1) = start sizes i + size := by
  obtain ⟨inside, rfl⟩ := List.getElem?_eq_some_iff.mp found
  rw [start, start, List.take_add_one, List.sum_append, List.getElem?_eq_getElem inside]
  simp

/-- Changing a part moves only what comes behind it. -/
theorem start_set {sizes : List α} {i j : Nat} (before : j ≤ i) (size : α) :
    start (sizes.set i size) j = start sizes j := by
  rw [start, start, List.take_set_of_le before]

section

variable [LinearOrder α]

/-- The first part from `i` on that reaches up to `p`. -/
def ahead (sizes : List α) (p : α) (i : Nat) : Option Nat :=
  (List.range' i (sizes.length - i)).find? fun j => p ≤ start sizes (j + 1)

/-- The last part up to `i` that begins at `p` or before. -/
def behind (sizes : List α) (p : α) (i : Nat) : Option Nat :=
  (List.range (i + 1)).reverse.find? fun j => start sizes j ≤ p

theorem ahead_step {sizes : List α} {i : Nat} (inside : i < sizes.length) (p : α) :
    ahead sizes p i = if p ≤ start sizes (i + 1) then some i else ahead sizes p (i + 1) := by
  have next : sizes.length - i = (sizes.length - (i + 1)) + 1 := by omega
  rw [ahead, next, List.range'_succ, List.find?_cons]
  by_cases reaches : p ≤ start sizes (i + 1)
  · simp [reaches]
  · simp [reaches, ahead]

theorem ahead_end {sizes : List α} {i : Nat} (outside : sizes.length ≤ i) (p : α) :
    ahead sizes p i = none := by
  rw [ahead, Nat.sub_eq_zero_of_le outside]
  rfl

theorem behind_zero (sizes : List α) (p : α) :
    behind sizes p 0 = if start sizes 0 ≤ p then some 0 else none := by
  by_cases reaches : 0 ≤ p <;> simp [behind, reaches]

theorem behind_succ (sizes : List α) (p : α) (i : Nat) :
    behind sizes p (i + 1) =
      if start sizes (i + 1) ≤ p then some (i + 1) else behind sizes p i := by
  rw [behind, List.range_succ, List.reverse_append, List.reverse_singleton, List.singleton_append,
    List.find?_cons]
  by_cases reaches : start sizes (i + 1) ≤ p
  · simp [reaches]
  · simp [reaches, behind]

/-- The part found ahead, when the search begins at a part that begins at `p` or before. -/
structure Ahead (sizes : List α) (p : α) (i j : Nat) : Prop where
  from_start : i ≤ j
  inside : j < sizes.length
  begins : start sizes j ≤ p
  reaches : p ≤ start sizes (j + 1)
  first : i < j → start sizes j < p

structure Behind (sizes : List α) (p : α) (i j : Nat) : Prop where
  from_start : j ≤ i
  begins : start sizes j ≤ p
  reaches : p ≤ start sizes (j + 1)

theorem ahead_spec {sizes : List α} {p : α} {i : Nat} (inside : i < sizes.length)
    (begins : start sizes i ≤ p) (within : p ≤ sizes.sum) :
    ∃ j, ahead sizes p i = some j ∧ Ahead sizes p i j := by
  generalize left : sizes.length - i = n
  induction n generalizing i with
  | zero => omega
  | succ n ih =>
    rw [ahead_step inside]
    by_cases reaches : p ≤ start sizes (i + 1)
    · rw [if_pos reaches]
      refine ⟨i, rfl, Nat.le_refl i, inside, begins, reaches, ?_⟩
      exact fun less => absurd less (Nat.lt_irrefl i)
    · rw [if_neg reaches]
      have more : i + 1 < sizes.length := by
        by_contra last
        have whole : i + 1 = sizes.length := by omega
        exact reaches (whole ▸ (start_length sizes).symm ▸ within)
      have passed : start sizes (i + 1) < p := lt_of_not_ge reaches
      obtain ⟨j, found, spec⟩ := ih more (le_of_lt passed) (by omega)
      refine ⟨j, found, Nat.le_of_succ_le spec.from_start, spec.inside, spec.begins, spec.reaches,
        fun _ => ?_⟩
      rcases Nat.lt_or_eq_of_le spec.from_start with later | rfl
      · exact spec.first later
      · exact passed

theorem behind_spec {sizes : List α} {p : α} {i : Nat} (nonneg : 0 ≤ p)
    (reaches : p ≤ start sizes (i + 1)) :
    ∃ j, behind sizes p i = some j ∧ Behind sizes p i j := by
  induction i with
  | zero =>
    rw [behind_zero, start_zero, if_pos nonneg]
    exact ⟨0, rfl, Nat.le_refl 0, nonneg, reaches⟩
  | succ i ih =>
    rw [behind_succ]
    by_cases begins : start sizes (i + 1) ≤ p
    · rw [if_pos begins]
      exact ⟨i + 1, rfl, Nat.le_refl _, begins, reaches⟩
    · rw [if_neg begins]
      obtain ⟨j, found, spec⟩ := ih (le_of_lt (lt_of_not_ge begins))
      exact ⟨j, found, Nat.le_succ_of_le spec.from_start, spec.begins, spec.reaches⟩

end

end CppMyth.Library.Parts
