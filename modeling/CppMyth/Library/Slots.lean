import Mathlib.Tactic

/-! Numbered slots, each holding a value or nothing, and what a sum over the held values
becomes when one slot is filled or emptied. -/
namespace CppMyth.Library

variable {α : Type*}

/-- What the first `n` slots hold, in the order of the slots. -/
def stored (slots : Nat → Option α) (n : Nat) : List α := (List.range n).filterMap slots

namespace stored

variable {slots : Nat → Option α} {n : Nat}

theorem succ (slots : Nat → Option α) (n : Nat) :
    stored slots (n + 1) = stored slots n ++ (slots n).toList := by
  unfold stored
  rw [List.range_succ, List.filterMap_append]
  cases held : slots n with
  | none => simp [held]
  | some v => simp [held]

theorem none (n : Nat) : stored (fun _ => (.none : Option α)) n = [] := by
  induction n with
  | zero => rfl
  | succ n ih => rw [succ, ih]; rfl

theorem mem_iff {v : α} : v ∈ stored slots n ↔ ∃ i < n, slots i = some v := by
  simp [stored, List.mem_filterMap]

theorem update_outside {i : Nat} (outside : n ≤ i) (x : Option α) :
    stored (Function.update slots i x) n = stored slots n := by
  apply List.filterMap_congr
  intro j hj
  have inside := List.mem_range.mp hj
  exact Function.update_of_ne (by omega) _ _

/-- What slot `i` held goes out of the sum and what it now holds comes in. -/
theorem sum_update (f : α → Nat) {i : Nat} (inside : i < n) (x : Option α) :
    ((stored (Function.update slots i x) n).map f).sum + ((slots i).toList.map f).sum =
      ((stored slots n).map f).sum + (x.toList.map f).sum := by
  induction n with
  | zero => omega
  | succ n ih =>
    simp only [succ, List.map_append, List.sum_append]
    by_cases last : i = n
    · subst last
      rw [update_outside (Nat.le_refl i), Function.update_self]
      omega
    · have earlier := ih (by omega)
      rw [Function.update_of_ne (Ne.symm last)]
      omega

theorem nonempty_of_sum {f : α → Nat} (some : ((stored slots n).map f).sum ≠ 0) :
    ∃ i < n, slots i ≠ .none := by
  by_contra empty
  apply some
  have nothing : stored slots n = [] := by
    apply List.eq_nil_iff_forall_not_mem.mpr
    intro v held
    obtain ⟨i, inside, there⟩ := mem_iff.mp held
    exact empty ⟨i, inside, by simp [there]⟩
  rw [nothing]
  rfl

end stored

end CppMyth.Library
