import Mathlib.Tactic

/-! The binary search for the first of a range of places where a test fails. A test that cannot
be made at a place makes the search fail there; the range need not be stored anywhere. -/
namespace CppMyth.Library

/-- The search among the `n` places from `first` on. -/
def partitionPoint (before : Nat → Option Bool) (first n : Nat) : Option Nat :=
  if n = 0 then some first
  else
    match before (first + n / 2) with
    | none => none
    | some true => partitionPoint before (first + n / 2 + 1) (n - n / 2 - 1)
    | some false => partitionPoint before first (n / 2)
  termination_by n

section Search

variable {before : Nat → Option Bool} {test : Nat → Prop}

/-- The test holds up to some place of the range, and at none from there on. -/
def Partitions (test : Nat → Prop) (first n r : Nat) : Prop :=
  first ≤ r ∧ r ≤ first + n ∧ (∀ i, first ≤ i → i < r → test i) ∧
    ∀ i, r ≤ i → i < first + n → ¬ test i

/-- What is in front of a place where the test holds is part of the front, what is behind one
where it fails is not. -/
theorem partitionPoint_exists [DecidablePred test] {first n : Nat}
    (made : ∀ i, first ≤ i → i < first + n → before i = some (decide (test i)))
    (ordered : ∀ i j, first ≤ i → i ≤ j → j < first + n → test j → test i) :
    ∃ r, partitionPoint before first n = some r ∧ Partitions test first n r := by
  induction n using Nat.strongRecOn generalizing first with
  | ind n ih =>
    rw [partitionPoint]
    by_cases none : n = 0
    · rw [if_pos none]
      exact ⟨first, rfl, le_rfl, by omega, fun i _ _ => by omega, fun i _ _ => by omega⟩
    rw [if_neg none, made (first + n / 2) (by omega) (by omega)]
    by_cases holds : test (first + n / 2)
    · obtain ⟨r, found, low, high, front, back⟩ := @ih (n - n / 2 - 1) (by omega)
        (first + n / 2 + 1) (fun i _ _ => made i (by omega) (by omega))
        (fun i j _ _ _ => ordered i j (by omega) (by omega) (by omega))
      simp only [holds, decide_true]
      refine ⟨r, found, by omega, by omega, fun i _ inside => ?_,
        fun i _ _ => back i (by omega) (by omega)⟩
      rcases Nat.lt_or_ge (first + n / 2) i with later | earlier
      · exact front i (by omega) inside
      · exact ordered i _ (by omega) earlier (by omega) holds
    · obtain ⟨r, found, low, high, front, back⟩ := @ih (n / 2) (by omega) first
        (fun i _ _ => made i (by omega) (by omega))
        (fun i j _ _ _ => ordered i j (by omega) (by omega) (by omega))
      simp only [holds, decide_false]
      refine ⟨r, found, low, by omega, front, fun i inside _ => ?_⟩
      rcases Nat.lt_or_ge i (first + n / 2) with earlier | later
      · exact back i inside earlier
      · exact fun met => holds (ordered _ i (by omega) later (by omega) met)

end Search

end CppMyth.Library
