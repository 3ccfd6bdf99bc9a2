import CppMyth.Library.Transition

/-! A source that is called again and again hands out what it holds piece by piece, and then
closes. Nothing here mentions a program. -/
namespace CppMyth.Library

variable {S A B : Type*}

/-- The answers of a source: pieces of `bytes` with their lengths, the closing code, zeros. -/
def Drains (answers : Nat → Int × List B) (bytes : List B) (code : Int) : Prop :=
  ∃ k, (∀ i, i < k → ∃ piece, piece ≠ [] ∧ answers i = ((piece.length : Int), piece)) ∧
    ((List.range k).flatMap fun i => (answers i).2) = bytes ∧
    answers k = (code, []) ∧ ∀ i, k < i → answers i = (0, [])

namespace Drains

variable {answers : Nat → Int × List B} {bytes : List B} {code : Int}

theorem close (last : answers 0 = (code, [])) (zeros : ∀ i, answers (i + 1) = (0, [])) :
    Drains answers [] code := by
  refine ⟨0, fun i h => absurd h (Nat.not_lt_zero i), rfl, last, ?_⟩
  intro i after
  cases i with
  | zero => exact absurd after (Nat.lt_irrefl 0)
  | succ i => exact zeros i

theorem piece {front : List B} (some_bytes : front ≠ [])
    (first : answers 0 = ((front.length : Int), front))
    (rest : Drains (fun i => answers (i + 1)) bytes code) :
    Drains answers (front ++ bytes) code := by
  obtain ⟨k, pieces, whole, last, zeros⟩ := rest
  refine ⟨k + 1, ?_, ?_, last, ?_⟩
  · intro i before
    cases i with
    | zero => exact ⟨front, some_bytes, first⟩
    | succ i => exact pieces i (Nat.lt_of_succ_lt_succ before)
  · rw [List.range_succ_eq_map, List.flatMap_cons, List.flatMap_map, first]
    exact congrArg (front ++ ·) whole
  · intro i after
    cases i with
    | zero => exact absurd after (Nat.not_lt_zero _)
    | succ i => exact zeros i (Nat.lt_of_succ_lt_succ after)

/-- While no answer was negative, a zero comes only when all the bytes have been handed out. -/
theorem at_zero (drains : Drains answers bytes code) (closes : code ≤ 0) {i : Nat}
    (before : ∀ j, j < i → 0 ≤ (answers j).1) (zero : (answers i).1 = 0) :
    code = 0 ∧ ((List.range i).flatMap fun j => (answers j).2) = bytes := by
  obtain ⟨k, pieces, whole, last, zeros⟩ := drains
  have late : k ≤ i := by
    by_contra early
    obtain ⟨piece, some_bytes, answer⟩ := pieces i (Nat.lt_of_not_le early)
    have positive := List.length_pos_iff.mpr some_bytes
    rw [answer] at zero
    simp only at zero
    omega
  obtain ⟨n, rfl⟩ := Nat.exists_eq_add_of_le late
  have silent : ∀ j, (answers (k + j)).2 = [] := by
    intro j
    cases j with
    | zero => exact congrArg Prod.snd last
    | succ j => exact congrArg Prod.snd (zeros (k + (j + 1)) (by omega))
  constructor
  · cases n with
    | zero => exact (congrArg Prod.fst last).symm.trans zero
    | succ n =>
      have reached := before k (by omega)
      rw [last] at reached
      exact Int.le_antisymm closes reached
  · rw [List.range_add, List.flatMap_append, whole, List.flatMap_map]
    simp [silent]

theorem negative (drains : Drains answers bytes code) (failed : code < 0) :
    ∃ i, (answers i).1 < 0 := by
  obtain ⟨k, -, -, last, -⟩ := drains
  exact ⟨k, by rw [last]; exact failed⟩

/-- The step that closes with zero is one that no negative answer comes before. -/
theorem zero_at_end (drains : Drains answers bytes 0) :
    ∃ i, (∀ j, j < i → 0 ≤ (answers j).1) ∧ (answers i).1 = 0 ∧
      ((List.range i).flatMap fun j => (answers j).2) = bytes := by
  obtain ⟨k, pieces, whole, last, -⟩ := drains
  refine ⟨k, ?_, congrArg Prod.fst last, whole⟩
  intro j before
  obtain ⟨piece, -, answer⟩ := pieces j before
  rw [answer]
  exact Int.natCast_nonneg _

/-- What a reader that looks at the bytes only sees of a source. -/
theorem pieces (drains : Drains answers bytes code) :
    ∃ pieces : List (List B), (∀ p ∈ pieces, p ≠ []) ∧ pieces.flatten = bytes ∧
      ∀ i, (answers i).2 = pieces.getD i [] := by
  obtain ⟨k, some_bytes, whole, last, zeros⟩ := drains
  refine ⟨(List.range k).map fun i => (answers i).2, ?_, ?_, ?_⟩
  · intro p mem
    obtain ⟨i, among, rfl⟩ := List.mem_map.mp mem
    obtain ⟨piece, more, answer⟩ := some_bytes i (List.mem_range.mp among)
    rwa [answer]
  · rw [← whole, List.flatMap_def]
  · intro i
    rw [List.getD_eq_getElem?_getD, List.getElem?_map]
    by_cases before : i < k
    · rw [List.getElem?_range before]
      rfl
    · have after := Nat.le_of_not_lt before
      rw [List.getElem?_eq_none (by simpa using after), Option.map_none, Option.getD_none]
      rcases Nat.lt_or_eq_of_le after with after | rfl
      · rw [zeros i after]
      · rw [last]

theorem silent (drains : Drains answers bytes code) {i : Nat} (failed : (answers i).1 < 0) :
    (answers i).2 = [] := by
  obtain ⟨k, pieces, -, last, zeros⟩ := drains
  rcases Nat.lt_trichotomy i k with before | rfl | after
  · obtain ⟨piece, -, answer⟩ := pieces i before
    rw [answer] at failed
    exact absurd (Int.natCast_nonneg piece.length) (Int.not_le.mpr failed)
  · rw [last]
  · rw [zeros i after]

end Drains

/-- The answers of a source that breaks: pieces from the front of `bytes`, then failures. -/
def Breaks (answers : Nat → Int × List B) (bytes : List B) : Prop :=
  ∃ k, (∀ i, i < k → ∃ piece, piece ≠ [] ∧ answers i = ((piece.length : Int), piece)) ∧
    ((List.range k).flatMap fun i => (answers i).2) <+: bytes ∧ ∀ i, k ≤ i → (answers i).1 < 0

namespace Breaks

variable {answers : Nat → Int × List B} {bytes : List B}

theorem fail (failed : ∀ i, (answers i).1 < 0) : Breaks answers bytes :=
  ⟨0, fun i h => absurd h (Nat.not_lt_zero i), List.nil_prefix, fun i _ => failed i⟩

theorem piece {front : List B} (some_bytes : front ≠ [])
    (first : answers 0 = ((front.length : Int), front))
    (rest : Breaks (fun i => answers (i + 1)) bytes) : Breaks answers (front ++ bytes) := by
  obtain ⟨k, pieces, part, fails⟩ := rest
  refine ⟨k + 1, ?_, ?_, ?_⟩
  · intro i before
    cases i with
    | zero => exact ⟨front, some_bytes, first⟩
    | succ i => exact pieces i (Nat.lt_of_succ_lt_succ before)
  · rw [List.range_succ_eq_map, List.flatMap_cons, List.flatMap_map, first]
    exact (List.prefix_append_right_inj front).mpr part
  · intro i after
    cases i with
    | zero => exact absurd after (Nat.not_succ_le_zero k)
    | succ i => exact fails i (Nat.le_of_succ_le_succ after)

end Breaks

namespace Machine

variable (m : Machine S A (Int × List B))

/-- The rule for a source: `Holds s bytes code` is kept by a call that hands out some of the
bytes, and by the one that closes. -/
theorem drains (Holds : S → List B → Int → Prop) (asked : A → Prop)
    (hands : ∀ {s bytes code a}, Holds s bytes code → bytes ≠ [] → asked a →
      ∃ piece rest, bytes = piece ++ rest ∧ piece ≠ [] ∧
        (m.step s a).1 = ((piece.length : Int), piece) ∧ Holds (m.step s a).2 rest code)
    (closes : ∀ {s code a}, Holds s [] code → asked a →
      (m.step s a).1 = (code, []) ∧ Holds (m.step s a).2 [] 0)
    {s : S} {bytes : List B} {code : Int} (holds : Holds s bytes code) {labels : Nat → A}
    (all : ∀ i, asked (labels i)) : Drains (m.answerAt s labels) bytes code := by
  induction h : bytes.length using Nat.strong_induction_on generalizing s bytes labels with
  | h n ih =>
    by_cases none : bytes = []
    · subst none
      obtain ⟨last, empty⟩ := closes holds (all 0)
      refine .close last ?_
      intro i
      rw [answerAt_succ]
      have kept := m.stateAt_invariant (I := fun t => Holds t [] 0)
        (fun t j held => (closes held (all (j + 1))).2) empty i
      exact (closes kept (all (i + 1))).1
    · obtain ⟨piece, rest, rfl, some_bytes, answer, next⟩ := hands holds none (all 0)
      refine .piece some_bytes answer ?_
      simp only [answerAt_succ]
      have less : rest.length < n := by
        rw [← h, List.length_append]
        exact Nat.lt_add_of_pos_left (List.length_pos_iff.mpr some_bytes)
      exact ih rest.length less next (fun i => all (i + 1)) rfl

/-- The rule for a source that breaks: `Holds s bytes` is kept by a call that hands out some of
the bytes, and left by one that fails for good. -/
theorem breaks (Holds : S → List B → Prop) (Broken : S → Prop) (asked : A → Prop)
    (hands : ∀ {s bytes a}, Holds s bytes → asked a →
      (∃ piece rest, bytes = piece ++ rest ∧ piece ≠ [] ∧
        (m.step s a).1 = ((piece.length : Int), piece) ∧ Holds (m.step s a).2 rest) ∨
      ((m.step s a).1.1 < 0 ∧ Broken (m.step s a).2))
    (fails : ∀ {s a}, Broken s → asked a → (m.step s a).1.1 < 0 ∧ Broken (m.step s a).2)
    {s : S} {bytes : List B} (holds : Holds s bytes) {labels : Nat → A}
    (all : ∀ i, asked (labels i)) : Breaks (m.answerAt s labels) bytes := by
  induction h : bytes.length using Nat.strong_induction_on generalizing s bytes labels with
  | h n ih =>
    rcases hands holds (all 0) with ⟨piece, rest, rfl, some_bytes, answer, next⟩ | ⟨failed, broken⟩
    · refine .piece some_bytes answer ?_
      simp only [answerAt_succ]
      have less : rest.length < n := by
        rw [← h, List.length_append]
        exact Nat.lt_add_of_pos_left (List.length_pos_iff.mpr some_bytes)
      exact ih rest.length less next (fun i => all (i + 1)) rfl
    · apply Breaks.fail
      intro i
      cases i with
      | zero => exact failed
      | succ i =>
        rw [answerAt_succ]
        have kept := m.stateAt_invariant (I := Broken)
          (fun t j held => (fails held (all (j + 1))).2) broken i
        exact (fails kept (all (i + 1))).1

end Machine

end CppMyth.Library
