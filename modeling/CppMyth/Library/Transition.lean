import Mathlib.Tactic

/-! Runs of labelled steps, with the invariant rule, the rule for guarded runs, and the
comparison of an observed machine with an acceptor of its observations. Nothing here
mentions a program: a state type, a label type and a step relation are parameters. -/
namespace CppMyth.Library

inductive Run {S A : Type*} (step : S → A → S → Prop) : S → List A → S → Prop where
  | nil (s : S) : Run step s [] s
  | cons {s t u : S} {a : A} {rest : List A} :
      step s a t → Run step t rest u → Run step s (a :: rest) u

namespace Run

variable {S A : Type*} {step : S → A → S → Prop}

theorem invariant {I : S → Prop} (keep : ∀ s a t, I s → step s a t → I t)
    {s t : S} {labels : List A} (run : Run step s labels t) (initial : I s) : I t := by
  induction run with
  | nil => exact initial
  | cons first _ ih => exact ih (keep _ _ _ initial first)

theorem append {s t u : S} {front back : List A} (h : Run step s front t)
    (k : Run step t back u) : Run step s (front ++ back) u := by
  induction h with
  | nil => exact k
  | cons first _ ih => exact .cons first (ih k)

/-- The rule for a run that leaves `I`: some step of it does, and that step is shown. -/
theorem exit {I : S → Prop} {s t : S} {labels : List A} (run : Run step s labels t)
    (inside : I s) (outside : ¬ I t) :
    ∃ front a back u v, labels = front ++ a :: back ∧ Run step s front u ∧ I u ∧
      step u a v ∧ ¬ I v ∧ Run step v back t := by
  induction run with
  | nil => exact absurd inside outside
  | @cons s m t a rest first tail ih =>
    by_cases still : I m
    · obtain ⟨front, b, back, u, v, rfl, hf, hu, hs, hv, hb⟩ := ih still outside
      exact ⟨a :: front, b, back, u, v, rfl, .cons first hf, hu, hs, hv, hb⟩
    · exact ⟨[], a, rest, s, m, rfl, .nil s, inside, first, still, tail⟩

end Run

/-- A deterministic machine: each label gives one observation and one next state. -/
structure Machine (S A O : Type*) where
  step : S → A → O × S

namespace Machine

variable {S A O T : Type*} (m : Machine S A O)

def final (s : S) : List A → S
  | [] => s
  | a :: rest => final (m.step s a).2 rest

def observations (s : S) : List A → List O
  | [] => []
  | a :: rest => (m.step s a).1 :: observations (m.step s a).2 rest

/-- The state before call `i` of a run that never ends. -/
def stateAt (s : S) (labels : Nat → A) : Nat → S
  | 0 => s
  | i + 1 => (m.step (stateAt s labels i) (labels i)).2

def answerAt (s : S) (labels : Nat → A) (i : Nat) : O :=
  (m.step (m.stateAt s labels i) (labels i)).1

/-- Every step of the run is taken in a state that meets the guard. -/
def Guarded (guard : S → A → Prop) (s : S) : List A → Prop
  | [] => True
  | a :: rest => guard s a ∧ Guarded guard (m.step s a).2 rest

instance decidableGuarded (guard : S → A → Prop) [∀ s a, Decidable (guard s a)] (s : S) :
    (labels : List A) → Decidable (m.Guarded guard s labels)
  | [] => isTrue trivial
  | a :: rest =>
    have := decidableGuarded guard (m.step s a).2 rest
    inferInstanceAs (Decidable (guard s a ∧ m.Guarded guard (m.step s a).2 rest))

theorem final_invariant {I : S → Prop} (keep : ∀ s a, I s → I (m.step s a).2)
    {s : S} (initial : I s) (labels : List A) : I (m.final s labels) := by
  induction labels generalizing s with
  | nil => exact initial
  | cons a rest ih => exact ih (keep s a initial)

/-- States that no step tells apart are observed alike. -/
theorem observations_congr {R : S → S → Prop}
    (sim : ∀ s t a, R s t → (m.step s a).1 = (m.step t a).1 ∧ R (m.step s a).2 (m.step t a).2)
    {s t : S} (related : R s t) (labels : List A) :
    m.observations s labels = m.observations t labels := by
  induction labels generalizing s t with
  | nil => rfl
  | cons a rest ih =>
    obtain ⟨same, next⟩ := sim s t a related
    rw [observations, observations, same, ih next]

@[simp] theorem final_append (s : S) (front back : List A) :
    m.final s (front ++ back) = m.final (m.final s front) back := by
  induction front generalizing s with
  | nil => rfl
  | cons a rest ih => exact ih (m.step s a).2

theorem stateAt_succ (s : S) (labels : Nat → A) (i : Nat) :
    m.stateAt s labels (i + 1) = m.stateAt (m.step s (labels 0)).2 (fun j => labels (j + 1)) i := by
  induction i with
  | zero => rfl
  | succ i ih => exact congrArg (fun t => (m.step t (labels (i + 1))).2) ih

theorem answerAt_succ (s : S) (labels : Nat → A) (i : Nat) :
    m.answerAt s labels (i + 1) =
      m.answerAt (m.step s (labels 0)).2 (fun j => labels (j + 1)) i := by
  rw [answerAt, stateAt_succ]
  rfl

theorem stateAt_invariant {I : S → Prop} {labels : Nat → A}
    (keep : ∀ s i, I s → I (m.step s (labels i)).2) {s : S} (initial : I s) (i : Nat) :
    I (m.stateAt s labels i) := by
  induction i with
  | zero => exact initial
  | succ i ih => exact keep _ i ih

/-- When the guard is what one step needs to keep `P`, it is what the whole run needs. -/
theorem always_iff_guarded {P : S → Prop} {guard : S → A → Prop}
    (exact_step : ∀ s a, P s → (P (m.step s a).2 ↔ guard s a)) {s : S} (initial : P s)
    (labels : List A) :
    (∀ front, front <+: labels → P (m.final s front)) ↔ m.Guarded guard s labels := by
  induction labels generalizing s with
  | nil =>
    constructor
    · intro _
      trivial
    · intro _ front is_front
      cases List.prefix_nil.mp is_front
      exact initial
  | cons a rest ih =>
    constructor
    · intro always
      have next : P (m.step s a).2 := always [a] ⟨rest, rfl⟩
      refine ⟨(exact_step s a initial).mp next, (ih next).mp fun front is_front => ?_⟩
      exact always (a :: front) (List.cons_prefix_cons.mpr ⟨rfl, is_front⟩)
    · rintro ⟨met, guarded⟩ front is_front
      cases front with
      | nil => exact initial
      | cons b front =>
        obtain ⟨rfl, tail⟩ := List.cons_prefix_cons.mp is_front
        exact (ih ((exact_step s b initial).mpr met)).mpr guarded front tail

/-- The invariant rule for a guarded run: it holds after every front of the run. -/
theorem guarded_invariant {I : S → Prop} {guard : S → A → Prop}
    (keep : ∀ s a, I s → guard s a → I (m.step s a).2) {s : S} (initial : I s) {labels : List A}
    (guarded : m.Guarded guard s labels) : ∀ front, front <+: labels → I (m.final s front) := by
  induction labels generalizing s with
  | nil =>
    intro front is_front
    cases List.prefix_nil.mp is_front
    exact initial
  | cons a rest ih =>
    intro front is_front
    cases front with
    | nil => exact initial
    | cons b front =>
      obtain ⟨rfl, tail⟩ := List.cons_prefix_cons.mp is_front
      exact ih (keep s b initial guarded.1) guarded.2 front tail

/-- When the guard is what one observation needs to meet `P`, it is what all of them need. -/
theorem observed_iff_guarded {P : O → Prop} {guard : S → A → Prop} {I : S → Prop}
    (keep : ∀ s a, I s → guard s a → I (m.step s a).2)
    (exact_step : ∀ s a, I s → (P (m.step s a).1 ↔ guard s a)) {s : S} (initial : I s)
    (labels : List A) : (∀ o ∈ m.observations s labels, P o) ↔ m.Guarded guard s labels := by
  induction labels generalizing s with
  | nil =>
    constructor
    · intro _
      trivial
    · intro _ o seen
      cases seen
  | cons a rest ih =>
    rw [observations, List.forall_mem_cons]
    constructor
    · rintro ⟨met, later⟩
      have guarded := (exact_step s a initial).mp met
      exact ⟨guarded, (ih (keep s a initial guarded)).mp later⟩
    · rintro ⟨guarded, later⟩
      exact ⟨(exact_step s a initial).mpr guarded, (ih (keep s a initial guarded)).mpr later⟩

/-- A machine that hands out what it holds: nothing is lost, repeated or moved. -/
theorem observed_front {B : Type*} (m : Machine S A (List B)) {held : S → List B}
    (keep : ∀ s a, held s = (m.step s a).1 ++ held (m.step s a).2) (s : S) (labels : List A) :
    held s = (m.observations s labels).flatten ++ held (m.final s labels) := by
  induction labels generalizing s with
  | nil => rfl
  | cons a rest ih =>
    rw [observations, final, List.flatten_cons, List.append_assoc, ← ih]
    exact keep s a

/-- An acceptor reads observations one by one and may reject. -/
def Accepts (accept : T → O → Option T) : T → List O → Prop
  | _, [] => True
  | t, o :: rest => ∃ u, accept t o = some u ∧ Accepts accept u rest

instance decidableAccepts (accept : T → O → Option T) :
    (t : T) → (observed : List O) → Decidable (Accepts accept t observed)
  | _, [] => isTrue trivial
  | t, o :: rest =>
    match h : accept t o with
    | none => isFalse fun ⟨_, hu, _⟩ => absurd (h.symm.trans hu) (by simp)
    | some u =>
      have := decidableAccepts accept u rest
      decidable_of_iff (Accepts accept u rest)
        ⟨fun tail => ⟨u, h, tail⟩, fun ⟨_, hv, tail⟩ => Option.some.inj (h.symm.trans hv) ▸ tail⟩

section Comparison

variable {accept : T → O → Option T} {guard : S → A → Prop} {R : S → T → Prop}

/-- Forward simulation: under the guard each observation is accepted and `R` is kept. -/
theorem guarded_accepts
    (sim : ∀ s t a, R s t → guard s a →
      ∃ u, accept t (m.step s a).1 = some u ∧ R (m.step s a).2 u)
    {s : S} {t : T} (related : R s t) (labels : List A) (guarded : m.Guarded guard s labels) :
    Accepts accept t (m.observations s labels) := by
  induction labels generalizing s t with
  | nil => trivial
  | cons a rest ih =>
    obtain ⟨u, hu, hr⟩ := sim s t a related guarded.1
    exact ⟨u, hu, ih hr guarded.2⟩

/-- When a step outside the guard is rejected, the guard is the exact condition. -/
theorem accepts_iff_guarded
    (sim : ∀ s t a, R s t → guard s a →
      ∃ u, accept t (m.step s a).1 = some u ∧ R (m.step s a).2 u)
    (rejects : ∀ s t a, R s t → ¬ guard s a → accept t (m.step s a).1 = none)
    {s : S} {t : T} (related : R s t) (labels : List A) :
    Accepts accept t (m.observations s labels) ↔ m.Guarded guard s labels := by
  refine ⟨?_, m.guarded_accepts sim related labels⟩
  induction labels generalizing s t with
  | nil => exact fun _ => trivial
  | cons a rest ih =>
    rintro ⟨u, hu, accepted⟩
    by_cases met : guard s a
    · obtain ⟨v, hv, hr⟩ := sim s t a related met
      obtain rfl : v = u := Option.some.inj (hv.symm.trans hu)
      exact ⟨met, ih hr accepted⟩
    · exact absurd ((rejects s t a related met).symm.trans hu) (by simp)

end Comparison

end Machine

end CppMyth.Library
