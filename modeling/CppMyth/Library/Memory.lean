import Mathlib.Tactic

/-! A memory of cells that remembers which addresses were stored to. -/
namespace CppMyth.Library

/-- `written` holds the address of every store made, the last one first. -/
structure Memory (α : Type*) where
  cell : Nat → α
  written : List Nat

namespace Memory

variable {α : Type*} {m m' m'' : Memory α} {lo hi p n : Nat} {c : α}

def put (m : Memory α) (p : Nat) (c : α) : Memory α :=
  ⟨fun q => if q = p then c else m.cell q, p :: m.written⟩

/-- One store after the other, upwards from `p`. -/
def write (m : Memory α) (p : Nat) : List α → Memory α
  | [] => m
  | c :: text => (m.put p c).write (p + 1) text

def cells (m : Memory α) (p n : Nat) : List α := (List.range n).map fun i => m.cell (p + i)

/-- From `m` to `m'` nothing was stored outside `lo .. hi`. -/
structure Within (m m' : Memory α) (lo hi : Nat) : Prop where
  unchanged : ∀ p, p < lo ∨ hi ≤ p → m'.cell p = m.cell p
  touched : ∀ p ∈ m'.written, p ∈ m.written ∨ lo ≤ p ∧ p < hi

@[simp] theorem put_cell_same : (m.put p c).cell p = c := if_pos rfl

theorem put_cell_other {q : Nat} (other : q ≠ p) : (m.put p c).cell q = m.cell q := if_neg other

@[simp] theorem cells_length : (m.cells p n).length = n := by simp [cells]

@[simp] theorem cells_getElem {i : Nat} (h : i < (m.cells p n).length) :
    (m.cells p n)[i] = m.cell (p + i) := by simp [cells]

theorem cells_succ : m.cells p (n + 1) = m.cell p :: m.cells (p + 1) n := by
  simp [cells, List.range_succ_eq_map, Nat.add_assoc, Nat.add_comm 1]

theorem write_append (m : Memory α) (p : Nat) (front back : List α) :
    m.write p (front ++ back) = (m.write p front).write (p + front.length) back := by
  induction front generalizing m p with
  | nil => rfl
  | cons c front ih =>
    rw [List.cons_append, write, ih, write, List.length_cons, Nat.add_right_comm, Nat.add_assoc]

theorem Within.refl (m : Memory α) (lo hi : Nat) : Within m m lo hi :=
  ⟨fun _ _ => rfl, fun _ mem => .inl mem⟩

theorem Within.trans (first : Within m m' lo hi) (second : Within m' m'' lo hi) :
    Within m m'' lo hi where
  unchanged p outside := (second.unchanged p outside).trans (first.unchanged p outside)
  touched p mem := by
    rcases second.touched p mem with mem | inside
    · exact first.touched p mem
    · exact .inr inside

theorem Within.mono {lo' hi' : Nat} (within : Within m m' lo hi) (below : lo' ≤ lo)
    (above : hi ≤ hi') : Within m m' lo' hi' where
  unchanged p outside := within.unchanged p (by omega)
  touched p mem := (within.touched p mem).imp_right (by omega)

theorem put_within (c : α) (above : lo ≤ p) (below : p < hi) : Within m (m.put p c) lo hi where
  unchanged q outside := put_cell_other (by omega)
  touched q mem := by
    cases mem with
    | head => exact .inr ⟨above, below⟩
    | tail _ mem => exact .inl mem

theorem write_within (m : Memory α) (p : Nat) (text : List α) :
    Within m (m.write p text) p (p + text.length) := by
  induction text generalizing m p with
  | nil => exact .refl m p p
  | cons c text ih =>
    rw [List.length_cons]
    apply Within.trans
    · exact put_within c (Nat.le_refl p) (by omega)
    · exact (ih (m.put p c) (p + 1)).mono (Nat.le_succ p) (by omega)

theorem cells_write (m : Memory α) (p : Nat) (text : List α) :
    (m.write p text).cells p text.length = text := by
  induction text generalizing m p with
  | nil => rfl
  | cons c text ih =>
    have first := (write_within (m.put p c) (p + 1) text).unchanged p (.inl (Nat.lt_succ_self p))
    rw [List.length_cons, cells_succ, write, ih, first, put_cell_same]

end Memory
end CppMyth.Library
