import Mathlib.Data.List.Perm.Basic
import Mathlib.Order.Basic

/-! A map as the list of its entries, in the order of their keys. What is inserted under a key
that is there already is dropped. -/
namespace CppMyth.Library

structure OrderedMap (K V : Type) [LT K] where
  entries : List (K × V)
  sorted : entries.Pairwise fun x y => x.1 < y.1

namespace OrderedMap

section

variable {K V : Type} [LT K] [DecidableLT K]

def insertEntry (entry : K × V) : List (K × V) → List (K × V)
  | [] => [entry]
  | x :: rest =>
    if x.1 < entry.1 then x :: insertEntry entry rest
    else if entry.1 < x.1 then entry :: x :: rest
    else x :: rest

def empty : OrderedMap K V := ⟨[], .nil⟩

theorem mem_insertEntry {entry x : K × V} {entries : List (K × V)}
    (mem : x ∈ insertEntry entry entries) : x = entry ∨ x ∈ entries := by
  induction entries with
  | nil => exact .inl (List.mem_singleton.mp mem)
  | cons y rest ih =>
    simp only [insertEntry] at mem
    split at mem
    · rcases List.mem_cons.mp mem with rfl | mem
      · exact .inr List.mem_cons_self
      · exact (ih mem).imp id (List.mem_cons_of_mem y)
    · split at mem
      · exact List.mem_cons.mp mem
      · exact .inr mem

variable [LE K] [Std.IsLinearOrder K] [Std.LawfulOrderLT K]

theorem insertEntry_sorted (entry : K × V) {entries : List (K × V)}
    (sorted : entries.Pairwise fun x y => x.1 < y.1) :
    (insertEntry entry entries).Pairwise fun x y => x.1 < y.1 := by
  induction entries with
  | nil => exact List.pairwise_singleton _ _
  | cons x rest ih =>
    obtain ⟨below, rest_sorted⟩ := List.pairwise_cons.mp sorted
    unfold insertEntry
    split
    · rename_i less
      refine List.pairwise_cons.mpr ⟨fun y mem => ?_, ih rest_sorted⟩
      rcases mem_insertEntry mem with rfl | mem
      · exact less
      · exact below y mem
    · split
      · rename_i less
        refine List.pairwise_cons.mpr ⟨fun y mem => ?_, sorted⟩
        rcases List.mem_cons.mp mem with rfl | mem
        · exact less
        · exact Std.lt_trans less (below y mem)
      · exact sorted

/-- An entry under a new key is added. -/
theorem insertEntry_perm {entry : K × V} {entries : List (K × V)}
    (fresh : ∀ x ∈ entries, x.1 ≠ entry.1) :
    (insertEntry entry entries).Perm (entry :: entries) := by
  induction entries with
  | nil => exact .refl _
  | cons x rest ih =>
    unfold insertEntry
    split
    · have later := ih fun y mem => fresh y (List.mem_cons_of_mem x mem)
      exact (later.cons x).trans (.swap entry x rest)
    · rename_i not_less
      split
      · exact .refl _
      · rename_i not_greater
        have same : x.1 = entry.1 :=
          Std.le_antisymm (Std.not_lt.mp not_greater) (Std.not_lt.mp not_less)
        exact absurd same (fresh x List.mem_cons_self)

def insert (map : OrderedMap K V) (entry : K × V) : OrderedMap K V :=
  ⟨insertEntry entry map.entries, insertEntry_sorted entry map.sorted⟩

/-- Entries under different keys are all in the map, whatever the order they came in. -/
theorem foldl_insert_perm {N : Type} (entry : N → K × V) (nodes : List N) (map : OrderedMap K V)
    (fresh : (map.entries.map Prod.fst ++ nodes.map fun c => (entry c).1).Nodup) :
    (nodes.foldl (fun map c => map.insert (entry c)) map).entries.Perm
      (map.entries ++ nodes.map entry) := by
  induction nodes generalizing map with
  | nil => simp
  | cons c nodes ih =>
    have absent : ∀ x ∈ map.entries, x.1 ≠ (entry c).1 := by
      intro x mem
      exact (List.nodup_append.mp fresh).2.2 x.1 (List.mem_map_of_mem mem) (entry c).1 (by simp)
    have inserted : (map.insert (entry c)).entries.Perm (entry c :: map.entries) :=
      insertEntry_perm absent
    have moved : (map.entries ++ entry c :: nodes.map entry).Perm
        (entry c :: map.entries ++ nodes.map entry) := List.perm_middle
    rw [List.foldl_cons, List.map_cons]
    refine ((ih _ ?_).trans (inserted.append_right _)).trans moved.symm
    have keys := (inserted.map Prod.fst).append_right (nodes.map fun c => (entry c).1)
    refine keys.nodup_iff.mpr ?_
    rw [List.map_cons] at fresh ⊢
    exact List.perm_middle.nodup_iff.mp fresh

end

end OrderedMap

end CppMyth.Library
