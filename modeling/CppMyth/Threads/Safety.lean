import CppMyth.Threads.Latch
import Mathlib.Data.Finset.Card

/-! What every atomic step of the latch keeps, and what follows for whole runs: exclusion,
the recursion counts and the precedence of waiting exclusive requests. -/
namespace CppMyth
open Library

variable {T : Type} [DecidableEq T]

/-- The table lists exactly the holders, once each and with their counts. -/
structure Table (nodes : List (TNode T)) (held : T → Nat) : Prop where
  nodup : (nodes.map TNode.id).Nodup
  count : ∀ p ∈ nodes, p.count = held p.id ∧ 0 < p.count
  listed : ∀ t, 0 < held t → ∃ p ∈ nodes, p.id = t

namespace Table

variable {nodes : List (TNode T)} {held : T → Nat} {t : T}

omit [DecidableEq T] in
theorem absent (h : Table nodes held) (free : held t = 0) : ∀ p ∈ nodes, p.id ≠ t := by
  rintro p hp rfl
  have := h.count p hp
  omega

theorem find_none (h : Table nodes held) (free : held t = 0) :
    nodes.find? (·.id = t) = none := by
  rw [List.find?_eq_none]
  intro p hp
  simpa using h.absent free p hp

theorem find_some (h : Table nodes held) (holds : 0 < held t) :
    nodes.find? (·.id = t) = some ⟨t, held t⟩ := by
  obtain ⟨p, hp, rfl⟩ := h.listed t holds
  cases found : nodes.find? (·.id = p.id) with
  | none => simpa using List.find?_eq_none.mp found p hp
  | some q =>
    have id : q.id = p.id := by simpa using List.find?_some found
    have hq := (h.count q (List.mem_of_find?_eq_some found)).1
    rw [← id, ← hq]

theorem push (h : Table nodes held) (free : held t = 0) :
    Table (⟨t, 1⟩ :: nodes) (Function.update held t 1) := by
  have absent := h.absent free
  refine ⟨?_, ?_, ?_⟩
  · simp only [List.map_cons, List.nodup_cons, List.mem_map, not_exists, not_and]
    exact ⟨absent, h.nodup⟩
  · intro p hp
    rcases List.mem_cons.mp hp with rfl | hp
    · simp
    · rw [Function.update_of_ne (absent p hp)]
      exact h.count p hp
  · intro u hu
    by_cases same : u = t
    · exact ⟨⟨t, 1⟩, by simp, same.symm⟩
    · rw [Function.update_of_ne same] at hu
      obtain ⟨p, hp, hid⟩ := h.listed u hu
      exact ⟨p, List.mem_cons_of_mem _ hp, hid⟩

theorem recount (h : Table nodes held) (f : Nat → Nat) (holds : 0 < held t)
    (stays : 0 < f (held t)) :
    Table (nodes.map fun p => if p.id = t then { p with count := f p.count } else p)
      (Function.update held t (f (held t))) := by
  have ids : ∀ p : TNode T, (if p.id = t then { p with count := f p.count } else p).id = p.id := by
    intro p
    split <;> rfl
  refine ⟨?_, ?_, ?_⟩
  · rw [List.map_map]
    have same : (TNode.id ∘ fun p : TNode T =>
        if p.id = t then { p with count := f p.count } else p) = TNode.id := funext ids
    rw [same]
    exact h.nodup
  · intro q hq
    obtain ⟨p, hp, rfl⟩ := List.mem_map.mp hq
    have hc := h.count p hp
    by_cases same : p.id = t
    · subst same
      simp only [if_true, Function.update_self]
      exact ⟨by rw [hc.1], by rwa [hc.1]⟩
    · simp only [if_neg same, Function.update_of_ne same]
      exact hc
  · intro u hu
    have hu : 0 < held u := by
      by_cases same : u = t
      · rwa [same]
      · rwa [Function.update_of_ne same] at hu
    obtain ⟨p, hp, hid⟩ := h.listed u hu
    exact ⟨_, List.mem_map_of_mem hp, (ids p).trans hid⟩

theorem remove (h : Table nodes held) :
    Table (nodes.filter (·.id ≠ t)) (Function.update held t 0) := by
  refine ⟨?_, ?_, ?_⟩
  · exact h.nodup.sublist (List.filter_sublist.map _)
  · intro p hp
    obtain ⟨hp, other⟩ := List.mem_filter.mp hp
    rw [Function.update_of_ne (by simpa using other)]
    exact h.count p hp
  · intro u hu
    by_cases same : u = t
    · simp [same] at hu
    · rw [Function.update_of_ne same] at hu
      obtain ⟨p, hp, rfl⟩ := h.listed u hu
      exact ⟨p, List.mem_filter.mpr ⟨hp, by simpa using same⟩, rfl⟩

omit [DecidableEq T] in
theorem eq_nil_iff (h : Table nodes held) : nodes = [] ↔ ∀ t, held t = 0 := by
  constructor
  · rintro rfl t
    by_contra holds
    obtain ⟨p, hp, -⟩ := h.listed t (Nat.pos_of_ne_zero holds)
    simp at hp
  · intro none
    rw [List.eq_nil_iff_forall_not_mem]
    intro p hp
    have := h.count p hp
    have := none p.id
    omega

end Table

namespace Latch

variable {l : Latch T} {held : T → Nat} {t : T}

theorem findNode_eq (h : Table l.sNodes held) :
    l.findNode t = if 0 < held t then some t else none := by
  unfold findNode
  by_cases holds : 0 < held t
  · rw [if_pos holds, h.find_some holds]
    rfl
  · rw [if_neg holds, h.find_none (by omega)]
    rfl

theorem addCount_table (h : Table l.sNodes held) {n : Option T}
    (found : n = if 0 < held t then some t else none) :
    Table (l.addCount t n).sNodes (Function.update held t (held t + 1)) := by
  by_cases holds : 0 < held t
  · rw [if_pos holds] at found
    subst found
    exact h.recount (· + 1) holds (Nat.succ_pos _)
  · rw [if_neg holds] at found
    subst found
    have free : held t = 0 := by omega
    have others : l.sNodes.map (fun p => if p.id = t then { p with count := p.count + 1 } else p) =
        l.sNodes := by
      rw [List.map_congr_left fun p hp => if_neg (h.absent free p hp), List.map_id']
    have grown : (l.addCount t none).sNodes = ⟨t, 1⟩ :: l.sNodes := by
      simp [addCount, newNode, others]
    rw [grown, free]
    exact h.push free

structure SameFlags (l l' : Latch T) : Prop where
  px : l'.px = l.px
  xOwner : l'.xOwner = l.xOwner
  xWait : l'.xWait = l.xWait
  xFlag : l'.xFlag = l.xFlag

theorem addCount_flags (l : Latch T) (t : T) (n : Option T) : SameFlags l (l.addCount t n) := by
  unfold addCount
  constructor <;> split <;> rfl

/-- A release of one shared lock: on the last one of all, a waiting request takes over. -/
theorem unlockShared_spec (h : Table l.sNodes held) (holds : 0 < held t) :
    Table (l.unlockShared t).sNodes (Function.update held t (held t - 1)) ∧
    (SameFlags l (l.unlockShared t) ∨
      ((l.unlockShared t).px = l.px ∧ (l.unlockShared t).xOwner = l.xOwner ∧
        (l.unlockShared t).xWait = l.xWait ∧ l.xFlag = 1 ∧ (l.unlockShared t).xFlag = 3 ∧
        (l.unlockShared t).sNodes = [])) := by
  unfold unlockShared
  rw [h.find_some holds]
  simp only
  by_cases last : held t - 1 = 0
  · rw [if_pos last, last]
    have removed := h.remove (t := t)
    by_cases pending : (l.freeNode ⟨t, held t⟩).xFlag = 1 ∧
        (l.freeNode ⟨t, held t⟩).xOwner ≠ some t
    · rw [if_pos pending]
      refine ⟨removed, ?_⟩
      by_cases empty : (l.freeNode ⟨t, held t⟩).sNodes = []
      · exact .inr ⟨rfl, rfl, rfl, pending.1, if_pos empty, empty⟩
      · exact .inl ⟨rfl, rfl, rfl, if_neg empty⟩
    · rw [if_neg pending]
      exact ⟨removed, .inl ⟨rfl, rfl, rfl, rfl⟩⟩
  · rw [if_neg last]
    exact ⟨h.recount (· - 1) holds (Nat.pos_of_ne_zero last), .inl ⟨rfl, rfl, rfl, rfl⟩⟩

end Latch

/-- What holds between two atomic steps of a latch whose threads are at `stage` and hold it
`x` and `s` times. -/
structure Safe (px : Bool) (l : Latch T) (stage : T → Stage T) (x s : T → Nat) : Prop where
  mode : l.px = px
  table : Table l.sNodes s
  owner : ∀ t, l.xOwner = some t ↔ 0 < x t
  flag : ∀ t, l.xOwner = some t → l.xFlag = x t + 2
  alone : ∀ t, l.xOwner = some t → ∀ u, u ≠ t → s u = 0
  staged : ∀ t n, stage t = .lockS n →
    l.xOwner = none ∧ (l.xFlag = 1 ∨ (l.xFlag = 3 ∧ l.sNodes = []))
  unique : ∀ t u n m, stage t = .lockS n → stage u = .lockS m → t = u
  found : ∀ t n, stage t = .lockS n ∨ stage t = .sharedX n → n = if 0 < s t then some t else none
  waiters : ∃ W : Finset T, W.card = l.xWait ∧ ∀ t, t ∈ W ↔ stage t = .lockX
  unowned : l.xOwner = none →
    l.xFlag = 0 ∨ (l.xFlag = 2 ∧ 0 < l.xWait) ∨ ∃ t n, stage t = .lockS n
  pending : 0 < l.xWait → l.xFlag ≠ 0

namespace Safe

variable {px : Bool} {l : Latch T} {stage : T → Stage T} {x s : T → Nat} {t : T}

theorem recurse (h : Safe px l stage x s) (owns : l.xOwner = some t) :
    Safe px { l with xFlag := l.xFlag + 1 } stage (Function.update x t (x t + 1)) s where
  mode := h.mode
  table := h.table
  owner u := by grind [h.owner u, h.owner t, Function.update_apply]
  flag u hu := by grind [h.flag u hu, Function.update_apply]
  alone := h.alone
  staged u n hu := by grind [h.staged u n hu]
  unique := h.unique
  found := h.found
  waiters := h.waiters
  unowned none := by grind
  pending _ := Nat.succ_ne_zero _

theorem queue (h : Safe px l stage x s) (busy : l.xFlag ≠ 0) (idle : stage t = .idle) :
    Safe px { l with xWait := l.xWait + 1 } (Function.update stage t .lockX) x s where
  mode := h.mode
  table := h.table
  owner := h.owner
  flag := h.flag
  alone := h.alone
  staged u n hu := by grind [h.staged u n, Function.update_apply]
  unique u v n m hu hv := by grind [h.unique u v n m, Function.update_apply]
  found u n hu := by grind [h.found u n, Function.update_apply]
  waiters := by
    obtain ⟨W, card, mem⟩ := h.waiters
    refine ⟨insert t W, ?_, fun u => ?_⟩
    · rw [Finset.card_insert_of_notMem (by simp [mem, idle]), card]
    · grind [Function.update_apply]
  unowned none := by
    rcases h.unowned none with zero | two | ⟨u, n, hu⟩
    · exact absurd zero busy
    · exact .inr (.inl ⟨two.1, Nat.succ_pos _⟩)
    · exact .inr (.inr ⟨u, n, by grind [Function.update_apply]⟩)
  pending _ := busy

omit [DecidableEq T] in
theorem none_of_flag (h : Safe px l stage x s) (free : l.xFlag < 3) : l.xOwner = none := by
  cases hu : l.xOwner with
  | none => rfl
  | some u =>
    have := h.flag u hu
    have := (h.owner u).mp hu
    omega

/-- A thread takes the free X and is the only one to wait for the release of S. -/
theorem claim (h : Safe px l stage x s) (free : l.xFlag = 0 ∨ l.xFlag = 2) {w : Nat}
    (origin : (stage t = .idle ∧ w = l.xWait) ∨ (stage t = .lockX ∧ w = l.xWait - 1)) :
    Safe px { l with xFlag := 1, xWait := w }
      (Function.update stage t (.lockS (l.findNode t))) x s := by
  have nobody := h.none_of_flag (by omega)
  have first : ∀ u n, stage u ≠ .lockS n := by
    intro u n hu
    have := (h.staged u n hu).2
    omega
  exact {
    mode := h.mode
    table := h.table
    owner := h.owner
    flag := fun u hu => by grind
    alone := h.alone
    staged := fun u n hu => ⟨nobody, .inl rfl⟩
    unique := fun u v n m hu hv => by grind [Function.update_apply]
    found := fun u n hu => by
      by_cases same : u = t
      · subst same
        have := Latch.findNode_eq h.table (t := u)
        grind [Function.update_apply]
      · exact h.found u n (by grind [Function.update_apply])
    waiters := by
      obtain ⟨W, card, mem⟩ := h.waiters
      refine ⟨W.erase t, ?_, fun u => by grind [Function.update_apply]⟩
      rcases origin with ⟨idle, rfl⟩ | ⟨waiting, rfl⟩
      · rw [Finset.erase_eq_of_notMem (by simp [mem, idle]), card]
      · rw [Finset.card_erase_of_mem ((mem t).mpr waiting), card]
    unowned := fun _ => .inr (.inr ⟨t, l.findNode t, by simp⟩)
    pending := fun _ => Nat.one_ne_zero }

theorem grant (h : Safe px l stage x s) {n : Option T} (front : stage t = .lockS n)
    (only : ∀ u, u ≠ t → s u = 0) :
    Safe px { l with xFlag := 3, xOwner := some t } (Function.update stage t .idle)
      (Function.update x t (x t + 1)) s := by
  have nobody := (h.staged t n front).1
  have none : ∀ u, x u = 0 := fun u => by grind [h.owner u]
  exact {
    mode := h.mode
    table := h.table
    owner := fun u => by grind [Function.update_apply]
    flag := fun u hu => by grind [Function.update_apply]
    alone := fun u hu v hv => by grind
    staged := fun u n hu => by grind [h.unique u t n, Function.update_apply]
    unique := fun u v n m hu hv => by grind [h.unique u v n m, Function.update_apply]
    found := fun u n hu => by grind [h.found u n, Function.update_apply]
    waiters := by
      obtain ⟨W, card, mem⟩ := h.waiters
      exact ⟨W, card, fun u => by grind [Function.update_apply]⟩
    unowned := fun hu => by grind
    pending := fun _ => by simp }

theorem release (h : Safe px l stage x s) (owns : l.xOwner = some t) :
    Safe px { l with xOwner := none, xFlag := if l.xWait = 0 then 0 else 2 } stage
      (Function.update x t 0) s := by
  have others : ∀ u, u ≠ t → x u = 0 := fun u hu => by grind [h.owner u]
  have early : ∀ u n, stage u ≠ .lockS n := fun u n hu => by grind [h.staged u n hu]
  exact {
    mode := h.mode
    table := h.table
    owner := fun u => by grind [Function.update_apply]
    flag := fun u hu => by grind
    alone := fun u hu => by grind
    staged := fun u n hu => absurd hu (early u n)
    unique := h.unique
    found := h.found
    waiters := h.waiters
    unowned := fun _ => by grind
    pending := fun waiting => by grind }

theorem unlockOne (h : Safe px l stage x s) (owns : l.xOwner = some t) (more : 1 < x t) :
    Safe px { l with xFlag := l.xFlag - 1 } stage (Function.update x t (x t - 1)) s := by
  have deep := h.flag t owns
  exact {
    mode := h.mode
    table := h.table
    owner := fun u => by grind [h.owner u, Function.update_apply]
    flag := fun u hu => by grind [Function.update_apply]
    alone := h.alone
    staged := fun u n hu => by grind [h.staged u n hu]
    unique := h.unique
    found := h.found
    waiters := h.waiters
    unowned := fun none => by grind
    pending := fun _ => by grind }

theorem unlock (h : Safe px l stage x s) (holds : 0 < x t) :
    Safe px (l.unlock t) stage (Function.update x t (x t - 1)) s := by
  have owns := (h.owner t).mpr holds
  have deep := h.flag t owns
  unfold Latch.unlock
  rw [if_pos owns]
  by_cases last : l.xFlag - 1 = 2
  · have one : x t = 1 := by omega
    have released := h.release owns
    simp only [last, one]
    exact released
  · simp only [if_neg last]
    exact h.unlockOne owns (by omega)

theorem share (h : Safe px l stage x s) {n : Option T}
    (allowed : l.xOwner = some t ∨ l.xFlag < 2) (free : ∀ m, stage t ≠ .lockS m)
    (found : n = if 0 < s t then some t else none) (away : stage t ≠ .lockX) :
    Safe px (l.addCount t n) (Function.update stage t .idle) x
      (Function.update s t (s t + 1)) := by
  have flags := l.addCount_flags t n
  exact {
    mode := flags.px.trans h.mode
    table := Latch.addCount_table h.table found
    owner := fun u => by rw [flags.xOwner]; exact h.owner u
    flag := fun u hu => by
      rw [flags.xOwner] at hu
      rw [flags.xFlag]
      exact h.flag u hu
    alone := fun u hu v hv => by
      rw [flags.xOwner] at hu
      grind [h.alone u hu v hv, h.flag u hu, h.owner u, Function.update_apply]
    staged := fun u m hu => by
      have hu : stage u = .lockS m := by grind [Function.update_apply]
      rw [flags.xOwner, flags.xFlag]
      grind [h.staged u m hu]
    unique := fun u v n m hu hv => by grind [h.unique u v n m, Function.update_apply]
    found := fun u m hu => by grind [h.found u m, Function.update_apply]
    waiters := by
      obtain ⟨W, card, mem⟩ := h.waiters
      rw [flags.xWait]
      exact ⟨W, card, fun u => by grind [Function.update_apply]⟩
    unowned := fun none => by
      rw [flags.xOwner] at none
      rw [flags.xFlag, flags.xWait]
      rcases h.unowned none with zero | two | ⟨u, m, hu⟩
      · exact .inl zero
      · exact .inr (.inl two)
      · exact .inr (.inr ⟨u, m, by grind [Function.update_apply]⟩)
    pending := by
      rw [flags.xFlag, flags.xWait]
      exact h.pending }

theorem queueShared (h : Safe px l stage x s) {n : Option T} (free : ∀ m, stage t ≠ .lockS m)
    (found : n = if 0 < s t then some t else none) (away : stage t ≠ .lockX) :
    Safe px l (Function.update stage t (.sharedX n)) x s where
  mode := h.mode
  table := h.table
  owner := h.owner
  flag := h.flag
  alone := h.alone
  staged u m hu := by grind [h.staged u m, Function.update_apply]
  unique u v n m hu hv := by grind [h.unique u v n m, Function.update_apply]
  found u m hu := by grind [h.found u m, Function.update_apply]
  waiters := by
    obtain ⟨W, card, mem⟩ := h.waiters
    exact ⟨W, card, fun u => by grind [Function.update_apply]⟩
  unowned none := by
    rcases h.unowned none with zero | two | ⟨u, m, hu⟩
    · exact .inl zero
    · exact .inr (.inl two)
    · exact .inr (.inr ⟨u, m, by grind [Function.update_apply]⟩)
  pending := h.pending

theorem unshare (h : Safe px l stage x s) (idle : stage t = .idle) (holds : 0 < s t) :
    Safe px (l.unlockShared t) stage x (Function.update s t (s t - 1)) := by
  obtain ⟨table, change⟩ := Latch.unlockShared_spec h.table holds
  have found : ∀ u m, stage u = .lockS m ∨ stage u = .sharedX m →
      m = if 0 < Function.update s t (s t - 1) u then some u else none := fun u m hu => by
    grind [h.found u m, Function.update_apply]
  have alone : ∀ u, l.xOwner = some u → ∀ v, v ≠ u → Function.update s t (s t - 1) v = 0 :=
    fun u hu v hv => by grind [h.alone u hu v hv, Function.update_apply]
  rcases change with flags | ⟨hp, ho, hw, before, after, empty⟩
  · refine ⟨flags.px.trans h.mode, table, ?_, ?_, ?_, ?_, h.unique, found, ?_, ?_, ?_⟩
    · rw [flags.xOwner]
      exact h.owner
    · rw [flags.xOwner, flags.xFlag]
      exact h.flag
    · rw [flags.xOwner]
      exact alone
    · rw [flags.xOwner, flags.xFlag]
      intro u m hu
      refine ⟨(h.staged u m hu).1, (h.staged u m hu).2.imp_right fun ⟨three, empty⟩ => ?_⟩
      have none := h.table.eq_nil_iff.mp empty t
      omega
    · rw [flags.xWait]
      exact h.waiters
    · rw [flags.xOwner, flags.xFlag, flags.xWait]
      exact h.unowned
    · rw [flags.xFlag, flags.xWait]
      exact h.pending
  · have nobody := h.none_of_flag (by omega)
    refine ⟨hp.trans h.mode, table, ?_, ?_, ?_, ?_, h.unique, found, ?_, ?_, ?_⟩
    · rw [ho]
      exact h.owner
    · rw [ho, nobody]
      simp
    · rw [ho, nobody]
      simp
    · exact fun u m hu => ⟨ho.trans nobody, .inr ⟨after, empty⟩⟩
    · rw [hw]
      exact h.waiters
    · intro none
      have := h.unowned nobody
      grind
    · rw [after]
      simp

end Safe

namespace Threads

variable {px : Bool} {s : Threads T} {t : T}

def Invariant (px : Bool) (s : Threads T) : Prop :=
  Safe px s.latch s.stage s.xHeld s.sHeld

omit [DecidableEq T] in
theorem initial_invariant (px : Bool) (nobody : T) : (initial px nobody).Invariant px where
  mode := rfl
  table := ⟨List.nodup_nil, fun p hp => absurd hp (by simp [initial, Latch.new]),
    fun t ht => absurd ht (Nat.lt_irrefl 0)⟩
  owner t := ⟨fun h => absurd h (by simp [initial, Latch.new]), fun h => absurd h (Nat.lt_irrefl 0)⟩
  flag t h := absurd h (by simp [initial, Latch.new])
  alone t _ u _ := rfl
  staged t n h := absurd h (by simp [initial])
  unique t u n m h := absurd h (by simp [initial])
  found t n h := absurd h (by simp [initial])
  waiters := ⟨∅, rfl, by simp [initial]⟩
  unowned _ := .inl rfl
  pending h := absurd h (Nat.lt_irrefl 0)

theorem locking_xHeld (s : Threads T) (t : T) (r : Latch T × Stage T) :
    (s.locking t r).xHeld =
      if r.2 = .idle then Function.update s.xHeld t (s.xHeld t + 1) else s.xHeld := by
  funext u
  unfold locking xHeld
  split
  · by_cases same : u = t
    · simp [same]
    · simp [Function.update_of_ne same]
  · rfl

theorem sharing_sHeld (s : Threads T) (t : T) (r : Latch T × Stage T) :
    (s.sharing t r).sHeld =
      if r.2 = .idle then Function.update s.sHeld t (s.sHeld t + 1) else s.sHeld := by
  funext u
  unfold sharing sHeld
  split
  · by_cases same : u = t
    · simp [same]
    · simp [Function.update_of_ne same]
  · rfl

theorem Invariant.lockS (h : s.Invariant px) {n : Option T} (front : s.stage t = .lockS n) :
    (s.locking t (s.latch.lockS t n)).Invariant px := by
  unfold Invariant
  rw [locking_xHeld]
  unfold Latch.lockS
  split
  · rename_i only
    have alone : ∀ u, u ≠ t → s.sHeld u = 0 := by
      intro u hu
      by_contra holds
      obtain ⟨p, hp, rfl⟩ := h.table.listed u (Nat.pos_of_ne_zero holds)
      have own := h.found t n (.inl front)
      cases hs : s.latch.sNodes with
      | nil => simp [hs] at hp
      | cons q rest => grind
    exact h.grant front alone
  · have same : Function.update s.stage t (.lockS n) = s.stage := by
      rw [← front, Function.update_eq_self]
    simpa [locking, same, Invariant] using h

/-- A request for X, new or woken up: `w` requests wait when it is not counted. -/
theorem Invariant.lockX (h : s.Invariant px) {w : Nat}
    (origin : (s.stage t = .idle ∧ w = s.latch.xWait) ∨
      (s.stage t = .lockX ∧ w = s.latch.xWait - 1 ∧ 0 < s.latch.xWait)) :
    (s.locking t ({ s.latch with xWait := w + 1 }.lockX t)).Invariant px := by
  unfold Latch.lockX
  by_cases free : s.latch.xFlag = 0 ∨ s.latch.xFlag = 2
  · have claimed := h.claim free (origin.imp_right fun h => ⟨h.1, h.2.1⟩)
    let l1 : Latch T := { s.latch with xFlag := 1, xWait := w }
    let s1 : Threads T := { s with
      latch := l1, stage := Function.update s.stage t (.lockS (l1.findNode t)) }
    have front : s1.stage t = .lockS (l1.findNode t) := by simp [s1]
    have granted := Invariant.lockS (s := s1) claimed front
    simp only [if_pos free, Nat.add_sub_cancel]
    simpa [s1, locking, Function.update_idem] using granted
  · simp only [if_neg free]
    unfold Invariant
    rw [locking_xHeld]
    rcases origin with ⟨idle, rfl⟩ | ⟨waiting, rfl, some⟩
    · exact h.queue (fun zero => free (.inl zero)) idle
    · have same : Function.update s.stage t .lockX = s.stage := by
        rw [← waiting, Function.update_eq_self]
      have back : s.latch.xWait - 1 + 1 = s.latch.xWait := by omega
      simpa [locking, same, back, Invariant] using h

theorem Invariant.lock (h : s.Invariant px) (idle : s.stage t = .idle) :
    (s.locking t (s.latch.lock t)).Invariant px := by
  unfold Latch.lock
  by_cases owns : s.latch.xOwner = some t
  · rw [if_neg (not_not.mpr owns)]
    have same : Function.update s.stage t .idle = s.stage := by
      rw [← idle, Function.update_eq_self]
    unfold Invariant
    rw [locking_xHeld, if_pos rfl]
    change Safe px _ (Function.update s.stage t .idle) _ s.sHeld
    rw [same]
    exact h.recurse owns
  · rw [if_pos owns]
    exact h.lockX (.inl ⟨idle, rfl⟩)

theorem Invariant.wakeS (h : s.Invariant px) {n : Option T} (front : s.stage t = .lockS n) :
    (s.locking t (s.latch.wakeS t n)).Invariant px := by
  unfold Latch.wakeS
  by_cases handed : s.latch.xFlag = 3
  · rw [if_pos handed]
    have empty : s.latch.sNodes = [] := by
      rcases (h.staged t n front).2 with one | three
      · omega
      · exact three.2
    have granted := h.grant front fun u _ => h.table.eq_nil_iff.mp empty u
    rw [← handed] at granted
    unfold Invariant
    rw [locking_xHeld, if_pos rfl]
    exact granted
  · rw [if_neg handed]
    exact h.lockS front

theorem Invariant.sharing (h : s.Invariant px) {n : Option T}
    (allowed : s.latch.xOwner = some t ∨ s.latch.xFlag < 2) (free : ∀ m, s.stage t ≠ .lockS m)
    (found : n = if 0 < s.sHeld t then some t else none) (away : s.stage t ≠ .lockX) :
    (s.sharing t (s.latch.addCount t n, .idle)).Invariant px := by
  unfold Invariant
  rw [sharing_sHeld, if_pos rfl]
  exact h.share allowed free found away

theorem Invariant.sharedX (h : s.Invariant px) {n : Option T} (free : ∀ m, s.stage t ≠ .lockS m)
    (found : n = if 0 < s.sHeld t then some t else none) (away : s.stage t ≠ .lockX) :
    (s.sharing t (s.latch.sharedX t n)).Invariant px := by
  unfold Latch.sharedX
  simp only
  by_cases open_ : if s.latch.px = true then s.latch.xFlag = 0 ∨ s.latch.xFlag = 1 ∧ n ≠ none
      else s.latch.xFlag < 2
  · rw [if_pos open_]
    refine h.sharing (.inr ?_) free found away
    split at open_ <;> omega
  · rw [if_neg open_]
    exact h.queueShared free found away

theorem next_invariant (h : s.Invariant px) {a : Act T} (enabled : s.Enabled a) :
    (s.next a).Invariant px := by
  cases a with
  | lock t => exact h.lock enabled
  | wakeLock t =>
    rcases enabled with waiting | ⟨n, front⟩
    · simp only [next, waiting]
      obtain ⟨W, card, mem⟩ := h.waiters
      have some : 0 < s.latch.xWait := by
        rw [← card]
        exact Finset.card_pos.mpr ⟨t, (mem t).mpr waiting⟩
      have woken := h.lockX (.inr ⟨waiting, rfl, some⟩)
      rwa [Nat.sub_add_cancel some] at woken
    · simp only [next, front]
      exact h.wakeS front
  | unlock t =>
    have held : (s.next (.unlock t)).xHeld = Function.update s.xHeld t (s.xHeld t - 1) := by
      funext u
      by_cases same : u = t
      · simp [xHeld, next, same]
      · simp [xHeld, next, Function.update_of_ne same]
    unfold Invariant
    rw [held]
    exact h.unlock enabled.2
  | lockShared t =>
    have idle : s.stage t = .idle := enabled
    have free : ∀ m, s.stage t ≠ .lockS m := by simp [idle]
    have away : s.stage t ≠ .lockX := by simp [idle]
    have found := Latch.findNode_eq h.table (t := t)
    simp only [next, Latch.lockShared]
    by_cases owns : s.latch.xOwner = some t
    · rw [if_neg (not_not.mpr owns)]
      exact h.sharing (.inl owns) free found away
    · rw [if_pos owns]
      exact h.sharedX free found away
  | wakeShared t =>
    obtain ⟨n, waiting⟩ := enabled
    simp only [next, waiting]
    exact h.sharedX (by simp [waiting]) (h.found t n (.inr waiting)) (by simp [waiting])
  | unlockShared t =>
    have held : (s.next (.unlockShared t)).sHeld = Function.update s.sHeld t (s.sHeld t - 1) := by
      funext u
      by_cases same : u = t
      · simp [sHeld, next, same]
      · simp [sHeld, next, Function.update_of_ne same]
    unfold Invariant
    rw [held]
    exact h.unshare enabled.1 enabled.2
  | tryLockShared t =>
    have idle : s.stage t = .idle := enabled
    simp only [next, Latch.tryLockShared]
    by_cases allowed : s.latch.xFlag = 0 ∨ s.latch.xOwner = some t
    · simp only [if_pos allowed, if_true]
      exact h.sharing (allowed.elim (fun zero => .inr (by omega)) .inl) (by simp [idle])
        (Latch.findNode_eq h.table) (by simp [idle])
    · simp only [if_neg allowed, Bool.false_eq_true, if_false]
      exact h

theorem run_invariant {nobody : T} {labels : List (Act T)}
    (run : Run Step (initial px nobody) labels s) : s.Invariant px := by
  refine run.invariant (I := Invariant px) ?_ (initial_invariant px nobody)
  rintro u a v h ⟨enabled, rfl⟩
  exact next_invariant h enabled

/-- Over every interleaving: one exclusive holder at most, no shared holder beside it, and
the counts of the latch are those of the calls that have returned. -/
theorem latch_excludes {nobody : T} {labels : List (Act T)}
    (run : Run Step (initial px nobody) labels s) :
    (∀ t u, 0 < s.xHeld t → 0 < s.xHeld u → t = u) ∧
    (∀ t u, 0 < s.xHeld t → u ≠ t → s.sHeld u = 0) ∧
    (∀ t, s.latch.xOwner = some t ↔ 0 < s.xHeld t) ∧
    (∀ t, 0 < s.xHeld t → s.latch.xFlag = s.xHeld t + 2) ∧
    (s.latch.sNodes.map TNode.id).Nodup ∧
    (∀ p ∈ s.latch.sNodes, p.count = s.sHeld p.id) ∧
    (∀ t, (∃ p ∈ s.latch.sNodes, p.id = t) ↔ 0 < s.sHeld t) := by
  have h := run_invariant run
  refine ⟨?_, ?_, h.owner, ?_, h.table.nodup, fun p hp => (h.table.count p hp).1, ?_⟩
  · intro t u ht hu
    exact Option.some.inj (((h.owner t).mpr ht).symm.trans ((h.owner u).mpr hu))
  · exact fun t u ht hu => h.alone t ((h.owner t).mpr ht) u hu
  · exact fun t ht => h.flag t ((h.owner t).mpr ht)
  · refine fun t => ⟨?_, h.table.listed t⟩
    rintro ⟨p, hp, rfl⟩
    have := h.table.count p hp
    omega

/-- A reader, two writers that wait, and the hand-over of the released lock to the first. -/
def handover : List (Act Nat) := [.lockShared 0, .lock 1, .lock 2, .unlockShared 0, .wakeLock 1]

def handedOver : Threads Nat := handover.foldl next (initial true 0)

theorem handover_run : Run Step (initial true 0) handover handedOver :=
  .cons ⟨rfl, rfl⟩ (.cons ⟨rfl, rfl⟩ (.cons ⟨rfl, rfl⟩ (.cons ⟨⟨rfl, by decide⟩, rfl⟩
    (.cons ⟨.inr ⟨none, rfl⟩, rfl⟩ (.nil _)))))

theorem latch_excludes_handover :
    handedOver.latch.xFlag = handedOver.xHeld 1 + 2 ∧ ∀ u, u ≠ 1 → handedOver.sHeld u = 0 := by
  obtain ⟨-, alone, -, flag, -⟩ := latch_excludes handover_run
  exact ⟨flag 1 (by decide), fun u => alone 1 u (by decide)⟩

section Precedence

def Requests (s : Threads T) (w : T) : Prop := s.stage w = .lockX ∨ ∃ n, s.stage w = .lockS n

/-- The step gives a shared lock to a thread that holds none and is not the owner. -/
structure SharesFresh (s : Threads T) (a : Act T) (t : T) : Prop where
  call : a = .lockShared t ∨ a = .wakeShared t ∨ a = .tryLockShared t
  enabled : s.Enabled a
  fresh : s.sHeld t = 0
  other : s.latch.xOwner ≠ some t
  acquired : (s.next a).sHeld t = 1

def Act.thread : Act T → T
  | .lock t | .wakeLock t | .unlock t | .lockShared t | .wakeShared t | .unlockShared t
  | .tryLockShared t => t

omit [DecidableEq T] in
theorem waiting_iff (h : s.Invariant px) : 0 < s.latch.xWait ↔ ∃ w, s.stage w = .lockX := by
  obtain ⟨W, card, mem⟩ := h.waiters
  rw [← card, Finset.card_pos]
  exact exists_congr mem

omit [DecidableEq T] in
theorem flag_ne_zero (h : s.Invariant px) {w : T} (engaged : s.Requests w ∨ 0 < s.xHeld w) :
    s.latch.xFlag ≠ 0 := by
  rcases engaged with (waiting | ⟨n, front⟩) | holds
  · exact h.pending ((waiting_iff h).mpr ⟨w, waiting⟩)
  · have := (h.staged w n front).2
    omega
  · have := h.flag w ((h.owner w).mpr holds)
    omega

theorem sharing_fresh {n : Option T} (h : s.Invariant true) (fresh : s.sHeld t = 0)
    (found : n = none) (acquired : (s.sharing t (s.latch.sharedX t n)).sHeld t = 1) :
    s.latch.xFlag = 0 := by
  rw [sharing_sHeld] at acquired
  by_contra busy
  have refused : s.latch.sharedX t n = (s.latch, .sharedX n) := by
    simp [Latch.sharedX, h.mode, busy, found]
  simp [refused, fresh] at acquired

theorem fresh_free (h : s.Invariant true) {a : Act T} (shares : s.SharesFresh a t) :
    s.latch.xFlag = 0 := by
  have absent : (if 0 < s.sHeld t then some t else none) = none := by simp [shares.fresh]
  have acquired := shares.acquired
  rcases shares.call with rfl | rfl | rfl
  · simp only [next, Latch.lockShared, if_pos shares.other] at acquired
    exact sharing_fresh h shares.fresh ((Latch.findNode_eq h.table).trans absent) acquired
  · obtain ⟨n, waiting⟩ := shares.enabled
    simp only [next, waiting] at acquired
    exact sharing_fresh h shares.fresh ((h.found t n (.inr waiting)).trans absent) acquired
  · by_contra busy
    simp [next, Latch.tryLockShared, busy, shares.other, shares.fresh] at acquired

theorem next_other (s : Threads T) {a : Act T} {w : T} (other : w ≠ a.thread) :
    (s.next a).stage w = s.stage w ∧ (s.next a).xHeld w = s.xHeld w := by
  have locked : ∀ r, (s.locking a.thread r).stage w = s.stage w ∧
      (s.locking a.thread r).xHeld w = s.xHeld w := by
    intro r
    rw [locking_xHeld]
    refine ⟨Function.update_of_ne other _ _, ?_⟩
    split
    · exact Function.update_of_ne other _ _
    · rfl
  have shared : ∀ r, (s.sharing a.thread r).stage w = s.stage w ∧
      (s.sharing a.thread r).xHeld w = s.xHeld w :=
    fun r => ⟨Function.update_of_ne other _ _, rfl⟩
  cases a with
  | lock t => exact locked _
  | wakeLock t =>
    simp only [next]
    split
    · exact locked _
    · exact locked _
    · exact ⟨rfl, rfl⟩
  | unlock t => exact ⟨rfl, congrArg Ledger.held (Function.update_of_ne other _ _)⟩
  | lockShared t => exact shared _
  | wakeShared t =>
    simp only [next]
    split
    · exact shared _
    · exact ⟨rfl, rfl⟩
  | unlockShared t => exact ⟨rfl, rfl⟩
  | tryLockShared t =>
    simp only [next]
    split
    · exact shared _
    · exact ⟨rfl, rfl⟩

theorem lockX_stage (l : Latch T) (t : T) : (l.lockX t).2 = .idle ∨ (l.lockX t).2 = .lockX ∨
    ∃ n, (l.lockX t).2 = .lockS n := by
  unfold Latch.lockX Latch.lockS
  split
  · simp only
    split
    · exact .inl rfl
    · exact .inr (.inr ⟨_, rfl⟩)
  · exact .inr (.inl rfl)

theorem engaged_locking {w : T} {r : Latch T × Stage T}
    (stage : r.2 = .idle ∨ r.2 = .lockX ∨ ∃ n, r.2 = .lockS n) :
    (s.locking w r).Requests w ∨ 0 < (s.locking w r).xHeld w := by
  have at_ : (s.locking w r).stage w = r.2 := Function.update_self ..
  rcases stage with idle | waiting | ⟨n, front⟩
  · right
    rw [locking_xHeld, if_pos idle]
    simp
  · exact .inl (.inl (at_.trans waiting))
  · exact .inl (.inr ⟨n, at_.trans front⟩)

/-- Only its own last unlock ends a thread's request. -/
theorem engaged_next {a : Act T} {w : T} (enabled : s.Enabled a)
    (engaged : s.Requests w ∨ 0 < s.xHeld w) :
    (s.next a).Requests w ∨ 0 < (s.next a).xHeld w ∨
      (a = .unlock w ∧ s.xHeld w = 1 ∧ (s.next a).xHeld w = 0) := by
  by_cases own : w = a.thread
  · have idle_holds : s.stage w = .idle → 0 < s.xHeld w := fun idle =>
      engaged.resolve_left (by simp [Requests, idle])
    cases a with
    | lock t =>
      obtain rfl : w = t := own
      have stage : (s.latch.lock w).2 = .idle ∨ (s.latch.lock w).2 = .lockX ∨
          ∃ n, (s.latch.lock w).2 = .lockS n := by
        unfold Latch.lock
        split
        · exact lockX_stage _ w
        · exact .inl rfl
      exact (engaged_locking stage).imp_right .inl
    | wakeLock t =>
      obtain rfl : w = t := own
      rcases enabled with waiting | ⟨n, front⟩
      · simp only [next, waiting]
        exact (engaged_locking (lockX_stage _ w)).imp_right .inl
      · simp only [next, front]
        have stage : (s.latch.wakeS w n).2 = .idle ∨ (s.latch.wakeS w n).2 = .lockX ∨
            ∃ m, (s.latch.wakeS w n).2 = .lockS m := by
          unfold Latch.wakeS Latch.lockS
          split
          · exact .inl rfl
          · split
            · exact .inl rfl
            · exact .inr (.inr ⟨n, rfl⟩)
        exact (engaged_locking stage).imp_right .inl
    | unlock t =>
      obtain rfl : w = t := own
      have held : (s.next (.unlock w)).xHeld w = s.xHeld w - 1 := by simp [next, xHeld]
      have holds := enabled.2
      rw [held]
      by_cases last : s.xHeld w = 1
      · exact .inr (.inr ⟨rfl, last, by omega⟩)
      · exact .inr (.inl (by omega))
    | lockShared t =>
      obtain rfl : w = t := own
      exact .inr (.inl (idle_holds enabled))
    | wakeShared t =>
      obtain rfl : w = t := own
      obtain ⟨n, waiting⟩ := enabled
      have holds := engaged.resolve_left (by simp [Requests, waiting])
      simp only [next, waiting]
      exact .inr (.inl holds)
    | unlockShared t =>
      obtain rfl : w = t := own
      exact .inr (.inl (idle_holds enabled.1))
    | tryLockShared t =>
      obtain rfl : w = t := own
      have holds := idle_holds enabled
      simp only [next]
      split
      · exact .inr (.inl holds)
      · exact .inr (.inl holds)
  · obtain ⟨stage, held⟩ := s.next_other own
    unfold Requests at engaged ⊢
    rw [stage, held]
    exact engaged.imp_right .inl

/-- With precedence for X, a waiting request is not overtaken by a thread that asks for its
first shared lock, and without a writer the flag is free again. -/
theorem latch_precedence {nobody : T} {labels : List (Act T)}
    (run : Run Step (initial true nobody) labels s) :
    (0 < s.latch.xWait ↔ ∃ w, s.stage w = .lockX) ∧
    (0 < s.latch.xWait → s.latch.xFlag ≠ 0) ∧
    (∀ w, s.Requests w → ∀ later s' a t, Run Step s later s' → s'.SharesFresh a t →
      ∃ front back u, later = front ++ .unlock w :: back ∧ Run Step s front u ∧
        u.xHeld w = 1 ∧ (u.next (.unlock w)).xHeld w = 0 ∧
        Run Step (u.next (.unlock w)) back s') ∧
    (s.latch.xOwner = none → (∀ w, ¬ s.Requests w) → s.latch.xFlag = 0 ∧
      ∀ t, (s.latch.tryLockShared t).1 = true ∧ (s.latch.lockShared t).2 = .idle ∧
        ∀ n, (s.latch.sharedX t n).2 = .idle) := by
  have h := run_invariant run
  refine ⟨waiting_iff h, h.pending, ?_, ?_⟩
  · intro w requests later s' a t after shares
    have invariant : ∀ {u : Threads T} {labels}, Run Step s labels u → u.Invariant true :=
      fun run' => run_invariant (run.append run')
    have outside : ¬ (s'.Requests w ∨ 0 < s'.xHeld w) := fun engaged =>
      flag_ne_zero (invariant after) engaged (fresh_free (invariant after) shares)
    obtain ⟨front, b, back, u, v, rfl, hf, hu, ⟨enabled, rfl⟩, hv, hb⟩ :=
      after.exit (I := fun u => u.Requests w ∨ 0 < u.xHeld w) (.inl requests) outside
    rcases engaged_next enabled hu with still | still | ⟨rfl, one, zero⟩
    · exact absurd (.inl still) hv
    · exact absurd (.inr still) hv
    · exact ⟨front, back, u, rfl, hf, one, zero, hb⟩
  · intro nobody' idle
    have free : s.latch.xFlag = 0 := by
      rcases h.unowned nobody' with zero | ⟨-, waiting⟩ | ⟨w, n, front⟩
      · exact zero
      · obtain ⟨w, hw⟩ := (waiting_iff h).mp waiting
        exact absurd (.inl hw) (idle w)
      · exact absurd (.inr ⟨n, front⟩) (idle w)
    have shared : ∀ t n, (s.latch.sharedX t n).2 = .idle := by
      intro t n
      simp [Latch.sharedX, free]
    refine ⟨free, fun t => ⟨by simp [Latch.tryLockShared, free], ?_, shared t⟩⟩
    simp [Latch.lockShared, nobody', shared]

theorem latch_precedence_handover :
    handedOver.latch.xFlag ≠ 0 ∧ ∀ later s' a t, Run Step handedOver later s' →
      s'.SharesFresh a t → ∃ front back, later = front ++ .unlock 2 :: back := by
  obtain ⟨-, busy, kept, -⟩ := latch_precedence handover_run
  refine ⟨busy (by decide), fun later s' a t run shares => ?_⟩
  obtain ⟨front, back, u, split, -⟩ := kept 2 (.inl rfl) later s' a t run shares
  exact ⟨front, back, split⟩

end Precedence

end Threads

end CppMyth
