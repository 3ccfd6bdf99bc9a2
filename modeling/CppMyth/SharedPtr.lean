import Mathlib.Data.List.Nodup
import Mathlib.Tactic

/-! Shared pointers, `mythsharedptr.h` and `mythsharedptr.cpp`: handles over raw objects, with a
counter for each object. Memory is explicit, and whatever touches a deleted counter has no
result. -/
namespace CppMyth

/-- A counter by its address; `none` once it is deleted. -/
abbrev Counters := List (Option Int32)

/-- `OS::Atomic::fetch_add`, with the value before it. An atomic `int` wraps. -/
def fetchAdd (counters : Counters) (a : Nat) (amount : Int32) : Option (Int32 × Counters) :=
  match counters[a]? with
  | some (some value) => some (value, counters.set a (some (value + amount)))
  | _ => none

/-! `refcount` is the address of its counter, or null. -/
namespace RefCount

def copy (counters : Counters) : Option Nat → Option (Option Nat × Counters)
  | none => some (none, counters)
  | some a => do
    let (before, counters) ← fetchAdd counters a 1
    some (if before < 1 then none else some a, counters)

/-- The first component says that the counter is destroyed. -/
def reset (counters : Counters) : Option Nat → Option (Bool × Counters)
  | none => some (false, counters)
  | some a => do
    let (before, counters) ← fetchAdd counters a (-1)
    if before = 1 then some (true, counters.set a none) else some (false, counters)

/-- `operator=` of two different counts. -/
def assign (counters : Counters) (pc s : Option Nat) : Option (Option Nat × Counters) := do
  let (_, counters) ← reset counters pc
  copy counters s

def renew (counters : Counters) : Option Nat → Option Nat × Counters
  | none => (some counters.length, counters ++ [some 1])
  | some a => (some a, counters)

def getCount (counters : Counters) : Option Nat → Option Int32
  | none => some 0
  | some a => counters[a]?.join

end RefCount

structure SharedPtr (O : Type) where
  p : Option O
  pc : Option Nat
  deriving DecidableEq

/-- `deletions` lists the objects that were deleted, in order. -/
structure Memory (O : Type) where
  counters : Counters
  deletions : List O
  deriving DecidableEq

variable {O : Type}

namespace SharedPtr

def null : SharedPtr O := ⟨none, none⟩

/-- The constructor from a raw object. -/
def ofRaw [DecidableEq O] (m : Memory O) (s : Option O) : SharedPtr O × Memory O :=
  if s ≠ none then
    let renewed := RefCount.renew m.counters none
    (⟨s, renewed.1⟩, { m with counters := renewed.2 })
  else (⟨s, none⟩, m)

def copy (m : Memory O) (s : SharedPtr O) : Option (SharedPtr O × Memory O) := do
  let (pc, counters) ← RefCount.copy m.counters s.pc
  some (⟨if pc = none then none else s.p, pc⟩, { m with counters })

def reset (m : Memory O) (x : SharedPtr O) : Option (SharedPtr O × Memory O) := do
  let (destroyed, counters) ← RefCount.reset m.counters x.pc
  some (null, { counters, deletions := m.deletions ++ if destroyed then x.p.toList else [] })

/-- `operator=` of two different handles. -/
def assign (m : Memory O) (x s : SharedPtr O) : Option (SharedPtr O × Memory O) := do
  let (x, m) ← x.reset m
  let (pc, counters) ← RefCount.assign m.counters x.pc s.pc
  some (⟨if pc = none then none else s.p, pc⟩, { m with counters })

/-- `reset` to a raw object. -/
def resetTo [DecidableEq O] (m : Memory O) (x : SharedPtr O) (s : Option O) :
    Option (SharedPtr O × Memory O) :=
  if x.p ≠ s then do
    let (x, m) ← x.reset m
    if s ≠ none then
      let renewed := RefCount.renew m.counters x.pc
      some (⟨s, renewed.1⟩, { m with counters := renewed.2 })
    else some (⟨s, x.pc⟩, m)
  else some (x, m)

def swap (x s : SharedPtr O) : SharedPtr O × SharedPtr O :=
  (⟨if s.pc = none then none else s.p, s.pc⟩, ⟨x.p, x.pc⟩)

def useCount (m : Memory O) (x : SharedPtr O) : Option Int32 := RefCount.getCount m.counters x.pc

end SharedPtr

/-- The handles in the order of their construction, `none` once destroyed, and the raw objects
that were handed over, in order. -/
structure SharedHeap (O : Type) where
  handles : List (Option (SharedPtr O))
  memory : Memory O
  given : List O
  deriving DecidableEq

inductive PtrOp (O : Type) where
  | default
  | raw (s : Option O)
  | copy (g : Nat)
  | assign (h g : Nat)
  | moveAssign (h g : Nat)
  | swap (h g : Nat)
  | reset (h : Nat)
  | resetTo (h : Nat) (s : Option O)
  | destroy (h : Nat)
  deriving DecidableEq

namespace SharedHeap

def initial : SharedHeap O := ⟨[], ⟨[], []⟩, []⟩

def handle (s : SharedHeap O) (h : Nat) : Option (SharedPtr O) := s.handles[h]?.join

/-- The handle `h` gets the value `x`, and the memory is `m`. -/
def store (s : SharedHeap O) (h : Nat) (x : Option (SharedPtr O)) (m : Memory O) : SharedHeap O :=
  { s with handles := s.handles.set h x, memory := m }

def construct (s : SharedHeap O) (x : SharedPtr O) (m : Memory O) : SharedHeap O :=
  { s with handles := s.handles ++ [some x], memory := m }

/-- A raw object is handed over once. -/
def Fresh (s : SharedHeap O) (r : Option O) : Prop := ∀ o ∈ r, o ∉ s.given

instance [DecidableEq O] (s : SharedHeap O) (r : Option O) : Decidable (s.Fresh r) :=
  inferInstanceAs (Decidable (∀ o ∈ r, o ∉ s.given))

def swapHandles (s : SharedHeap O) (h g : Nat) (x y : SharedPtr O) : SharedHeap O :=
  let swapped := x.swap y
  (s.store g (some swapped.2) s.memory).store h (some swapped.1) s.memory

/-- One operation; `none` when it is undefined. What a program cannot do (use a handle that is
not there, hand over an object again) changes nothing. -/
def exec [DecidableEq O] (s : SharedHeap O) : PtrOp O → Option (SharedHeap O)
  | .default => some (s.construct .null s.memory)
  | .raw r =>
    if s.Fresh r then
      let made := SharedPtr.ofRaw s.memory r
      some { s.construct made.1 made.2 with given := s.given ++ r.toList }
    else some s
  | .copy g =>
    match s.handle g with
    | none => some s
    | some y => do
      let (x, m) ← y.copy s.memory
      some (s.construct x m)
  | .assign h g =>
    match s.handle h, s.handle g with
    | some x, some y =>
      if h ≠ g then do
        let (x, m) ← x.assign s.memory y
        some (s.store h (some x) m)
      else some s
    | _, _ => some s
  | .moveAssign h g =>
    match s.handle h, s.handle g with
    | some x, some y => if h ≠ g then some (s.swapHandles h g x y) else some s
    | _, _ => some s
  | .swap h g =>
    match s.handle h, s.handle g with
    | some x, some y => some (s.swapHandles h g x y)
    | _, _ => some s
  | .reset h =>
    match s.handle h with
    | none => some s
    | some x => do
      let (x, m) ← x.reset s.memory
      some (s.store h (some x) m)
  | .resetTo h r =>
    match s.handle h with
    | none => some s
    | some x =>
      if s.Fresh r then do
        let (x, m) ← x.resetTo s.memory r
        some { s.store h (some x) m with given := s.given ++ r.toList }
      else some s
  | .destroy h =>
    match s.handle h with
    | none => some s
    | some x => do
      let (_, m) ← x.reset s.memory
      some (s.store h none m)

def run [DecidableEq O] (s : SharedHeap O) : List (PtrOp O) → Option (SharedHeap O)
  | [] => some s
  | op :: rest => do
    let s ← s.exec op
    s.run rest

/-- The handles that share the counter at `a`. -/
def refs (s : SharedHeap O) (a : Nat) : Nat :=
  s.handles.countP fun x => x.bind SharedPtr.pc = some a

/-- The handles that refer to the object. -/
def holders [DecidableEq O] (s : SharedHeap O) (o : O) : Nat :=
  s.handles.countP fun x => x.bind SharedPtr.p = some o

/-- No object has `n` handles. -/
def Within [DecidableEq O] (s : SharedHeap O) (n : Nat) : Prop := ∀ o, s.holders o < n

/-- Counters are allocated one for each object, so the address of a counter is the position of
its object among those handed over. -/
structure Sound [DecidableEq O] (s : SharedHeap O) : Prop where
  nodup : s.given.Nodup
  length : s.memory.counters.length = s.given.length
  points : ∀ x, some x ∈ s.handles →
    x = .null ∨ ∃ a o, x = ⟨some o, some a⟩ ∧ s.given[a]? = some o
  counted : ∀ a, a < s.given.length →
    s.memory.counters[a]? = some (if s.refs a = 0 then none else some (.ofNat (s.refs a)))
  room : ∀ a, s.refs a < 2 ^ 31
  deleted : ∀ a o, s.given[a]? = some o →
    s.memory.deletions.count o = if s.refs a = 0 then 1 else 0
  foreign : ∀ o ∈ s.memory.deletions, o ∈ s.given

theorem handle_eq {s : SharedHeap O} {h : Nat} {x : SharedPtr O} (found : s.handle h = some x) :
    s.handles[h]? = some (some x) := Option.join_eq_some_iff.mp found

theorem handle_mem {s : SharedHeap O} {h : Nat} {x : SharedPtr O} (found : s.handle h = some x) :
    some x ∈ s.handles := List.mem_of_getElem? (handle_eq found)

theorem mem_store {s : SharedHeap O} {h : Nat} {y : Option (SharedPtr O)} {m : Memory O}
    {x : SharedPtr O} (held : some x ∈ (s.store h y m).handles) :
    some x ∈ s.handles ∨ some x = y := List.mem_or_eq_of_mem_set held

theorem fetchAdd_some {counters : Counters} {a : Nat} {value : Int32}
    (live : counters[a]? = some (some value)) (amount : Int32) :
    fetchAdd counters a amount = some (value, counters.set a (some (value + amount))) := by
  simp only [fetchAdd, live]

theorem ofNat_ne_one {n : Nat} (small : n < 2 ^ 31) (several : n ≠ 1) : Int32.ofNat n ≠ 1 := by
  intro one
  have value := congrArg Int32.toInt one
  rw [Int32.toInt_ofNat_of_lt small] at value
  exact several (Int.ofNat.inj value)

theorem ofNat_not_lt_one {n : Nat} (small : n < 2 ^ 31) (positive : 0 < n) :
    ¬ Int32.ofNat n < 1 := by
  rw [Int32.lt_iff_toInt_lt, Int32.toInt_ofNat_of_lt small]
  change ¬ (n : Int) < 1
  omega

theorem ofNat_succ_pred (n : Nat) : Int32.ofNat (n + 1) + -1 = Int32.ofNat n := by
  rw [Int32.ofNat_add, Int32.add_assoc]
  exact Int32.add_zero _

/-- Replacing one slot moves one from the count of the old value to that of the new. -/
theorem countP_store {α : Type*} (p : α → Bool) {l : List α} {h : Nat} {x : α}
    (found : l[h]? = some x) (y : α) :
    (l.set h y).countP p + (if p x then 1 else 0) = l.countP p + (if p y then 1 else 0) := by
  obtain ⟨inside, rfl⟩ := List.getElem?_eq_some_iff.mp found
  have present := List.boole_getElem_le_countP (p := p) inside
  rw [List.countP_set inside]
  omega

theorem refs_store {s : SharedHeap O} {h : Nat} {x : SharedPtr O} (found : s.handle h = some x)
    (y : Option (SharedPtr O)) (m : Memory O) (a : Nat) :
    (s.store h y m).refs a + (if x.pc = some a then 1 else 0) =
      s.refs a + (if y.bind SharedPtr.pc = some a then 1 else 0) := by
  have moved := countP_store (fun x : Option (SharedPtr O) => decide (x.bind SharedPtr.pc = some a))
    (handle_eq found) y
  simp only [decide_eq_true_eq] at moved
  exact moved

theorem refs_pos {s : SharedHeap O} {x : SharedPtr O} (held : some x ∈ s.handles) {a : Nat}
    (refers : x.pc = some a) : 0 < s.refs a :=
  List.countP_pos_iff.mpr ⟨some x, held, by simp [refers]⟩

theorem construct_handle (s : SharedHeap O) (x : SharedPtr O) (m : Memory O) :
    (s.construct x m).handle s.handles.length = some x := by
  simp [handle, construct]

theorem construct_store (s : SharedHeap O) (x y : SharedPtr O) (m m' : Memory O) :
    (s.construct x m).store s.handles.length (some y) m' = s.construct y m' := by
  simp [construct, store]

theorem store_handle {s : SharedHeap O} {h : Nat} {x : SharedPtr O} (found : s.handle h = some x)
    (y : SharedPtr O) (m : Memory O) : (s.store h (some y) m).handle h = some y := by
  have inside := (List.getElem?_eq_some_iff.mp (handle_eq found)).1
  simp [handle, store, inside]

theorem store_handle_ne {s : SharedHeap O} {h g : Nat} (apart : h ≠ g)
    (y : Option (SharedPtr O)) (m : Memory O) : (s.store h y m).handle g = s.handle g := by
  simp [handle, store, List.getElem?_set_ne apart]

theorem store_store (s : SharedHeap O) (h : Nat) (x y : Option (SharedPtr O)) (m m' : Memory O) :
    (s.store h x m).store h y m' = s.store h y m' := by
  simp [store]

/-- The handle `h` takes a raw object, with a new counter. -/
def adopt (s : SharedHeap O) (h : Nat) (o : O) : SharedHeap O :=
  { s.store h (some ⟨some o, some s.memory.counters.length⟩)
      { s.memory with counters := s.memory.counters ++ [some 1] } with given := s.given ++ [o] }

theorem adopt_refs {s : SharedHeap O} {h : Nat} (free : s.handle h = some .null) (o : O) (b : Nat) :
    (s.adopt h o).refs b = s.refs b + (if s.memory.counters.length = b then 1 else 0) := by
  have moved := refs_store free (some ⟨some o, some s.memory.counters.length⟩)
    { s.memory with counters := s.memory.counters ++ [some 1] } b
  simp only [SharedPtr.null, reduceCtorEq, if_false, Option.bind_some, Option.some.injEq] at moved
  exact moved

theorem assign_eq {m m' : Memory O} {x : SharedPtr O} (reset : x.reset m = some (.null, m'))
    (y : SharedPtr O) : x.assign m y = y.copy m' := by
  simp only [SharedPtr.assign, reset, Option.bind_eq_bind, Option.bind_some, RefCount.assign,
    SharedPtr.null, RefCount.reset]
  rfl

theorem store_same {s : SharedHeap O} {h : Nat} {x : SharedPtr O} (found : s.handle h = some x) :
    s.store h (some x) s.memory = s := by
  obtain ⟨inside, same⟩ := List.getElem?_eq_some_iff.mp (handle_eq found)
  have unchanged : s.handles.set h (some x) = s.handles := same ▸ List.set_getElem_self inside
  simp only [store, unchanged]

section

variable [DecidableEq O]

/-- The handles of an object are those that share its counter. -/
theorem holders_eq_refs {s : SharedHeap O} (nodup : s.given.Nodup)
    (points : ∀ x, some x ∈ s.handles →
      x = .null ∨ ∃ a o, x = ⟨some o, some a⟩ ∧ s.given[a]? = some o)
    {a : Nat} {o : O} (made : s.given[a]? = some o) : s.holders o = s.refs a := by
  apply List.countP_congr
  intro x held
  cases x with
  | none => simp
  | some x =>
    simp only [Option.bind_some, decide_eq_true_eq]
    rcases points x held with rfl | ⟨b, r, rfl, made'⟩
    · simp [SharedPtr.null]
    · constructor
      · intro same
        obtain rfl : r = o := Option.some.inj same
        obtain ⟨inside, found⟩ := List.getElem?_eq_some_iff.mp made
        obtain ⟨inside', found'⟩ := List.getElem?_eq_some_iff.mp made'
        exact congrArg some (nodup.getElem_inj_iff.mp (found'.trans found.symm))
      · intro same
        obtain rfl : b = a := Option.some.inj same
        exact made'.symm.trans made

/-- Handles that are null may come and go, and others may change places. -/
theorem Sound.of_handles {s s' : SharedHeap O} (sound : s.Sound) (memory : s'.memory = s.memory)
    (given : s'.given = s.given)
    (points : ∀ x, some x ∈ s'.handles → x = .null ∨ some x ∈ s.handles)
    (refs : ∀ a, s'.refs a = s.refs a) : s'.Sound := by
  constructor
  · rw [given]
    exact sound.nodup
  · rw [memory, given]
    exact sound.length
  · intro x held
    rw [given]
    cases points x held with
    | inl null => exact .inl null
    | inr held => exact sound.points x held
  · rw [memory, given]
    intro a inside
    rw [refs a]
    exact sound.counted a inside
  · intro a
    rw [refs a]
    exact sound.room a
  · rw [memory, given]
    intro a o made
    rw [refs a]
    exact sound.deleted a o made
  · rw [memory, given]
    exact sound.foreign

theorem Sound.inside {s : SharedHeap O} (sound : s.Sound) {a : Nat} {o : O}
    (made : s.given[a]? = some o) : a < s.memory.counters.length := by
  rw [sound.length]
  exact (List.getElem?_eq_some_iff.mp made).1

theorem Sound.value {s : SharedHeap O} (sound : s.Sound) {a : Nat} {o : O}
    (made : s.given[a]? = some o) (live : 0 < s.refs a) :
    s.memory.counters[a]? = some (some (.ofNat (s.refs a))) := by
  have value := sound.counted a (List.getElem?_eq_some_iff.mp made).1
  rwa [if_neg (Nat.pos_iff_ne_zero.mp live)] at value

/-- The number of handles of one object changes, and its counter follows. -/
theorem Sound.of_counter {s s' : SharedHeap O} (sound : s.Sound) {a : Nat} {o : O}
    (made : s.given[a]? = some o) (live : 0 < s.refs a) (given : s'.given = s.given)
    (points : ∀ x, some x ∈ s'.handles → x = .null ∨ x = ⟨some o, some a⟩ ∨ some x ∈ s.handles)
    (refs : ∀ b, b ≠ a → s'.refs b = s.refs b) (room : s'.refs a < 2 ^ 31)
    (counters : s'.memory.counters =
      s.memory.counters.set a (if s'.refs a = 0 then none else some (.ofNat (s'.refs a))))
    (deletions : s'.memory.deletions = s.memory.deletions ++ if s'.refs a = 0 then [o] else []) :
    s'.Sound := by
  constructor
  · rw [given]
    exact sound.nodup
  · rw [counters, List.length_set, given]
    exact sound.length
  · intro x held
    rw [given]
    rcases points x held with null | rfl | held
    · exact .inl null
    · exact .inr ⟨a, o, rfl, made⟩
    · exact sound.points x held
  · intro b inside
    rw [given] at inside
    rw [counters]
    by_cases same : b = a
    · subst same
      rw [List.getElem?_set_self (sound.inside made)]
    · rw [List.getElem?_set_ne (Ne.symm same), refs b same]
      exact sound.counted b inside
  · intro b
    by_cases same : b = a
    · rw [same]
      exact room
    · rw [refs b same]
      exact sound.room b
  · intro b r made'
    rw [given] at made'
    have before := sound.deleted b r made'
    rw [deletions, List.count_append, before]
    by_cases same : b = a
    · subst same
      obtain rfl : o = r := Option.some.inj (made.symm.trans made')
      rw [if_neg (Nat.pos_iff_ne_zero.mp live)]
      split <;> simp
    · have apart : o ≠ r := by
        rintro rfl
        obtain ⟨inside, found⟩ := List.getElem?_eq_some_iff.mp made
        obtain ⟨inside', found'⟩ := List.getElem?_eq_some_iff.mp made'
        exact same ((sound.nodup.getElem_inj_iff).mp (found'.trans found.symm))
      have alone : (if s'.refs a = 0 then [o] else []).count r = 0 := by
        split <;> simp [apart]
      rw [refs b same, alone, Nat.add_zero]
  · intro r deleted
    rw [deletions, List.mem_append] at deleted
    rw [given]
    cases deleted with
    | inl before => exact sound.foreign r before
    | inr now =>
      split at now
      · rw [List.mem_singleton.mp now]
        exact List.mem_of_getElem? made
      · cases now

/-- What a reset does: the last handle takes counter and object with it. -/
theorem reset_sound {s : SharedHeap O} (sound : s.Sound) {h : Nat} {x : SharedPtr O}
    (found : s.handle h = some x) :
    ∃ m, x.reset s.memory = some (.null, m) ∧ (s.store h (some .null) m).Sound := by
  rcases sound.points x (handle_mem found) with rfl | ⟨a, o, rfl, made⟩
  · refine ⟨s.memory, ?_, ?_⟩
    · simp [SharedPtr.reset, SharedPtr.null, RefCount.reset]
    · apply sound.of_handles
      · rfl
      · rfl
      · intro x held
        rcases mem_store held with held | same
        · exact .inr held
        · exact .inl (Option.some.inj same)
      · intro a
        have moved := refs_store found (some .null) s.memory a
        simpa [SharedPtr.null] using moved
  · have live := refs_pos (handle_mem found) rfl
    have value := sound.value made live
    have moved (m : Memory O) (b : Nat) :
        (s.store h (some .null) m).refs b + (if a = b then 1 else 0) = s.refs b := by
      have moved := refs_store found (some .null) m b
      simpa [SharedPtr.null] using moved
    obtain ⟨n, total⟩ : ∃ n, s.refs a = n + 1 := ⟨_, (Nat.succ_pred_eq_of_pos live).symm⟩
    have left (m : Memory O) : (s.store h (some .null) m).refs a = n := by
      have left := moved m a
      rw [if_pos rfl, total] at left
      exact Nat.succ.inj left
    have room := sound.room a
    have stored (m : Memory O)
        (counters : m.counters =
          s.memory.counters.set a (if n = 0 then none else some (.ofNat n)))
        (deletions : m.deletions = s.memory.deletions ++ if n = 0 then [o] else []) :
        (s.store h (some .null) m).Sound := by
      refine sound.of_counter made live rfl ?_ ?_ ?_ ?_ ?_
      · intro x held
        cases mem_store held with
        | inl held => exact .inr (.inr held)
        | inr same => exact .inl (Option.some.inj same)
      · intro b apart
        have same := moved m b
        rwa [if_neg (Ne.symm apart), Nat.add_zero] at same
      · rw [left m]
        omega
      · rw [left m]
        exact counters
      · rw [left m]
        exact deletions
    rw [total] at value room
    simp only [SharedPtr.reset, RefCount.reset, fetchAdd_some value, Option.bind_eq_bind,
      Option.bind_some]
    cases n with
    | zero =>
      have one : Int32.ofNat (0 + 1) = 1 := rfl
      rw [if_pos one]
      exact ⟨_, rfl, stored _ (List.set_set _) rfl⟩
    | succ n =>
      rw [if_neg (ofNat_ne_one room (by omega))]
      refine ⟨_, rfl, stored _ ?_ rfl⟩
      rw [ofNat_succ_pred]
      rfl

/-- A null handle that takes the value of another one is one more handle of its object. The
counter follows as long as it can count the handles. -/
theorem copy_sound {s : SharedHeap O} (sound : s.Sound) {h : Nat} (free : s.handle h = some .null)
    {y : SharedPtr O} (source : some y ∈ s.handles) :
    ∃ m, y.copy s.memory = some (y, m) ∧
      (s.store h (some y) m |>.Within (2 ^ 31) → (s.store h (some y) m).Sound) := by
  rcases sound.points y source with rfl | ⟨a, o, rfl, made⟩
  · refine ⟨s.memory, ?_, fun _ => ?_⟩
    · simp [SharedPtr.copy, SharedPtr.null, RefCount.copy]
    · apply sound.of_handles
      · rfl
      · rfl
      · intro x held
        rcases mem_store held with held | same
        · exact .inr held
        · exact .inl (Option.some.inj same)
      · intro a
        have moved := refs_store free (some .null) s.memory a
        simpa [SharedPtr.null] using moved
  · have live := refs_pos source rfl
    have value := sound.value made live
    have moved (m : Memory O) (b : Nat) :
        (s.store h (some ⟨some o, some a⟩) m).refs b = s.refs b + (if a = b then 1 else 0) := by
      have moved := refs_store free (some ⟨some o, some a⟩) m b
      simpa [SharedPtr.null] using moved
    have counts (m : Memory O) (within : (s.store h (some ⟨some o, some a⟩) m).Within (2 ^ 31)) :
        (s.store h (some ⟨some o, some a⟩) m).refs a < 2 ^ 31 := by
      rw [← holders_eq_refs (s := s.store h (some ⟨some o, some a⟩) m) sound.nodup ?_ made]
      · exact within o
      · intro x held
        rcases mem_store held with held | same
        · exact sound.points x held
        · exact .inr ⟨a, o, Option.some.inj same, made⟩
    simp only [SharedPtr.copy, RefCount.copy, fetchAdd_some value, Option.bind_eq_bind,
      Option.bind_some, if_neg (ofNat_not_lt_one (sound.room a) live)]
    refine ⟨_, rfl, fun within => sound.of_counter made live ?_ ?_ ?_ ?_ ?_ ?_⟩
    · rfl
    · intro x held
      cases mem_store held with
      | inl held => exact .inr (.inr held)
      | inr same => exact .inr (.inl (Option.some.inj same))
    · intro b apart
      rw [moved, if_neg (Ne.symm apart), Nat.add_zero]
    · exact counts _ within
    · rw [moved, if_pos rfl, if_neg (Nat.succ_ne_zero _), Int32.ofNat_add]
      rfl
    · rw [moved, if_pos rfl, if_neg (Nat.succ_ne_zero _), List.append_nil]
      rfl

theorem Sound.unused {s : SharedHeap O} (sound : s.Sound) :
    s.refs s.memory.counters.length = 0 := by
  apply List.countP_eq_zero.mpr
  intro x held refers
  cases x with
  | none => simp at refers
  | some x =>
    rcases sound.points x held with rfl | ⟨a, r, rfl, made⟩
    · simp [SharedPtr.null] at refers
    · have inside := sound.inside made
      obtain rfl : a = s.memory.counters.length := by simpa using refers
      exact Nat.lt_irrefl _ inside

theorem adopt_sound {s : SharedHeap O} (sound : s.Sound) {h : Nat} (free : s.handle h = some .null)
    {o : O} (fresh : o ∉ s.given) : (s.adopt h o).Sound := by
  have unused := sound.unused
  have length := sound.length
  constructor
  · refine List.nodup_append.mpr ⟨sound.nodup, by simp, ?_⟩
    intro r old r' new
    obtain rfl := List.mem_singleton.mp new
    exact ne_of_mem_of_not_mem old fresh
  · simp only [adopt, store, List.length_append, length]
    rfl
  · intro x held
    rcases List.mem_or_eq_of_mem_set held with held | same
    · cases sound.points x held with
      | inl null => exact .inl null
      | inr points =>
        obtain ⟨a, r, rfl, made⟩ := points
        exact .inr ⟨a, r, rfl, (List.getElem?_append_left
          (List.getElem?_eq_some_iff.mp made).1).trans made⟩
    · refine .inr ⟨s.memory.counters.length, o, Option.some.inj same, ?_⟩
      rw [length]
      exact List.getElem?_concat_length
  · intro a inside
    rw [adopt_refs free]
    by_cases new : s.memory.counters.length = a
    · subst new
      rw [unused, if_pos rfl, if_neg (by simp)]
      exact List.getElem?_concat_length
    · rw [if_neg new, Nat.add_zero]
      have old : a < s.given.length := by
        simp only [adopt, store, List.length_append, List.length_singleton] at inside
        omega
      exact (List.getElem?_append_left (length ▸ old)).trans (sound.counted a old)
  · intro a
    rw [adopt_refs free]
    by_cases new : s.memory.counters.length = a
    · subst new
      rw [unused, if_pos rfl]
      decide
    · rw [if_neg new]
      exact sound.room a
  · intro a r made
    rw [adopt_refs free]
    by_cases new : s.memory.counters.length = a
    · subst new
      obtain rfl : o = r := by
        rw [length] at made
        exact Option.some.inj (List.getElem?_concat_length.symm.trans made)
      rw [unused, if_pos rfl, if_neg (by simp)]
      exact List.count_eq_zero.mpr fun deleted => fresh (sound.foreign o deleted)
    · rw [if_neg new, Nat.add_zero]
      have old : a < s.given.length := by
        have inside := (List.getElem?_eq_some_iff.mp made).1
        simp only [adopt, store, List.length_append, List.length_singleton] at inside
        omega
      exact sound.deleted a r ((List.getElem?_append_left old).symm.trans made)
  · intro r deleted
    exact List.mem_append_left _ (sound.foreign r deleted)

/-- A handle may be constructed null, or end when it is null. -/
theorem construct_sound {s : SharedHeap O} (sound : s.Sound) :
    (s.construct .null s.memory).Sound := by
  apply sound.of_handles
  · rfl
  · rfl
  · intro x held
    rcases List.mem_append.mp held with held | new
    · exact .inr held
    · exact .inl (Option.some.inj (List.mem_singleton.mp new))
  · intro a
    simp [refs, construct, SharedPtr.null]

theorem destroy_sound {s : SharedHeap O} (sound : s.Sound) {h : Nat}
    (free : s.handle h = some .null) : (s.store h none s.memory).Sound := by
  apply sound.of_handles
  · rfl
  · rfl
  · intro x held
    cases mem_store held with
    | inl held => exact .inr held
    | inr same => cases same
  · intro a
    have moved := refs_store free none s.memory a
    simpa [SharedPtr.null] using moved

theorem Sound.null_iff {s : SharedHeap O} (sound : s.Sound) {x : SharedPtr O}
    (held : some x ∈ s.handles) : x.p = none ↔ x.pc = none := by
  rcases sound.points x held with rfl | ⟨a, o, rfl, -⟩
  · exact iff_of_true rfl rfl
  · exact iff_of_false (by simp) (by simp)

/-- A sound handle with no counter has no object, so a swap only exchanges the two. -/
theorem swap_eq {s : SharedHeap O} (sound : s.Sound) {y : SharedPtr O}
    (held : some y ∈ s.handles) (x : SharedPtr O) : x.swap y = (y, x) := by
  obtain ⟨p, pc⟩ := y
  have null := sound.null_iff held
  simp only [SharedPtr.swap, Prod.mk.injEq, and_true, SharedPtr.mk.injEq]
  split
  · rename_i none
    exact (null.mpr none).symm
  · rfl

theorem swap_sound {s : SharedHeap O} (sound : s.Sound) {h g : Nat} {x y : SharedPtr O}
    (hx : s.handle h = some x) (hy : s.handle g = some y) : (s.swapHandles h g x y).Sound := by
  have held : (s.store g (some x) s.memory).handle h = some x := by
    by_cases same : g = h
    · subst same
      exact store_handle hx x s.memory
    · rw [store_handle_ne same]
      exact hx
  simp only [swapHandles, swap_eq sound (handle_mem hy)]
  apply sound.of_handles
  · rfl
  · rfl
  · intro z old
    rcases mem_store old with old | same
    · rcases mem_store old with old | same
      · exact .inr old
      · exact .inr (same ▸ handle_mem hx)
    · exact .inr (same ▸ handle_mem hy)
  · intro a
    have first := refs_store hy (some x) s.memory a
    have second := refs_store held (some y) s.memory a
    simp only [Option.bind_some] at first second
    omega

theorem assign_sound {s : SharedHeap O} (sound : s.Sound) {h g : Nat} {x y : SharedPtr O}
    (hx : s.handle h = some x) (hy : s.handle g = some y) (apart : h ≠ g) :
    ∃ m, x.assign s.memory y = some (y, m) ∧
      (s.store h (some y) m |>.Within (2 ^ 31) → (s.store h (some y) m).Sound) := by
  obtain ⟨m, reset, emptied⟩ := reset_sound sound hx
  have source : some y ∈ (s.store h (some .null) m).handles := by
    apply handle_mem (h := g)
    rw [store_handle_ne apart]
    exact hy
  obtain ⟨m', copied, stored⟩ := copy_sound emptied (store_handle hx .null m) source
  rw [store_store] at stored
  exact ⟨m', (assign_eq reset y).trans copied, stored⟩

theorem copyConstruct_sound {s : SharedHeap O} (sound : s.Sound) {y : SharedPtr O}
    (source : some y ∈ s.handles) :
    ∃ m, y.copy s.memory = some (y, m) ∧
      (s.construct y m |>.Within (2 ^ 31) → (s.construct y m).Sound) := by
  obtain ⟨m, copied, stored⟩ := copy_sound (construct_sound sound)
    (construct_handle s .null s.memory) (List.mem_append_left _ source)
  rw [construct_store] at stored
  exact ⟨m, copied, stored⟩

theorem raw_sound {s : SharedHeap O} (sound : s.Sound) {r : Option O} (fresh : s.Fresh r) :
    Sound { s.construct (SharedPtr.ofRaw s.memory r).1 (SharedPtr.ofRaw s.memory r).2 with
      given := s.given ++ r.toList } := by
  cases r with
  | none =>
    have same : s.given ++ (none : Option O).toList = s.given := List.append_nil _
    rw [same]
    exact construct_sound sound
  | some o =>
    have adopted := adopt_sound (construct_sound sound) (construct_handle s .null s.memory)
      (fresh o rfl)
    simpa [adopt, construct, store, SharedPtr.ofRaw, RefCount.renew] using adopted

theorem resetTo_sound {s : SharedHeap O} (sound : s.Sound) {h : Nat} {x : SharedPtr O}
    (found : s.handle h = some x) {r : Option O} (fresh : s.Fresh r) :
    ∃ x' m, x.resetTo s.memory r = some (x', m) ∧
      Sound { s.store h (some x') m with given := s.given ++ r.toList } := by
  obtain ⟨m, reset, emptied⟩ := reset_sound sound found
  cases r with
  | none =>
    have same : s.given ++ (none : Option O).toList = s.given := List.append_nil _
    rw [same]
    by_cases differ : x.p ≠ none
    · exact ⟨.null, m, by simp [SharedPtr.resetTo, differ, reset, SharedPtr.null], emptied⟩
    · refine ⟨x, s.memory, by simp [SharedPtr.resetTo, differ], ?_⟩
      rw [store_same found]
      exact sound
  | some o =>
    have differ : x.p ≠ some o := by
      intro refers
      rcases sound.points x (handle_mem found) with rfl | ⟨a, r, rfl, made⟩
      · cases refers
      · obtain rfl : r = o := Option.some.inj refers
        exact fresh r rfl (List.mem_of_getElem? made)
    have adopted := adopt_sound emptied (store_handle found .null m) (fresh o rfl)
    refine ⟨⟨some o, some m.counters.length⟩, { m with counters := m.counters ++ [some 1] }, ?_, ?_⟩
    · simp [SharedPtr.resetTo, differ, reset, SharedPtr.null, RefCount.renew]
    · simp only [adopt, store_store] at adopted
      exact adopted

/-- An operation is defined, and keeps the heap sound while its counters can count the handles. -/
theorem exec_sound {s : SharedHeap O} (sound : s.Sound) (op : PtrOp O) :
    ∃ s', s.exec op = some s' ∧ (s'.Within (2 ^ 31) → s'.Sound) := by
  cases op with
  | default => exact ⟨_, rfl, fun _ => construct_sound sound⟩
  | raw r =>
    simp only [exec]
    split
    · rename_i fresh
      exact ⟨_, rfl, fun _ => raw_sound sound fresh⟩
    · exact ⟨s, rfl, fun _ => sound⟩
  | copy g =>
    simp only [exec]
    cases hy : s.handle g with
    | none => exact ⟨s, rfl, fun _ => sound⟩
    | some y =>
      obtain ⟨m, copied, stored⟩ := copyConstruct_sound sound (handle_mem hy)
      simp only [copied]
      exact ⟨_, rfl, stored⟩
  | assign h g =>
    simp only [exec]
    cases hx : s.handle h with
    | none => exact ⟨s, rfl, fun _ => sound⟩
    | some x =>
      cases hy : s.handle g with
      | none => exact ⟨s, rfl, fun _ => sound⟩
      | some y =>
        simp only
        split
        · rename_i apart
          obtain ⟨m, assigned, stored⟩ := assign_sound sound hx hy apart
          simp only [assigned]
          exact ⟨_, rfl, stored⟩
        · exact ⟨s, rfl, fun _ => sound⟩
  | moveAssign h g =>
    simp only [exec]
    cases hx : s.handle h with
    | none => exact ⟨s, rfl, fun _ => sound⟩
    | some x =>
      cases hy : s.handle g with
      | none => exact ⟨s, rfl, fun _ => sound⟩
      | some y =>
        simp only
        split
        · exact ⟨_, rfl, fun _ => swap_sound sound hx hy⟩
        · exact ⟨s, rfl, fun _ => sound⟩
  | swap h g =>
    simp only [exec]
    cases hx : s.handle h with
    | none => exact ⟨s, rfl, fun _ => sound⟩
    | some x =>
      cases hy : s.handle g with
      | none => exact ⟨s, rfl, fun _ => sound⟩
      | some y => exact ⟨_, rfl, fun _ => swap_sound sound hx hy⟩
  | reset h =>
    simp only [exec]
    cases hx : s.handle h with
    | none => exact ⟨s, rfl, fun _ => sound⟩
    | some x =>
      obtain ⟨m, reset, emptied⟩ := reset_sound sound hx
      simp only [reset]
      exact ⟨_, rfl, fun _ => emptied⟩
  | resetTo h r =>
    simp only [exec]
    cases hx : s.handle h with
    | none => exact ⟨s, rfl, fun _ => sound⟩
    | some x =>
      simp only
      split
      · rename_i fresh
        obtain ⟨x', m, taken, stored⟩ := resetTo_sound sound hx fresh
        simp only [taken]
        exact ⟨_, rfl, fun _ => stored⟩
      · exact ⟨s, rfl, fun _ => sound⟩
  | destroy h =>
    simp only [exec]
    cases hx : s.handle h with
    | none => exact ⟨s, rfl, fun _ => sound⟩
    | some x =>
      obtain ⟨m, reset, emptied⟩ := reset_sound sound hx
      have gone := destroy_sound emptied (store_handle hx .null m)
      simp only [reset]
      refine ⟨_, rfl, fun _ => ?_⟩
      rw [← store_store s h (some .null) none m m]
      exact gone

/-- No object has `n` handles at any time of the run. -/
def StaysWithin (s : SharedHeap O) (n : Nat) (ops : List (PtrOp O)) : Prop :=
  ∀ front s', front <+: ops → s.run front = some s' → s'.Within n

theorem run_sound {s : SharedHeap O} (sound : s.Sound) (ops : List (PtrOp O))
    (within : s.StaysWithin (2 ^ 31) ops) : ∃ s', s.run ops = some s' ∧ s'.Sound := by
  induction ops generalizing s with
  | nil => exact ⟨s, rfl, sound⟩
  | cons op rest ih =>
    obtain ⟨t, stepped, next⟩ := exec_sound sound op
    have begun (front : List (PtrOp O)) : s.run (op :: front) = t.run front := by
      simp only [run, stepped]
      rfl
    have kept : t.Sound := next (within [op] t ⟨rest, rfl⟩ (begun []))
    obtain ⟨u, ran, last⟩ := ih kept fun front s' is_front ends =>
      within (op :: front) s' (List.cons_prefix_cons.mpr ⟨rfl, is_front⟩) ((begun front).trans ends)
    exact ⟨u, (begun rest).trans ran, last⟩

theorem initial_sound : (initial : SharedHeap O).Sound :=
  ⟨.nil, rfl, by simp [initial], by simp [initial], by simp [initial, refs], by simp [initial],
    by simp [initial]⟩

/-- A handle is null exactly when it has no counter; the counter of a handle is the number of
the handles that refer to its object, and the object is not deleted; and an object that was
handed over is deleted once when no handle refers to it, and not before. -/
structure Counted (s : SharedHeap O) : Prop where
  null_iff : ∀ x, some x ∈ s.handles → (x.p = none ↔ x.pc = none)
  count : ∀ x o, some x ∈ s.handles → x.p = some o →
    (x.useCount s.memory).map Int32.toInt = some (s.holders o : Int) ∧ o ∉ s.memory.deletions
  deleted : ∀ o, s.memory.deletions.count o = if o ∈ s.given ∧ s.holders o = 0 then 1 else 0

theorem Sound.counts {s : SharedHeap O} (sound : s.Sound) : s.Counted := by
  have holders {a : Nat} {o : O} (made : s.given[a]? = some o) : s.holders o = s.refs a :=
    holders_eq_refs sound.nodup sound.points made
  have deleted (o : O) :
      s.memory.deletions.count o = if o ∈ s.given ∧ s.holders o = 0 then 1 else 0 := by
    by_cases handed : o ∈ s.given
    · obtain ⟨a, made⟩ := List.mem_iff_getElem?.mp handed
      rw [sound.deleted a o made, holders made]
      simp [handed]
    · rw [if_neg fun given => handed given.1]
      exact List.count_eq_zero.mpr fun gone => handed (sound.foreign o gone)
  refine ⟨fun x held => sound.null_iff held, fun x o held refers => ?_, deleted⟩
  rcases sound.points x held with rfl | ⟨a, r, rfl, made⟩
  · cases refers
  · obtain rfl : r = o := Option.some.inj refers
    have live := refs_pos held rfl
    constructor
    · rw [holders made]
      simp only [SharedPtr.useCount, RefCount.getCount, sound.value made live, Option.join_some,
        Option.map_some, Int32.toInt_ofNat_of_lt (sound.room a)]
    · intro gone
      have none_left := deleted r
      rw [holders made, if_neg fun none => Nat.pos_iff_ne_zero.mp live none.2] at none_left
      exact List.count_eq_zero.mp none_left gone

/-- Whatever is done to the handles, nothing undefined happens and the counters are right, as
long as no object has more handles at a time than an `int` can count. -/
theorem shared_ptr_counts (ops : List (PtrOp O))
    (within : (initial : SharedHeap O).StaysWithin (2 ^ 31) ops) :
    ∃ s, (initial : SharedHeap O).run ops = some s ∧ s.Counted := by
  obtain ⟨s, ran, sound⟩ := run_sound initial_sound ops within
  exact ⟨s, ran, sound.counts⟩

theorem exec_length {s s' : SharedHeap O} {op : PtrOp O} (stepped : s.exec op = some s') :
    s'.handles.length ≤ s.handles.length + 1 := by
  cases op with
  | default =>
    cases stepped
    simp [construct]
  | raw r =>
    simp only [exec] at stepped
    split at stepped <;> cases stepped <;> simp [construct]
  | copy g =>
    simp only [exec] at stepped
    split at stepped
    · cases stepped
      exact Nat.le_succ _
    · obtain ⟨r, -, made⟩ := Option.bind_eq_some_iff.mp stepped
      cases made
      simp [construct]
  | assign h g =>
    simp only [exec] at stepped
    split at stepped
    · split at stepped
      · obtain ⟨r, -, made⟩ := Option.bind_eq_some_iff.mp stepped
        cases made
        simp [store]
      · cases stepped
        exact Nat.le_succ _
    · cases stepped
      exact Nat.le_succ _
  | moveAssign h g =>
    simp only [exec] at stepped
    split at stepped
    · split at stepped <;> cases stepped <;> simp [swapHandles, store]
    · cases stepped
      exact Nat.le_succ _
  | swap h g =>
    simp only [exec] at stepped
    split at stepped <;> cases stepped <;> simp [swapHandles, store]
  | reset h =>
    simp only [exec] at stepped
    split at stepped
    · cases stepped
      exact Nat.le_succ _
    · obtain ⟨r, -, made⟩ := Option.bind_eq_some_iff.mp stepped
      cases made
      simp [store]
  | resetTo h r =>
    simp only [exec] at stepped
    split at stepped
    · cases stepped
      exact Nat.le_succ _
    · split at stepped
      · obtain ⟨r, -, made⟩ := Option.bind_eq_some_iff.mp stepped
        cases made
        simp [store]
      · cases stepped
        exact Nat.le_succ _
  | destroy h =>
    simp only [exec] at stepped
    split at stepped
    · cases stepped
      exact Nat.le_succ _
    · obtain ⟨r, -, made⟩ := Option.bind_eq_some_iff.mp stepped
      cases made
      simp [store]

theorem run_length {s s' : SharedHeap O} {ops : List (PtrOp O)} (ran : s.run ops = some s') :
    s'.handles.length ≤ s.handles.length + ops.length := by
  induction ops generalizing s with
  | nil =>
    cases ran
    exact Nat.le_refl _
  | cons op rest ih =>
    obtain ⟨t, stepped, ran⟩ := Option.bind_eq_some_iff.mp ran
    have first := exec_length stepped
    have later := ih ran
    rw [List.length_cons]
    omega

/-- Every operation makes one handle at most, so short programs cannot crowd an object. -/
theorem staysWithin_of_length {ops : List (PtrOp O)} {n : Nat} (short : ops.length < n) :
    (initial : SharedHeap O).StaysWithin n ops := by
  intro front s is_front ran o
  have handles : s.handles.length ≤ 0 + front.length := run_length ran
  have holders : s.holders o ≤ s.handles.length := List.countP_le_length
  have length := is_front.length_le
  omega

end

theorem shared_ptr_counts_swapped :
    ∃ s, (initial : SharedHeap Nat).run [.raw (some 7), .copy 0, .raw (some 8), .assign 1 2,
      .swap 0 1, .moveAssign 2 0, .destroy 1, .reset 0] = some s ∧ s.Counted :=
  shared_ptr_counts _ (staysWithin_of_length (by decide))

/-- One object with `n` handles. -/
def crowd (n : Nat) : SharedHeap Nat :=
  ⟨List.replicate n (some ⟨some 0, some 0⟩), ⟨[some (.ofNat n)], []⟩, [0]⟩

theorem crowd_copies {k : Nat} (n : Nat) (some_handle : 0 < k) (room : k + n ≤ 2 ^ 31) :
    (crowd k).run (List.replicate n (.copy 0)) = some (crowd (k + n)) := by
  induction n generalizing k with
  | zero => rfl
  | succ n ih =>
    have handle : (crowd k).handle 0 = some ⟨some 0, some 0⟩ := by
      simp [SharedHeap.handle, crowd, some_handle]
    have stepped : (crowd k).exec (.copy 0) = some (crowd (k + 1)) := by
      have value : (crowd k).memory.counters[0]? = some (some (.ofNat k)) := rfl
      simp only [exec, handle, SharedPtr.copy, RefCount.copy, fetchAdd_some value,
        Option.bind_eq_bind, Option.bind_some, if_neg (ofNat_not_lt_one (by omega) some_handle),
        reduceCtorEq, if_false]
      simp only [construct, crowd, List.replicate_succ', Int32.ofNat_add]
      rfl
    rw [List.replicate_succ]
    simp only [run, stepped]
    have rest := ih (Nat.succ_pos k) (by omega)
    rw [show k + 1 + n = k + (n + 1) by omega] at rest
    exact rest

theorem crowd_made {n : Nat} (room : n < 2 ^ 31) :
    (initial : SharedHeap Nat).run (.raw (some 0) :: List.replicate n (.copy 0)) =
      some (crowd (n + 1)) := by
  have begun : (initial : SharedHeap Nat).exec (.raw (some 0)) = some (crowd 1) := rfl
  rw [run, begun, Nat.add_comm n 1]
  exact crowd_copies n Nat.one_pos (by omega)

theorem crowd_count {n : Nat} (counted : (crowd (n + 1)).Counted) :
    0 ≤ (Int32.ofNat (n + 1)).toInt := by
  have held : some ⟨some 0, some 0⟩ ∈ (crowd (n + 1)).handles :=
    List.mem_replicate.mpr ⟨Nat.succ_ne_zero n, rfl⟩
  have counts : some (Int32.ofNat (n + 1)).toInt = _ := (counted.count _ 0 held rfl).1
  rw [Option.some.inj counts]
  exact Int.natCast_nonneg _

/-- The counter of an object with 2^31 handles is negative. -/
theorem not_always_counted :
    ¬ ∀ ops : List (PtrOp Nat), ∃ s, (initial : SharedHeap Nat).run ops = some s ∧ s.Counted := by
  intro claim
  obtain ⟨s, ran, counted⟩ := claim (.raw (some 0) :: List.replicate (2 ^ 31 - 1) (.copy 0))
  rw [crowd_made (by omega)] at ran
  obtain rfl := Option.some.inj ran
  exact absurd (crowd_count counted) (by decide)

end SharedHeap

end CppMyth
