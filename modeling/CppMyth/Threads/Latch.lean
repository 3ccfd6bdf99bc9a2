import CppMyth.Library.Transition

/-! The shared latch of `latch.cpp`. Each part of a call that holds the spin lock is one
atomic step; a wait ends at any time, by a signal, a timeout or spuriously. -/
namespace CppMyth

variable {T : Type} [DecidableEq T]

structure TNode (T : Type) where
  id : T
  count : Nat
  deriving DecidableEq, Repr

/-- `xOwner` is `none` for `thread_t(0)`. -/
structure Latch (T : Type) where
  px : Bool
  xOwner : Option T
  xWait : Nat
  /-- 0 released, 1 held and waiting for the release of S, 2 left to a request in wait,
  3 held, more when held recursively. -/
  xFlag : Nat
  sNodes : List (TNode T)
  sFreed : List (TNode T)

/-- Where a thread is between two of its atomic steps. `n` is the node it found when the
wait began; a node is named by the thread it belongs to. -/
inductive Stage (T : Type) where
  | idle
  | lockX
  | lockS (n : Option T)
  | sharedX (n : Option T)
  deriving DecidableEq, Repr

namespace Latch

/-- The constructor, with the two nodes of `init` in the free list. -/
def new (px : Bool) (nobody : T) : Latch T :=
  ⟨px, none, 0, 0, [], [⟨nobody, 0⟩, ⟨nobody, 0⟩]⟩

def findNode (l : Latch T) (id : T) : Option T := (l.sNodes.find? (·.id = id)).map TNode.id

def newNode (l : Latch T) (id : T) : Latch T :=
  { l with sNodes := ⟨id, 0⟩ :: l.sNodes, sFreed := l.sFreed.tail }

def freeNode (l : Latch T) (n : TNode T) : Latch T :=
  { l with sNodes := l.sNodes.filter (·.id ≠ n.id), sFreed := n :: l.sFreed }

/-- `++n->count`, on a new node when none was found. -/
def addCount (l : Latch T) (tid : T) (n : Option T) : Latch T :=
  let l := if n = none then l.newNode tid else l
  { l with sNodes := l.sNodes.map fun p =>
      if p.id = tid then { p with count := p.count + 1 } else p }

/-- X = 1: the check of the releasing of S. -/
def lockS (l : Latch T) (tid : T) (n : Option T) : Latch T × Stage T :=
  if l.sNodes = [] ∨ (l.sNodes.head?.map TNode.id = n ∧ l.sNodes.tail = []) then
    ({ l with xFlag := 3, xOwner := some tid }, .idle)
  else (l, .lockS n)

/-- The request is counted in `xWait`. -/
def lockX (l : Latch T) (tid : T) : Latch T × Stage T :=
  if l.xFlag = 0 ∨ l.xFlag = 2 then
    let l := { l with xFlag := 1, xWait := l.xWait - 1 }
    l.lockS tid (l.findNode tid)
  else (l, .lockX)

def lock (l : Latch T) (tid : T) : Latch T × Stage T :=
  if l.xOwner ≠ some tid then { l with xWait := l.xWait + 1 }.lockX tid
  else ({ l with xFlag := l.xFlag + 1 }, .idle)

/-- After the wait for the S gate: the notifier has handed over, else retry. -/
def wakeS (l : Latch T) (tid : T) (n : Option T) : Latch T × Stage T :=
  if l.xFlag = 3 then ({ l with xOwner := some tid }, .idle) else l.lockS tid n

def unlock (l : Latch T) (tid : T) : Latch T :=
  if l.xOwner = some tid then
    let l := { l with xFlag := l.xFlag - 1 }
    if l.xFlag = 2 then
      -- hand-over to a request in wait for X, else release
      { l with xOwner := none, xFlag := if l.xWait = 0 then 0 else l.xFlag }
    else l
  else l

def sharedX (l : Latch T) (tid : T) (n : Option T) : Latch T × Stage T :=
  let free := if l.px then l.xFlag = 0 ∨ (l.xFlag = 1 ∧ n ≠ none) else l.xFlag < 2
  if free then (l.addCount tid n, .idle) else (l, .sharedX n)

def lockShared (l : Latch T) (tid : T) : Latch T × Stage T :=
  let n := l.findNode tid
  if l.xOwner ≠ some tid then l.sharedX tid n else (l.addCount tid n, .idle)

def unlockShared (l : Latch T) (tid : T) : Latch T :=
  match l.sNodes.find? (·.id = tid) with
  | none => l
  | some n =>
    if n.count - 1 = 0 then
      let l := l.freeNode n
      -- on last S, finalize X request in wait
      if l.xFlag = 1 ∧ l.xOwner ≠ some tid then
        { l with xFlag := if l.sNodes = [] then 3 else l.xFlag }
      else l
    else
      { l with
        sNodes := l.sNodes.map fun p => if p.id = tid then { p with count := p.count - 1 } else p }

def tryLockShared (l : Latch T) (tid : T) : Bool × Latch T :=
  if l.xFlag = 0 ∨ l.xOwner = some tid then (true, l.addCount tid (l.findNode tid))
  else (false, l)

end Latch

structure Ledger where
  acquired : Nat
  released : Nat
  le : released ≤ acquired

namespace Ledger

def none : Ledger := ⟨0, 0, Nat.le_refl 0⟩
def held (l : Ledger) : Nat := l.acquired - l.released
def acquire (l : Ledger) : Ledger := ⟨l.acquired + 1, l.released, Nat.le_succ_of_le l.le⟩
def release (l : Ledger) : Ledger :=
  if h : l.released < l.acquired then ⟨l.acquired, l.released + 1, h⟩ else l

@[simp] theorem held_none : none.held = 0 := rfl

@[simp] theorem held_acquire (l : Ledger) : l.acquire.held = l.held + 1 := by
  have := l.le
  simp only [held, acquire]
  omega

@[simp] theorem held_release (l : Ledger) : l.release.held = l.held - 1 := by
  unfold release
  split <;> simp only [held] <;> omega

end Ledger

/-- A latch with the threads that use it. The ledgers record which calls have returned. -/
structure Threads (T : Type) where
  latch : Latch T
  stage : T → Stage T
  exclusive : T → Ledger
  shared : T → Ledger

namespace Threads

def initial (px : Bool) (nobody : T) : Threads T :=
  ⟨.new px nobody, fun _ => .idle, fun _ => .none, fun _ => .none⟩

def xHeld (s : Threads T) (t : T) : Nat := (s.exclusive t).held
def sHeld (s : Threads T) (t : T) : Nat := (s.shared t).held

/-- The next atomic step of a thread: the first of a call, or the one after a wait. -/
inductive Act (T : Type) where
  | lock (t : T)
  | wakeLock (t : T)
  | unlock (t : T)
  | lockShared (t : T)
  | wakeShared (t : T)
  | unlockShared (t : T)
  | tryLockShared (t : T)
  deriving DecidableEq, Repr

/-- A thread makes one call at a time and releases only what it holds. -/
def Enabled (s : Threads T) : Act T → Prop
  | .lock t => s.stage t = .idle
  | .wakeLock t => s.stage t = .lockX ∨ ∃ n, s.stage t = .lockS n
  | .unlock t => s.stage t = .idle ∧ 0 < s.xHeld t
  | .lockShared t => s.stage t = .idle
  | .wakeShared t => ∃ n, s.stage t = .sharedX n
  | .unlockShared t => s.stage t = .idle ∧ 0 < s.sHeld t
  | .tryLockShared t => s.stage t = .idle

/-- A part of `lock` ends: the call returns with the lock when the stage is idle again. -/
def locking (s : Threads T) (t : T) (r : Latch T × Stage T) : Threads T :=
  { s with
    latch := r.1
    stage := Function.update s.stage t r.2
    exclusive := if r.2 = .idle then Function.update s.exclusive t (s.exclusive t).acquire
      else s.exclusive }

def sharing (s : Threads T) (t : T) (r : Latch T × Stage T) : Threads T :=
  { s with
    latch := r.1
    stage := Function.update s.stage t r.2
    shared := if r.2 = .idle then Function.update s.shared t (s.shared t).acquire
      else s.shared }

def next (s : Threads T) : Act T → Threads T
  | .lock t => s.locking t (s.latch.lock t)
  | .wakeLock t =>
    match s.stage t with
    | .lockX => s.locking t (s.latch.lockX t)
    | .lockS n => s.locking t (s.latch.wakeS t n)
    | _ => s
  | .unlock t =>
    { s with
      latch := s.latch.unlock t
      exclusive := Function.update s.exclusive t (s.exclusive t).release }
  | .lockShared t => s.sharing t (s.latch.lockShared t)
  | .wakeShared t =>
    match s.stage t with
    | .sharedX n => s.sharing t (s.latch.sharedX t n)
    | _ => s
  | .unlockShared t =>
    { s with
      latch := s.latch.unlockShared t
      shared := Function.update s.shared t (s.shared t).release }
  | .tryLockShared t =>
    let r := s.latch.tryLockShared t
    if r.1 then s.sharing t (r.2, .idle) else s

def Step (s : Threads T) (a : Act T) (s' : Threads T) : Prop := s.Enabled a ∧ s' = s.next a

end Threads

end CppMyth
