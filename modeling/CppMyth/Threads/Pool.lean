import CppMyth.Library.Transition

/-! The thread pool of `threadpool.cpp`. Each section that holds the mutex of the pool is one
atomic step, and so is the test of `is_stopped`. A wait on `m_queueFill` ends at any time, by
a signal, the timeout or spuriously, so the signals themselves leave no trace here. -/
namespace CppMyth

open Library

/-- What a pooled thread does next: test `is_stopped`, call `pop_queue`, run its worker, count
itself in `wait_queue`, wake up there, or `finalize`. -/
inductive Phase where
  | check | pop | work | wait | asleep | leave
  deriving DecidableEq, Repr

structure PooledThread where
  phase : Phase
  waiting : Bool
  notifiedStop : Bool
  deriving DecidableEq, Repr

/-- The head of `pool` is the newest thread and `_old` leads down the list. -/
structure ThreadPool (W : Type) where
  maxSize : Nat
  poolSize : Nat
  waitingCount : Nat
  stopped : Bool
  suspended : Bool
  pool : List PooledThread
  queue : List W
  deriving Repr

namespace PooledThread

def new : PooledThread := ⟨.check, false, false⟩

def stopThread (t : PooledThread) : PooledThread := { t with notifiedStop := true }

/-- The steps of `process` and `wait_queue` that the thread takes by itself. -/
def advance (t : PooledThread) : PooledThread :=
  match t.phase with
  | .check => { t with phase := if t.notifiedStop then .leave else .pop }
  | .work => { t with phase := .check, waiting := false }
  | .wait => { t with phase := .asleep }
  | .asleep => { t with phase := .check, waiting := true }
  | .pop => t
  | .leave => t

/-- How `process` goes on with the answer of `pop_queue`. -/
def popped {W : Type} (t : PooledThread) (worker : Option W) : PooledThread :=
  match worker with
  | some _ => { t with phase := .work }
  | none => { t with phase := if t.waiting then .leave else .wait }

/-- The thread gets to `pop_queue` by its own steps. -/
def WillPop (t : PooledThread) : Prop := ∃ n, (advance^[n] t).phase = .pop

/-- It has decided to leave, or it was told to and finds that out first. -/
def Leaving (t : PooledThread) : Prop :=
  t.phase = .leave ∨ (t.notifiedStop = true ∧ t.phase ≠ .pop)

instance (t : PooledThread) : Decidable t.Leaving := inferInstanceAs (Decidable (_ ∨ _))

theorem advance_leaving (t : PooledThread) : t.advance.Leaving ↔ t.Leaving := by
  obtain ⟨phase, waiting, notifiedStop⟩ := t
  cases phase with
  | check => cases notifiedStop <;> simp [advance, Leaving]
  | pop => exact Iff.rfl
  | work => simp [advance, Leaving]
  | wait => simp [advance, Leaving]
  | asleep => simp [advance, Leaving]
  | leave => exact Iff.rfl

theorem iterate_leaving (t : PooledThread) (n : Nat) :
    (advance^[n] t).Leaving ↔ t.Leaving := by
  induction n generalizing t with
  | zero => exact Iff.rfl
  | succ n ih => exact (ih t.advance).trans (advance_leaving t)

theorem willPop_iff (t : PooledThread) : t.WillPop ↔ ¬ t.Leaving := by
  constructor
  · rintro ⟨n, pop⟩ leaving
    cases (iterate_leaving t n).mpr leaving with
    | inl left => exact absurd (pop.symm.trans left) (by decide)
    | inr told => exact told.2 pop
  · intro stays
    obtain ⟨phase, waiting, notifiedStop⟩ := t
    -- at most three steps lead to the test, and an unflagged thread passes it
    cases phase with
    | pop => exact ⟨0, rfl⟩
    | leave => exact absurd (.inl rfl) stays
    | check =>
      cases notifiedStop with
      | true => exact absurd (.inr ⟨rfl, by simp⟩) stays
      | false => exact ⟨1, rfl⟩
    | work =>
      cases notifiedStop with
      | true => exact absurd (.inr ⟨rfl, by simp⟩) stays
      | false => exact ⟨2, rfl⟩
    | wait =>
      cases notifiedStop with
      | true => exact absurd (.inr ⟨rfl, by simp⟩) stays
      | false => exact ⟨3, rfl⟩
    | asleep =>
      cases notifiedStop with
      | true => exact absurd (.inr ⟨rfl, by simp⟩) stays
      | false => exact ⟨2, rfl⟩

instance (t : PooledThread) : Decidable t.WillPop := decidable_of_iff _ (willPop_iff t).symm

theorem stopThread_leaving (t : PooledThread) : ¬ t.stopThread.Leaving ↔ t.phase = .pop := by
  cases h : t.phase <;> simp [Leaving, stopThread, h]

theorem popped_leaving {W : Type} (t : PooledThread) (worker : W) :
    (t.popped (some worker)).Leaving ↔ t.notifiedStop = true := by
  simp [Leaving, popped]

theorem popped_awake {W : Type} (t : PooledThread) (worker : Option W) :
    (t.popped worker).phase ≠ .asleep := by
  cases worker with
  | some worker => simp [popped]
  | none => cases h : t.waiting <;> simp [popped, h]

theorem not_leaving_of_pop {t : PooledThread} (pop : t.phase = .pop) : ¬ t.Leaving := by
  simp [Leaving, pop]

end PooledThread

namespace ThreadPool

variable {W : Type}

def new (size : Nat) : ThreadPool W := ⟨size, 0, 0, false, false, [], []⟩

def createThread (s : ThreadPool W) : ThreadPool W :=
  { s with pool := .new :: s.pool, poolSize := s.poolSize + 1 }

/-- `finalize` of the thread at `k`. -/
def finalize (s : ThreadPool W) (k : Nat) : ThreadPool W :=
  { s with poolSize := s.poolSize - 1, pool := s.pool.eraseIdx k }

/-- `starts i` is the outcome of `start_thread` with `i` tries left after it. -/
def resizeLoop (starts : Nat → Bool) : Nat → ThreadPool W → ThreadPool W
  | 0, s => s
  | i + 1, s =>
    if s.poolSize ≥ s.maxSize then s
    else
      let t := s.createThread
      resizeLoop starts i (if starts i then t else t.finalize 0)

def stopLoop : Nat → List PooledThread → List PooledThread
  | i + 1, it :: rest => it.stopThread :: stopLoop i rest
  | _, pool => pool

/-- The size of the queue goes into an `unsigned`. -/
def resize (s : ThreadPool W) (starts : Nat → Bool) : ThreadPool W :=
  if s.poolSize < s.maxSize ∧ s.queue ≠ [] then resizeLoop starts (s.queue.length % 2 ^ 32) s
  else if s.poolSize > s.maxSize then { s with pool := stopLoop (s.poolSize - s.maxSize) s.pool }
  else s

def enqueue (s : ThreadPool W) (worker : W) (starts : Nat → Bool) : Bool × ThreadPool W :=
  if s.stopped then (false, s)
  else
    let s := { s with queue := s.queue ++ [worker] }
    if s.suspended then (true, s)
    else if s.waitingCount ≠ 0 then (true, s)
    else (true, s.resize starts)

def setMaxSize (s : ThreadPool W) (size : Nat) (starts : Nat → Bool) : ThreadPool W :=
  let s := { s with maxSize := size }
  if s.suspended then s else s.resize starts

def suspend (s : ThreadPool W) : ThreadPool W := { s with suspended := true }

def resume (s : ThreadPool W) (starts : Nat → Bool) : ThreadPool W :=
  { s with suspended := false }.resize starts

def reset (s : ThreadPool W) : ThreadPool W := { s with stopped := true, queue := [] }

def stop (s : ThreadPool W) : ThreadPool W := { s with stopped := true }

def start (s : ThreadPool W) : ThreadPool W := { s with stopped := false }

def popQueue (s : ThreadPool W) : Option W × ThreadPool W :=
  if s.suspended then (none, s)
  else
    match s.queue with
    | [] => (none, s)
    | worker :: queue => (some worker, { s with queue := queue })

/-- The thread at `k` takes a step of its own. The two of `wait_queue` count it. -/
def advance (s : ThreadPool W) (k : Nat) : ThreadPool W :=
  match s.pool[k]? with
  | none => s
  | some t =>
    let count := match t.phase with
      | .wait => s.waitingCount + 1
      | .asleep => s.waitingCount - 1
      | _ => s.waitingCount
    { s with waitingCount := count, pool := s.pool.set k t.advance }

/-- A step of a client, or of the pooled thread that is now at `k` in the list. -/
inductive Step (W : Type) where
  | enqueue (worker : W) (starts : Nat → Bool)
  | setMaxSize (size : Nat) (starts : Nat → Bool)
  | suspend
  | resume (starts : Nat → Bool)
  | reset
  | stop
  | start
  | advance (k : Nat)
  | pop (k : Nat)
  | finalize (k : Nat)

inductive Answer (W : Type) where
  | done
  | accepted (queued : Bool)
  | worker (popped : Option W)
  deriving DecidableEq, Repr

/-- A thread that is elsewhere does not take the step. -/
def step (s : ThreadPool W) : Step W → Answer W × ThreadPool W
  | .enqueue worker starts =>
    let r := s.enqueue worker starts
    (.accepted r.1, r.2)
  | .setMaxSize size starts => (.done, s.setMaxSize size starts)
  | .suspend => (.done, s.suspend)
  | .resume starts => (.done, s.resume starts)
  | .reset => (.done, s.reset)
  | .stop => (.done, s.stop)
  | .start => (.done, s.start)
  | .advance k => (.done, s.advance k)
  | .pop k =>
    match s.pool[k]? with
    | none => (.done, s)
    | some t =>
      if t.phase = .pop then
        let r := s.popQueue
        (.worker r.1, { r.2 with pool := r.2.pool.set k (t.popped r.1) })
      else (.done, s)
  | .finalize k =>
    match s.pool[k]? with
    | none => (.done, s)
    | some t => if t.phase = .leave then (.done, s.finalize k) else (.done, s)

def machine (W : Type) : Machine (ThreadPool W) (Step W) (Answer W) := ⟨step⟩

section Tended

variable {pool : List PooledThread} {k : Nat} {t u : PooledThread}

def Tended (pool : List PooledThread) : Prop := ∃ t ∈ pool, ¬ t.Leaving

instance (pool : List PooledThread) : Decidable (Tended pool) :=
  inferInstanceAs (Decidable (∃ t ∈ pool, _))

theorem tended_iff (here : pool[k]? = some t) :
    Tended pool ↔ ¬ t.Leaving ∨ Tended (pool.eraseIdx k) := by
  obtain ⟨inside, rfl⟩ := List.getElem?_eq_some_iff.mp here
  have perm := List.getElem_cons_eraseIdx_perm inside
  constructor
  · rintro ⟨u, mem, stays⟩
    cases List.mem_cons.mp (perm.mem_iff.mpr mem) with
    | inl same => exact .inl (same ▸ stays)
    | inr other => exact .inr ⟨u, other, stays⟩
  · intro stays
    cases stays with
    | inl this => exact ⟨_, List.getElem_mem inside, this⟩
    | inr other =>
      obtain ⟨u, mem, stays⟩ := other
      exact ⟨u, List.mem_of_mem_eraseIdx mem, stays⟩

theorem set_here (here : pool[k]? = some t) : (pool.set k u)[k]? = some u :=
  List.getElem?_set_self (List.getElem?_eq_some_iff.mp here).1

theorem set_tended (here : pool[k]? = some t) :
    Tended (pool.set k u) ↔ ¬ u.Leaving ∨ Tended (pool.eraseIdx k) := by
  rw [tended_iff (set_here here), List.eraseIdx_set_eq]

/-- A flag does not reach a thread that is already at `pop_queue`. -/
theorem stopLoop_tended (n : Nat) (pool : List PooledThread) :
    Tended (stopLoop n pool) ↔ (∃ t ∈ pool, t.phase = .pop) ∨ Tended (pool.drop n) := by
  induction pool generalizing n with
  | nil => cases n <;> simp [stopLoop, Tended]
  | cons it rest ih =>
    cases n with
    | zero =>
      simp only [stopLoop, List.drop_zero]
      constructor
      · exact .inr
      · intro stays
        cases stays with
        | inr stays => exact stays
        | inl popping =>
          obtain ⟨t, mem, pop⟩ := popping
          exact ⟨t, mem, PooledThread.not_leaving_of_pop pop⟩
    | succ n =>
      have split : Tended (stopLoop (n + 1) (it :: rest)) ↔
          ¬ it.stopThread.Leaving ∨ Tended (stopLoop n rest) := by
        simp [Tended, stopLoop]
      rw [split, ih n, it.stopThread_leaving, List.drop_succ_cons, ← or_assoc]
      simp

end Tended

section Resize

variable {s : ThreadPool W} (starts : Nat → Bool)

/-- Every field that `__resize` does not write. -/
theorem resizeLoop_frame (n : Nat) (s : ThreadPool W) :
    ∃ size pool, resizeLoop starts n s = { s with poolSize := size, pool := pool } := by
  induction n generalizing s with
  | zero => exact ⟨s.poolSize, s.pool, rfl⟩
  | succ n ih =>
    unfold resizeLoop
    split
    · exact ⟨s.poolSize, s.pool, rfl⟩
    · cases starts n with
      | true => exact ih s.createThread
      | false => exact ih (s.createThread.finalize 0)

theorem resize_frame (s : ThreadPool W) :
    ∃ size pool, s.resize starts = { s with poolSize := size, pool := pool } := by
  unfold resize
  split
  · exact resizeLoop_frame starts _ s
  · split
    · exact ⟨s.poolSize, _, rfl⟩
    · exact ⟨s.poolSize, s.pool, rfl⟩

theorem resizeLoop_keeps (n : Nat) (s : ThreadPool W) (tended : Tended s.pool) :
    Tended (resizeLoop starts n s).pool := by
  induction n generalizing s with
  | zero => exact tended
  | succ n ih =>
    unfold resizeLoop
    split
    · exact tended
    · cases starts n with
      | true =>
        obtain ⟨t, mem, stays⟩ := tended
        exact ih s.createThread ⟨t, .tail _ mem, stays⟩
      | false => exact ih (s.createThread.finalize 0) tended

theorem resizeLoop_tended (n : Nat) (below : s.poolSize < s.maxSize) :
    Tended (resizeLoop starts n s).pool ↔ (∃ i < n, starts i = true) ∨ Tended s.pool := by
  induction n with
  | zero => simp [resizeLoop]
  | succ n ih =>
    rw [resizeLoop, if_neg (Nat.not_le.mpr below)]
    cases started : starts n with
    | true =>
      have fresh : Tended (s.createThread).pool := ⟨.new, .head _, by decide⟩
      constructor
      · intro _
        exact .inl ⟨n, Nat.lt_succ_self n, started⟩
      · intro _
        exact resizeLoop_keeps starts n s.createThread fresh
    | false =>
      have same : (∃ i < n + 1, starts i = true) ↔ ∃ i < n, starts i = true := by
        constructor
        · rintro ⟨i, less, yes⟩
          cases Nat.lt_succ_iff_lt_or_eq.mp less with
          | inl less => exact ⟨i, less, yes⟩
          | inr here => exact absurd (here ▸ yes) (by simp [started])
        · rintro ⟨i, less, yes⟩
          exact ⟨i, Nat.lt_succ_of_lt less, yes⟩
      -- a thread that could not be started has left no trace
      rw [same]
      exact ih

end Resize

section Counted

variable {s : ThreadPool W} {pool : List PooledThread} {k : Nat} {t u : PooledThread}

def sleepers (pool : List PooledThread) : Nat := pool.countP (·.phase = .asleep)

/-- The two counters say what the list says, so neither decrement goes below zero. -/
structure Counted (s : ThreadPool W) : Prop where
  poolSize : s.poolSize = s.pool.length
  waitingCount : s.waitingCount = sleepers s.pool

theorem sleepers_here (here : pool[k]? = some t) :
    sleepers pool = sleepers (pool.eraseIdx k) + if t.phase = .asleep then 1 else 0 := by
  obtain ⟨inside, rfl⟩ := List.getElem?_eq_some_iff.mp here
  have perm := List.getElem_cons_eraseIdx_perm inside
  rw [sleepers, ← perm.countP_eq, List.countP_cons]
  simp only [decide_eq_true_eq, sleepers]

theorem sleepers_set (here : pool[k]? = some t) :
    sleepers (pool.set k u) =
      sleepers (pool.eraseIdx k) + if u.phase = .asleep then 1 else 0 := by
  rw [sleepers_here (set_here here), List.eraseIdx_set_eq]

theorem stopLoop_phases (n : Nat) (pool : List PooledThread) :
    (stopLoop n pool).map PooledThread.phase = pool.map PooledThread.phase := by
  induction pool generalizing n with
  | nil => cases n <;> rfl
  | cons it rest ih =>
    cases n with
    | zero => rfl
    | succ n => exact congrArg (it.phase :: ·) (ih n)

theorem Counted.of_phases (counted : s.Counted)
    (same : pool.map PooledThread.phase = s.pool.map PooledThread.phase) :
    { s with pool := pool }.Counted := by
  have sleepers_map (pool : List PooledThread) :
      sleepers pool = (pool.map PooledThread.phase).countP (· = .asleep) := by
    rw [sleepers, List.countP_map]
    rfl
  constructor
  · have lengths := congrArg List.length same
    rw [List.length_map, List.length_map] at lengths
    exact counted.poolSize.trans lengths.symm
  · exact counted.waitingCount.trans (by rw [sleepers_map, sleepers_map, same])

theorem Counted.createThread (counted : s.Counted) : s.createThread.Counted :=
  ⟨congrArg (· + 1) counted.poolSize, counted.waitingCount⟩

theorem Counted.resizeLoop (starts : Nat → Bool) (n : Nat) (counted : s.Counted) :
    (resizeLoop starts n s).Counted := by
  induction n generalizing s with
  | zero => exact counted
  | succ n ih =>
    unfold ThreadPool.resizeLoop
    split
    · exact counted
    · cases starts n with
      | true => exact ih counted.createThread
      | false => exact ih counted

theorem Counted.resize (counted : s.Counted) (starts : Nat → Bool) :
    (s.resize starts).Counted := by
  unfold ThreadPool.resize
  split
  · exact counted.resizeLoop starts _
  · split
    · exact counted.of_phases (stopLoop_phases _ _)
    · exact counted

theorem Counted.enqueue (counted : s.Counted) (worker : W) (starts : Nat → Bool) :
    (s.enqueue worker starts).2.Counted := by
  have queued : { s with queue := s.queue ++ [worker] }.Counted := ⟨counted.1, counted.2⟩
  unfold ThreadPool.enqueue
  split
  · exact counted
  · dsimp only
    split
    · exact queued
    · split
      · exact queued
      · exact queued.resize starts

theorem Counted.advance (counted : s.Counted) (k : Nat) : (s.advance k).Counted := by
  unfold ThreadPool.advance
  cases here : s.pool[k]? with
  | none => exact counted
  | some t =>
    constructor
    · exact counted.poolSize.trans List.length_set.symm
    · have before := counted.waitingCount.trans (sleepers_here here)
      refine Eq.trans ?_ (sleepers_set here).symm
      cases phase : t.phase with
      | check =>
        cases stop : t.notifiedStop <;> simpa [PooledThread.advance, phase, stop] using before
      | pop => simpa [PooledThread.advance, phase] using before
      | work => simpa [PooledThread.advance, phase] using before
      | wait => simpa [PooledThread.advance, phase] using before
      | asleep =>
        rw [before, phase]
        simp [PooledThread.advance, phase]
      | leave => simpa [PooledThread.advance, phase] using before

theorem popQueue_frame (s : ThreadPool W) :
    ∃ queue, s.popQueue.2 = { s with queue := queue } := by
  unfold popQueue
  split
  · exact ⟨s.queue, rfl⟩
  · cases h : s.queue with
    | nil => exact ⟨s.queue, rfl⟩
    | cons worker rest => exact ⟨rest, rfl⟩

theorem Counted.pop (counted : s.Counted) (k : Nat) : (s.step (.pop k)).2.Counted := by
  simp only [ThreadPool.step]
  cases here : s.pool[k]? with
  | none => exact counted
  | some t =>
    by_cases pop : t.phase = .pop
    · have before := counted.waitingCount.trans (sleepers_here here)
      obtain ⟨queue, frame⟩ := s.popQueue_frame
      simp only [if_pos pop, frame]
      constructor
      · exact counted.poolSize.trans List.length_set.symm
      · rw [sleepers_set here, if_neg (t.popped_awake _)]
        simpa [pop] using before
    · simp only [if_neg pop]
      exact counted

theorem Counted.finalize (counted : s.Counted) (here : s.pool[k]? = some t)
    (leave : t.phase = .leave) : (s.finalize k).Counted := by
  have before := counted.waitingCount.trans (sleepers_here here)
  obtain ⟨inside, -⟩ := List.getElem?_eq_some_iff.mp here
  constructor
  · simp only [ThreadPool.finalize, counted.poolSize, List.length_eraseIdx_of_lt inside]
  · simpa [ThreadPool.finalize, leave] using before

theorem Counted.step (counted : s.Counted) (a : Step W) : (s.step a).2.Counted := by
  cases a with
  | enqueue worker starts => exact counted.enqueue worker starts
  | setMaxSize size starts =>
    have limited : { s with maxSize := size }.Counted := ⟨counted.1, counted.2⟩
    simp only [ThreadPool.step, setMaxSize]
    split
    · exact limited
    · exact limited.resize starts
  | suspend => exact ⟨counted.1, counted.2⟩
  | resume starts =>
    have resumed : { s with suspended := false }.Counted := ⟨counted.1, counted.2⟩
    exact resumed.resize starts
  | reset => exact ⟨counted.1, counted.2⟩
  | stop => exact ⟨counted.1, counted.2⟩
  | start => exact ⟨counted.1, counted.2⟩
  | advance k => exact counted.advance k
  | pop k => exact counted.pop k
  | finalize k =>
    simp only [ThreadPool.step]
    cases here : s.pool[k]? with
    | none => exact counted
    | some t =>
      by_cases leave : t.phase = .leave
      · simp only [if_pos leave]
        exact counted.finalize here leave
      · simp only [if_neg leave]
        exact counted

theorem counters_exact (size : Nat) (steps : List (Step W)) :
    Counted ((machine W).final (new size) steps) :=
  (machine W).final_invariant (I := Counted) (fun _ a counted => counted.step a) ⟨rfl, rfl⟩ steps

end Counted

section Served

/-- There is work, and nothing holds the threads back from it. -/
def Due (s : ThreadPool W) : Prop :=
  s.suspended = false ∧ s.stopped = false ∧ 1 ≤ s.maxSize ∧ s.queue ≠ []

def Served (s : ThreadPool W) : Prop := s.Due → ∃ t ∈ s.pool, t.WillPop

instance [DecidableEq W] (s : ThreadPool W) : Decidable s.Due :=
  inferInstanceAs (Decidable (_ ∧ _))

instance [DecidableEq W] (s : ThreadPool W) : Decidable s.Served :=
  inferInstanceAs (Decidable (_ → _))

/-- Somebody stays when the `n` newest threads are told to stop. -/
def Stays (s : ThreadPool W) (n : Nat) : Prop :=
  (∃ t ∈ s.pool, t.phase = .pop) ∨ Tended (s.pool.drop n)

/-- `__resize` starts a thread, or leaves one that stays. -/
def Resized (s : ThreadPool W) (starts : Nat → Bool) : Prop :=
  (s.poolSize < s.maxSize ∧ ∃ i < s.queue.length % 2 ^ 32, starts i = true) ∨
    s.Stays (s.poolSize - s.maxSize)

/-- What a step needs of the state before it. Between its last look at the queue and its
`finalize`, a thread still counts in `poolSize`, and in `waitingCount` while it is told to stop
in its sleep: the clients then start nobody. -/
def Guard (s : ThreadPool W) : Step W → Prop
  | .enqueue worker starts =>
    let queued := { s with queue := s.queue ++ [worker] }
    queued.Due → if s.waitingCount ≠ 0 then s.Stays 0 else queued.Resized starts
  | .setMaxSize size starts =>
    let limited := { s with maxSize := size }
    limited.Due → limited.Resized starts
  | .resume starts =>
    let resumed := { s with suspended := false }
    resumed.Due → resumed.Resized starts
  | .start => { s with stopped := false }.Due → s.Stays 0
  | .pop k =>
    -- a thread told to stop takes its last worker and leaves others in the queue
    match s.pool[k]? with
    | none => True
    | some t =>
      s.Due → t.phase = .pop → t.notifiedStop = true → 2 ≤ s.queue.length →
        Tended (s.pool.eraseIdx k)
  | _ => True

theorem served_iff (s : ThreadPool W) : s.Served ↔ (s.Due → Tended s.pool) := by
  have same : (∃ t ∈ s.pool, t.WillPop) ↔ Tended s.pool := by
    simp only [Tended, PooledThread.willPop_iff]
  rw [Served, same]

theorem not_due_of_suspended {s : ThreadPool W} (suspended : s.suspended = true) : ¬ s.Due := by
  intro due
  exact absurd (due.1.symm.trans suspended) (by decide)

theorem served_iff_of_suspended {s : ThreadPool W} {P : Prop} (suspended : s.suspended = true) :
    s.Served ↔ (s.Due → P) :=
  iff_of_true (fun due => absurd due (not_due_of_suspended suspended))
    fun due => absurd due (not_due_of_suspended suspended)

theorem stays_zero (s : ThreadPool W) : s.Stays 0 ↔ Tended s.pool := by
  constructor
  · intro stays
    exact (stopLoop_tended 0 s.pool).mpr stays
  · exact .inr

theorem resize_tended {s : ThreadPool W} (starts : Nat → Bool) (some_work : s.queue ≠ []) :
    Tended (s.resize starts).pool ↔ s.Resized starts := by
  unfold resize Resized
  by_cases below : s.poolSize < s.maxSize
  · rw [if_pos ⟨below, some_work⟩, resizeLoop_tended starts _ below,
      Nat.sub_eq_zero_of_le (Nat.le_of_lt below), stays_zero]
    simp only [below, true_and]
  · rw [if_neg fun h => below h.1]
    by_cases above : s.poolSize > s.maxSize
    · rw [if_pos above]
      simp only [below, false_and, false_or]
      exact stopLoop_tended _ s.pool
    · rw [if_neg above, Nat.sub_eq_zero_of_le (Nat.le_of_not_gt above), stays_zero]
      simp only [below, false_and, false_or]

theorem resize_served (s : ThreadPool W) (starts : Nat → Bool) :
    (s.resize starts).Served ↔ (s.Due → s.Resized starts) := by
  have same : (s.resize starts).Due ↔ s.Due := by
    obtain ⟨size, pool, frame⟩ := s.resize_frame starts
    rw [frame]
    exact Iff.rfl
  rw [served_iff, same]
  constructor
  · intro served due
    exact (resize_tended starts due.2.2.2).mp (served due)
  · intro resized due
    exact (resize_tended starts due.2.2.2).mpr (resized due)

theorem enqueue_served {s : ThreadPool W} (served : s.Served) (worker : W)
    (starts : Nat → Bool) :
    (s.enqueue worker starts).2.Served ↔ s.Guard (.enqueue worker starts) := by
  unfold enqueue Guard
  by_cases stopped : s.stopped = true
  · rw [if_pos stopped]
    constructor
    · intro _ due
      exact absurd (due.2.1.symm.trans stopped) (by decide)
    · intro _
      exact served
  · rw [if_neg stopped]
    by_cases suspended : s.suspended = true
    · simp only [if_pos suspended]
      exact served_iff_of_suspended suspended
    · simp only [if_neg suspended]
      by_cases waiting : s.waitingCount ≠ 0
      · simp only [if_pos waiting, stays_zero]
        exact served_iff _
      · simp only [if_neg waiting]
        exact resize_served _ starts

theorem advance_served {s : ThreadPool W} (served : s.Served) (k : Nat) :
    (s.advance k).Served := by
  unfold advance
  cases here : s.pool[k]? with
  | none => exact served
  | some t =>
    rw [served_iff] at served ⊢
    intro due
    apply (set_tended here).mpr
    rw [t.advance_leaving]
    exact (tended_iff here).mp (served due)

theorem finalize_served {s : ThreadPool W} (served : s.Served) {k : Nat} {t : PooledThread}
    (here : s.pool[k]? = some t) (leave : t.phase = .leave) : (s.finalize k).Served := by
  rw [served_iff] at served ⊢
  intro due
  cases (tended_iff here).mp (served due) with
  | inl stays => exact absurd (.inl leave) stays
  | inr others => exact others

theorem pop_served {s : ThreadPool W} (served : s.Served) (k : Nat) :
    (s.step (.pop k)).2.Served ↔ s.Guard (.pop k) := by
  simp only [step, Guard]
  cases here : s.pool[k]? with
  | none => exact iff_of_true served trivial
  | some t =>
    by_cases pop : t.phase = .pop
    · simp only [if_pos pop, popQueue]
      by_cases suspended : s.suspended = true
      · simp only [if_pos suspended]
        exact served_iff_of_suspended suspended
      · simp only [if_neg suspended, served_iff]
        cases queue : s.queue with
        | nil =>
          constructor
          · intro _ due
            exact absurd queue due.2.2.2
          · intro _ due
            exact absurd queue due.2.2.2
        | cons worker rest =>
          have next_due (pool : List PooledThread) :
              { s with queue := rest, pool := pool }.Due ↔ s.Due ∧ 2 ≤ s.queue.length := by
            cases rest <;> simp [Due, queue]
          rw [next_due, set_tended here, PooledThread.popped_leaving, queue]
          cases t.notifiedStop with
          | true => simp [pop]
          | false => simp
    · simp only [if_neg pop]
      exact iff_of_true served fun _ h => absurd h pop

/-- One step, from a state that is served. -/
theorem step_served {s : ThreadPool W} (served : s.Served) (a : Step W) :
    (s.step a).2.Served ↔ s.Guard a := by
  cases a with
  | enqueue worker starts => exact enqueue_served served worker starts
  | setMaxSize size starts =>
    simp only [step, setMaxSize, Guard]
    by_cases suspended : s.suspended = true
    · rw [if_pos suspended]
      exact served_iff_of_suspended suspended
    · rw [if_neg suspended]
      exact resize_served _ starts
  | suspend => exact iff_of_true (fun due => absurd due.1 (by simp [step, suspend])) trivial
  | resume starts => exact resize_served _ starts
  | reset => exact iff_of_true (fun due => absurd due.2.1 (by simp [step, reset])) trivial
  | stop => exact iff_of_true (fun due => absurd due.2.1 (by simp [step, stop])) trivial
  | start =>
    simp only [step, start, Guard, stays_zero]
    exact served_iff _
  | advance k => exact iff_of_true (advance_served served k) trivial
  | pop k => exact pop_served served k
  | finalize k =>
    apply iff_of_true _ trivial
    simp only [step]
    cases here : s.pool[k]? with
    | none => exact served
    | some t =>
      by_cases leave : t.phase = .leave
      · simp only [if_pos leave]
        exact finalize_served served here leave
      · simp only [if_neg leave]
        exact served

/-- No accepted worker is left with no thread to run it, exactly as long as no step starts in
the window between a thread's decision to leave and its `finalize`. -/
theorem pool_served_iff (size : Nat) (steps : List (Step W)) :
    (∀ front, front <+: steps → Served ((machine W).final (new size) front)) ↔
      (machine W).Guarded Guard (new size) steps := by
  have empty : (new size : ThreadPool W).Served := fun due => absurd rfl due.2.2.2
  exact (machine W).always_iff_guarded (P := Served) (fun _ a served => step_served served a)
    empty steps

/-- A pool of one thread. The thread finds nothing twice and decides to leave, then the second
worker is accepted: nobody waits, and the pool is full. -/
theorem not_always_served :
    ¬ ∀ (size : Nat) (steps : List (Step Nat)),
      Served ((machine Nat).final (new size) steps) := by
  intro claim
  have served := claim 1 [.enqueue 1 fun _ => true, .advance 0, .pop 0, .advance 0, .advance 0,
    .pop 0, .advance 0, .advance 0, .advance 0, .pop 0, .enqueue 2 fun _ => true]
  exact absurd served (by decide)

end Served

end ThreadPool

end CppMyth
