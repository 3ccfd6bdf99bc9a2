import CppMyth.Library.Transition

/-! The thread of one event subscription, `mytheventhandler.cpp`, and the event it waits on,
`event.h`. Each section that holds a lock of the event is one atomic step. The lock of the
queue is held over several steps of a poster. -/
namespace CppMyth
open Library

/-- `OS::Event`. Who sleeps on its condition is known by the stage of the thread. -/
structure OS.Event where
  notified : Bool := false
  notifyOne : Bool := false
  waitingCount : Nat := 0
  autoReset : Bool := true
  deriving DecidableEq

namespace OS.Event

def notify_one (e : OS.Event) : OS.Event := { e with notifyOne := true, notified := true }

/-- `__reset` -/
def reset (e : OS.Event) (force : Bool) : OS.Event :=
  if force ∨ e.waitingCount = 0 then { e with notified := false } else e

/-- `wait` up to the wait on the condition. -/
def enter (e : OS.Event) : OS.Event := { e with waitingCount := e.waitingCount + 1 }

/-- `wait` after the condition has told whether the event was notified. -/
def leave (e : OS.Event) (notified : Bool) : OS.Event :=
  let e := { e with waitingCount := e.waitingCount - 1 }
  if e.autoReset ∧ notified then e.reset e.notifyOne else e

end OS.Event

/-- Where `process` is: the test of the outer loop, the two tests of the inner one, the section
that takes a message, the handler, and the wait. `asleep` says whether it has been woken. -/
inductive WorkerStage (M : Type) where
  | outer | inner | test | take
  | handle (msg : M)
  | wait
  | asleep (woken : Bool)
  | done
  /-- `front` of an empty list -/
  | undefined
  deriving DecidableEq

/-- A signal of the condition. -/
def WorkerStage.signal {M : Type} : WorkerStage M → WorkerStage M
  | .asleep _ => .asleep true
  | stage => stage

inductive PosterStage (M : Type) where
  | idle
  | locked (msg : M)
  | pushed
  | signalled
  deriving DecidableEq

variable {T M : Type}

/-- `mutex` is the poster that holds `m_mutex`. `posted` and `handled` record what was pushed
and what the handler was called with. -/
structure SubscriptionThread (T M : Type) where
  msgQueue : List M
  mutex : Option T
  queueContent : OS.Event
  notifiedStop : Bool
  worker : WorkerStage M
  poster : T → PosterStage M
  posted : List M
  handled : List M

namespace SubscriptionThread

def initial : SubscriptionThread T M := ⟨[], none, {}, false, .outer, fun _ => .idle, [], []⟩

/-- A step of the worker, of a poster in PostMessage, or of the thread that stops it. -/
inductive Act (T M : Type) where
  | work
  /-- The wait on the condition ends for no reason. -/
  | spurious
  /-- The wait ends unnotified, as `wait_for` does. `process` waits without a limit, so its own
  wait never takes this step. -/
  | expire
  | lock (t : T) (msg : M)
  | push (t : T)
  | notify (t : T)
  | unlock (t : T)
  | stop
  | notifyStop
  deriving DecidableEq

def Enabled (s : SubscriptionThread T M) : Act T M → Prop
  | .work => s.worker ≠ .done ∧ s.worker ≠ .undefined ∧ s.worker ≠ .asleep false ∧
      (s.worker = .take → s.mutex = none)
  | .spurious => ∃ woken, s.worker = .asleep woken
  | .expire => ∃ woken, s.worker = .asleep woken
  | .lock t _ => s.poster t = .idle ∧ s.mutex = none
  | .push t => ∃ msg, s.poster t = .locked msg
  | .notify t => s.poster t = .pushed
  | .unlock t => s.poster t = .signalled
  | .stop => True
  | .notifyStop => s.notifiedStop = true

/-- The test of the predicate, under the lock of the event. -/
def await (s : SubscriptionThread T M) (e : OS.Event) : SubscriptionThread T M :=
  if e.notified then { s with queueContent := e.leave true, worker := .outer }
  else { s with queueContent := e, worker := .asleep false }

def work (s : SubscriptionThread T M) : SubscriptionThread T M :=
  match s.worker with
  | .outer => { s with worker := if s.notifiedStop then .done else .inner }
  | .inner => { s with worker := if s.msgQueue = [] then .wait else .test }
  | .test => { s with worker := if s.notifiedStop then .wait else .take }
  | .take =>
    match s.msgQueue with
    | [] => { s with worker := .undefined }
    | msg :: rest => { s with msgQueue := rest, worker := .handle msg }
  | .handle msg => { s with handled := s.handled ++ [msg], worker := .inner }
  | .wait => s.await s.queueContent.enter
  | .asleep _ => s.await s.queueContent
  | .done => s
  | .undefined => s

/-- `notify_one`, which wakes the worker if it sleeps. -/
def notifyOne (s : SubscriptionThread T M) : SubscriptionThread T M :=
  { s with queueContent := s.queueContent.notify_one, worker := s.worker.signal }

def next [DecidableEq T] (s : SubscriptionThread T M) : Act T M → SubscriptionThread T M
  | .work => s.work
  | .spurious => { s with worker := s.worker.signal }
  | .expire => { s with queueContent := s.queueContent.leave false, worker := .outer }
  | .lock t msg =>
    { s with mutex := some t, poster := Function.update s.poster t (.locked msg) }
  | .push t =>
    match s.poster t with
    | .locked msg =>
      { s with
        msgQueue := s.msgQueue ++ [msg]
        posted := s.posted ++ [msg]
        poster := Function.update s.poster t .pushed }
    | _ => s
  | .notify t => { s.notifyOne with poster := Function.update s.poster t .signalled }
  | .unlock t => { s with mutex := none, poster := Function.update s.poster t .idle }
  | .stop => { s with notifiedStop := true }
  | .notifyStop => s.notifyOne

def Step [DecidableEq T] (s : SubscriptionThread T M) (a : Act T M)
    (s' : SubscriptionThread T M) : Prop :=
  s.Enabled a ∧ s' = s.next a

/-- The message that is taken from the queue and not handled yet. -/
def inHand (s : SubscriptionThread T M) : List M :=
  match s.worker with
  | .handle msg => [msg]
  | _ => []

/-- The worker is about to wait, or waits. -/
def AtWait (s : SubscriptionThread T M) : Prop :=
  s.worker = .wait ∨ ∃ woken, s.worker = .asleep woken

/-- Somebody sees to it that the worker looks at the queue again. -/
def Noticed (s : SubscriptionThread T M) : Prop :=
  s.queueContent.notified = true ∨ ∃ t, s.poster t = .pushed

structure Invariant (s : SubscriptionThread T M) : Prop where
  log : s.posted = s.handled ++ s.inHand ++ s.msgQueue
  tested : s.worker = .test ∨ s.worker = .take → s.msgQueue ≠ []
  defined : s.worker ≠ .undefined
  noticed : s.AtWait → s.msgQueue ≠ [] → s.notifiedStop = false → s.Noticed
  roused : s.worker = .asleep false → s.queueContent.notified = false

theorem inHand_eq_nil {s : SubscriptionThread T M} (free : ∀ msg, s.worker ≠ .handle msg) :
    s.inHand = [] := by
  unfold inHand
  split
  · rename_i msg held
    exact absurd held (free msg)
  · rfl

/-- Away from the tests and from the wait only the order of the messages is to be kept. -/
theorem Invariant.of_busy {s : SubscriptionThread T M}
    (log : s.posted = s.handled ++ s.inHand ++ s.msgQueue)
    (busy : s.worker = .outer ∨ s.worker = .inner ∨ s.worker = .done ∨
      ∃ msg, s.worker = .handle msg) : s.Invariant := by
  obtain ⟨msgQueue, mutex, queueContent, notifiedStop, worker, poster, posted, handled⟩ := s
  simp only at busy
  rcases busy with rfl | rfl | rfl | ⟨msg, rfl⟩
  all_goals
    constructor
    · exact log
    · simp
    · simp
    · simp [AtWait]
    · simp

theorem initial_invariant : (initial : SubscriptionThread T M).Invariant :=
  .of_busy rfl (.inl rfl)

/-- The predicate is tested under the lock: a notified event is left, another slept on. -/
theorem await_invariant {s : SubscriptionThread T M} (inv : s.Invariant) (waits : s.AtWait)
    {e : OS.Event} (same : e.notified = s.queueContent.notified) : (s.await e).Invariant := by
  have free : s.inHand = [] := by
    apply inHand_eq_nil
    intro msg held
    rcases waits with wait | ⟨woken, asleep⟩
    · cases held.symm.trans wait
    · cases held.symm.trans asleep
  have log : s.posted = s.handled ++ [] ++ s.msgQueue := free ▸ inv.log
  unfold await
  cases notified : e.notified with
  | true =>
    rw [if_pos rfl]
    exact .of_busy log (.inl rfl)
  | false =>
    rw [if_neg Bool.false_ne_true]
    constructor
    · exact log
    · simp
    · simp
    · intro _ nonempty running
      cases inv.noticed waits nonempty running with
      | inl set => exact absurd (notified.symm.trans (same.trans set)) Bool.false_ne_true
      | inr pushed => exact .inr pushed
    · intro _
      exact notified

theorem work_invariant {s : SubscriptionThread T M} (inv : s.Invariant) : s.work.Invariant := by
  have log := inv.log
  unfold work
  cases stage : s.worker with
  | outer =>
    rw [inHand_eq_nil (by simp [stage])] at log
    cases s.notifiedStop with
    | true => exact .of_busy log (.inr (.inr (.inl rfl)))
    | false => exact .of_busy log (.inr (.inl rfl))
  | inner =>
    rw [inHand_eq_nil (by simp [stage])] at log
    cases queue : s.msgQueue with
    | nil =>
      rw [queue] at log
      constructor
      · exact log
      · simp
      · simp
      · intro _ nonempty
        exact absurd rfl nonempty
      · simp
    | cons msg rest =>
      rw [queue] at log
      simp only [if_neg (List.cons_ne_nil msg rest)]
      constructor
      · exact log
      · intro _
        exact List.cons_ne_nil msg rest
      · simp
      · simp [AtWait]
      · simp
  | test =>
    rw [inHand_eq_nil (by simp [stage])] at log
    cases stopped : s.notifiedStop with
    | true =>
      constructor
      · exact log
      · simp
      · simp
      · intro _ _ running
        cases running
      · simp
    | false =>
      rw [if_neg Bool.false_ne_true]
      constructor
      · exact log
      · intro _
        exact inv.tested (.inl stage)
      · simp
      · simp [AtWait]
      · simp
  | take =>
    rw [inHand_eq_nil (by simp [stage])] at log
    cases queue : s.msgQueue with
    | nil => exact absurd queue (inv.tested (.inr stage))
    | cons msg rest =>
      refine .of_busy ?_ (.inr (.inr (.inr ⟨msg, rfl⟩)))
      rw [queue] at log
      simpa [inHand] using log
  | handle msg =>
    refine .of_busy ?_ (.inr (.inl rfl))
    simpa [inHand, stage] using log
  | wait => exact await_invariant inv (.inl stage) rfl
  | asleep woken => exact await_invariant inv (.inr ⟨woken, stage⟩) rfl
  | done => exact inv
  | undefined => exact absurd stage inv.defined

theorem signal_cases (stage : WorkerStage M) :
    (∃ woken, stage = .asleep woken) ∧ stage.signal = .asleep true ∨
      (∀ woken, stage ≠ .asleep woken) ∧ stage.signal = stage := by
  cases stage with
  | asleep woken => exact .inl ⟨⟨woken, rfl⟩, rfl⟩
  | outer | inner | test | take | wait | done | undefined | handle msg =>
    exact .inr ⟨by simp, rfl⟩

/-- A sleeper that is signalled sleeps no less than before; the other stages stay. -/
theorem signal_invariant {s : SubscriptionThread T M} (inv : s.Invariant) (e : OS.Event)
    (poster : T → PosterStage M)
    (noticed : s.Noticed → Noticed { s with queueContent := e, poster }) :
    Invariant { s with queueContent := e, worker := s.worker.signal, poster } := by
  rcases signal_cases s.worker with ⟨⟨woken, asleep⟩, signalled⟩ | ⟨awake, same⟩
  · have log := inv.log
    rw [inHand_eq_nil (by simp [asleep])] at log
    rw [signalled]
    refine ⟨log, by simp, by simp, fun _ nonempty running => ?_, by simp⟩
    exact noticed (inv.noticed (.inr ⟨woken, asleep⟩) nonempty running)
  · rw [same]
    exact ⟨inv.log, inv.tested, inv.defined, fun waits nonempty running =>
      noticed (inv.noticed waits nonempty running), fun asleep => absurd asleep (awake false)⟩

/-- A poster moves on: whoever has pushed has signalled or has still to signal. -/
theorem Invariant.of_poster {s : SubscriptionThread T M} (inv : s.Invariant) (mutex : Option T)
    (poster : T → PosterStage M)
    (still : ∀ t, s.poster t = .pushed → ∃ u, poster u = .pushed) :
    Invariant { s with mutex, poster } := by
  refine ⟨inv.log, inv.tested, inv.defined, fun waits nonempty running => ?_, inv.roused⟩
  cases inv.noticed waits nonempty running with
  | inl set => exact .inl set
  | inr pushed =>
    obtain ⟨t, pushed⟩ := pushed
    exact .inr (still t pushed)

theorem update_pushed [DecidableEq T] {poster : T → PosterStage M} {t u : T}
    (other : poster t ≠ .pushed) (stage : PosterStage M) (pushed : poster u = .pushed) :
    Function.update poster t stage u = .pushed := by
  have apart : u ≠ t := by
    rintro rfl
    exact other pushed
  rw [Function.update_of_ne apart]
  exact pushed

section

variable [DecidableEq T]

theorem next_invariant {s : SubscriptionThread T M} (inv : s.Invariant) {a : Act T M}
    (enabled : s.Enabled a) : (s.next a).Invariant := by
  cases a with
  | work => exact work_invariant inv
  | spurious => exact signal_invariant inv s.queueContent s.poster id
  | expire =>
    obtain ⟨woken, asleep⟩ := enabled
    have log := inv.log
    rw [inHand_eq_nil (by simp [asleep])] at log
    exact .of_busy log (.inl rfl)
  | lock t msg =>
    refine inv.of_poster _ _ fun u pushed => ⟨u, update_pushed ?_ _ pushed⟩
    simp [enabled.1]
  | push t =>
    obtain ⟨msg, locked⟩ := enabled
    simp only [next, locked]
    refine ⟨?_, fun _ => by simp, inv.defined, fun _ _ _ => ?_, inv.roused⟩
    · simp only [inv.log, List.append_assoc]
      rfl
    · exact .inr ⟨t, Function.update_self _ _ _⟩
  | notify t => exact signal_invariant inv _ _ fun _ => .inl rfl
  | unlock t =>
    refine inv.of_poster _ _ fun u pushed => ⟨u, update_pushed ?_ _ pushed⟩
    have signalled : s.poster t = .signalled := enabled
    simp [signalled]
  | stop =>
    refine ⟨inv.log, inv.tested, inv.defined, fun _ _ running => ?_, inv.roused⟩
    cases running
  | notifyStop => exact signal_invariant inv _ s.poster fun _ => .inl rfl

theorem run_invariant {acts : List (Act T M)} {s : SubscriptionThread T M}
    (run : Run Step initial acts s) : s.Invariant := by
  apply run.invariant _ initial_invariant
  rintro s a _ inv ⟨enabled, rfl⟩
  exact next_invariant inv enabled

/-- In every interleaving the messages are handled in the order they were posted in, each once,
and no wake-up is lost: before the worker sleeps on a message somebody has notified the event,
or has pushed and is about to. -/
theorem handled_in_order {acts : List (Act T M)} {s : SubscriptionThread T M}
    (run : Run Step initial acts s) :
    s.handled <+: s.posted ∧ s.posted = s.handled ++ s.inHand ++ s.msgQueue ∧
      s.worker ≠ .undefined ∧
      (s.msgQueue ≠ [] → s.notifiedStop = false → s.AtWait →
        s.queueContent.notified = true ∨ ∃ t, s.poster t = .pushed) := by
  have inv := run_invariant run
  refine ⟨?_, inv.log, inv.defined, fun nonempty running waits => ?_⟩
  · rw [inv.log, List.append_assoc]
    exact List.prefix_append _ _
  · exact inv.noticed waits nonempty running

/-- A worker that sleeps unwoken on a message waits for a poster that is about to notify it. -/
theorem sleeps_until_notified {acts : List (Act T M)} {s : SubscriptionThread T M}
    (run : Run Step initial acts s) (nonempty : s.msgQueue ≠ []) (running : s.notifiedStop = false)
    (asleep : s.worker = .asleep false) : ∃ t, s.poster t = .pushed := by
  have inv := run_invariant run
  cases inv.noticed (.inr ⟨false, asleep⟩) nonempty running with
  | inl set => exact absurd ((inv.roused asleep).symm.trans set) Bool.false_ne_true
  | inr pushed => exact pushed

end

/-- The worker finds the queue empty, a poster pushes, and the worker goes to sleep. -/
def lateSignal : List (Act Unit Nat) := [.work, .work, .lock () 7, .push (), .work]

theorem lateSignal_handled : ∃ s : SubscriptionThread Unit Nat, Run Step initial lateSignal s ∧
    s.msgQueue = [7] ∧ s.worker = .asleep false ∧ s.handled <+: s.posted ∧
    (s.queueContent.notified = true ∨ ∃ t, s.poster t = .pushed) := by
  have run : Run Step (initial : SubscriptionThread Unit Nat) lateSignal _ :=
    .cons ⟨by simp [Enabled, initial], rfl⟩ <|
      .cons ⟨by simp [Enabled, next, work, initial], rfl⟩ <|
        .cons ⟨⟨rfl, rfl⟩, rfl⟩ <| .cons ⟨⟨7, rfl⟩, rfl⟩ <|
          .cons ⟨by simp [Enabled, next, work, initial], rfl⟩ <| .nil _
  obtain ⟨order, -, -, noticed⟩ := handled_in_order run
  exact ⟨_, run, rfl, rfl, order, noticed (by decide) rfl (.inr ⟨false, rfl⟩)⟩

end SubscriptionThread

end CppMyth
