import CppMyth.Library.Transition
import Mathlib.Data.List.Perm.Basic

/-! The life of a thread, `thread.h`, while any number of callers start and stop it. Each section
that holds the mutex of the handle is one step, and so is all that `process` does. -/
namespace CppMyth
open Library

/-- What a thread that was created does next: say that it runs, run `process`, say that it has
stopped, or nothing any more. -/
inductive HandlerStage where
  | created | processing | returned | finished
  deriving DecidableEq, Repr

/-- The wait that a caller is in. -/
inductive CallerStage where
  | idle | starting | stopping
  deriving DecidableEq, Repr

/-- The flags of the handle, the threads that were created for it, and its callers. -/
structure Thread (C : Type) where
  running : Bool
  stopped : Bool
  notifiedStop : Bool
  handlers : List HandlerStage
  callers : C → CallerStage

namespace Thread

variable {C : Type}

def initial : Thread C := ⟨false, true, false, [], fun _ => .idle⟩

inductive Act (C : Type) where
  /-- `created` is the outcome of thread_create. -/
  | start (c : C) (wait created : Bool)
  /-- The wait of start_thread ends. -/
  | started (c : C)
  | stop (c : C) (wait : Bool)
  /-- The wait of stop_thread ends. -/
  | joined (c : C)
  | enter (i : Nat)
  | leave (i : Nat)
  | finish (i : Nat)
  deriving DecidableEq

def Enabled (s : Thread C) : Act C → Prop
  | .start c _ _ => s.callers c = .idle
  | .started c => s.callers c = .starting ∧ s.running = true
  | .stop c _ => s.callers c = .idle
  | .joined c => s.callers c = .stopping ∧ s.stopped = true
  | .enter i => s.handlers[i]? = some .created
  | .leave i => s.handlers[i]? = some .processing
  | .finish i => s.handlers[i]? = some .returned

def next [DecidableEq C] (s : Thread C) : Act C → Thread C
  | .start c wait created =>
    if s.running then s
    else if created then
      { s with
        notifiedStop := false
        handlers := s.handlers ++ [.created]
        callers := Function.update s.callers c (if wait then .starting else .idle) }
    else { s with notifiedStop := false }
  | .started c => { s with callers := Function.update s.callers c .idle }
  | .stop c wait =>
    { s with
      notifiedStop := true
      callers := Function.update s.callers c (if wait then .stopping else .idle) }
  | .joined c => { s with callers := Function.update s.callers c .idle }
  | .enter i =>
    { s with running := true, stopped := false, handlers := s.handlers.set i .processing }
  | .leave i => { s with handlers := s.handlers.set i .returned }
  | .finish i =>
    { s with running := false, stopped := true, handlers := s.handlers.set i .finished }

/-- A step that the callers and `process` may take under `guard`. -/
def Step [DecidableEq C] (guard : Thread C → Act C → Prop) (s : Thread C) (a : Act C)
    (s' : Thread C) : Prop :=
  s.Enabled a ∧ guard s a ∧ s' = s.next a

/-- Nobody starts the thread while one that was created has not begun. -/
def OneByOne (s : Thread C) : Act C → Prop
  | .start _ _ _ => .created ∉ s.handlers
  | _ => True

/-- Moreover nobody stops it while a caller still waits for its start, and `process` goes on
until it is told to stop. -/
def Orderly (s : Thread C) : Act C → Prop
  | .start _ _ _ => .created ∉ s.handlers
  | .stop _ _ => ∀ c, s.callers c ≠ .starting
  | .leave _ => s.notifiedStop = true
  | _ => True

/-- At most one thread is not finished, and the flags tell what it does. -/
inductive Alone (s : Thread C) : Prop
  | none (all : ∀ h ∈ s.handlers, h = .finished) (running : s.running = false)
      (stopped : s.stopped = true)
  | begins (k : Nat) (here : s.handlers[k]? = some .created)
      (others : ∀ j h, s.handlers[j]? = some h → j ≠ k → h = .finished)
      (running : s.running = false) (stopped : s.stopped = true)
  | works (k : Nat) (stage : HandlerStage) (here : s.handlers[k]? = some stage)
      (at_work : stage = .processing ∨ stage = .returned)
      (others : ∀ j h, s.handlers[j]? = some h → j ≠ k → h = .finished)
      (running : s.running = true) (stopped : s.stopped = false)

section Alone

variable {s : Thread C} {a : Act C}

theorem initial_alone : Alone (initial : Thread C) := .none (by simp [initial]) rfl rfl

/-- Only the flags and the threads count. -/
theorem Alone.of_eq {t : Thread C} (alone : Alone s) (running : t.running = s.running)
    (stopped : t.stopped = s.stopped) (handlers : t.handlers = s.handlers) : Alone t := by
  cases alone with
  | none all r p => exact .none (handlers ▸ all) (running.trans r) (stopped.trans p)
  | begins k here others r p =>
    exact .begins k (handlers ▸ here) (handlers ▸ others) (running.trans r) (stopped.trans p)
  | works k stage here at_work others r p =>
    exact .works k stage (handlers ▸ here) at_work (handlers ▸ others) (running.trans r)
      (stopped.trans p)

theorem set_others {handlers : List HandlerStage} {k : Nat} {stage : HandlerStage}
    (others : ∀ j h, handlers[j]? = some h → j ≠ k → h = .finished) :
    ∀ j h, (handlers.set k stage)[j]? = some h → j ≠ k → h = .finished := by
  intro j h found other
  rw [List.getElem?_set_ne (Ne.symm other)] at found
  exact others j h found other

theorem set_here {handlers : List HandlerStage} {k : Nat} {old stage : HandlerStage}
    (here : handlers[k]? = some old) : (handlers.set k stage)[k]? = some stage := by
  obtain ⟨bound, -⟩ := List.getElem?_eq_some_iff.mp here
  exact List.getElem?_set_self bound

/-- The thread that takes a step is the one that is not finished. -/
theorem others_at {k i : Nat} {stage : HandlerStage} {handlers : List HandlerStage}
    (others : ∀ j h, handlers[j]? = some h → j ≠ k → h = .finished)
    (acts : handlers[i]? = some stage) (unfinished : stage ≠ .finished) : i = k := by
  by_contra other
  exact unfinished (others i stage acts other)

theorem oneByOne_of_orderly (guard : s.Orderly a) : s.OneByOne a := by
  cases a with
  | start c wait created => exact guard
  | _ => trivial

variable [DecidableEq C]

theorem next_alone (alone : Alone s) (enabled : s.Enabled a) (guard : s.OneByOne a) :
    Alone (s.next a) := by
  cases a with
  | start c wait created =>
    simp only [next]
    split
    · exact alone
    · rename_i idle
      split
      · cases alone with
        | none all running stopped =>
          refine .begins s.handlers.length (by simp) ?_ running stopped
          intro j h found other
          have short : j < s.handlers.length := by
            obtain ⟨bound, -⟩ := List.getElem?_eq_some_iff.mp found
            simp only [List.length_append, List.length_singleton] at bound
            omega
          rw [List.getElem?_append_left short] at found
          exact all h (List.mem_of_getElem? found)
        | begins k here => exact absurd (List.mem_of_getElem? here) guard
        | works k stage here at_work others running => exact absurd running idle
      · exact alone.of_eq rfl rfl rfl
  | started c => exact alone.of_eq rfl rfl rfl
  | stop c wait => exact alone.of_eq rfl rfl rfl
  | joined c => exact alone.of_eq rfl rfl rfl
  | enter i =>
    cases alone with
    | none all => exact absurd (all _ (List.mem_of_getElem? enabled)) (by decide)
    | begins k here others =>
      obtain rfl := others_at others enabled (by decide)
      exact .works i .processing (set_here here) (.inl rfl) (set_others others) rfl rfl
    | works k stage here at_work others =>
      obtain rfl := others_at others enabled (by decide)
      have same := Option.some.inj (here.symm.trans enabled)
      subst same
      rcases at_work with working | working <;> cases working
  | leave i =>
    cases alone with
    | none all => exact absurd (all _ (List.mem_of_getElem? enabled)) (by decide)
    | begins k here others =>
      obtain rfl := others_at others enabled (by decide)
      cases Option.some.inj (here.symm.trans enabled)
    | works k stage here at_work others running stopped =>
      obtain rfl := others_at others enabled (by decide)
      exact .works i .returned (set_here here) (.inr rfl) (set_others others) running stopped
  | finish i =>
    cases alone with
    | none all => exact absurd (all _ (List.mem_of_getElem? enabled)) (by decide)
    | begins k here others =>
      obtain rfl := others_at others enabled (by decide)
      cases Option.some.inj (here.symm.trans enabled)
    | works k stage here at_work others =>
      obtain rfl := others_at others enabled (by decide)
      refine .none (fun h held => ?_) rfl rfl
      change h ∈ s.handlers.set i .finished at held
      obtain ⟨j, found⟩ := List.mem_iff_getElem?.mp held
      by_cases same : j = i
      · subst same
        rw [set_here here] at found
        exact (Option.some.inj found).symm
      · exact set_others others j h found same

theorem run_alone {acts : List (Act C)} (run : Run (Step OneByOne) initial acts s) : Alone s := by
  apply run.invariant _ initial_alone
  rintro s a _ alone ⟨enabled, guard, rfl⟩
  exact next_alone alone enabled guard

/-- When the thread is started one at a time, `process` never runs twice at once, the flags are
exact, and a caller whose stop_thread returns finds no `process` running. -/
theorem process_alone (acts : List (Act C)) (s : Thread C)
    (run : Run (Step OneByOne) initial acts s) :
    (∀ i j : Nat, s.handlers[i]? = some HandlerStage.processing →
        s.handlers[j]? = some HandlerStage.processing → i = j) ∧
      (s.running = true ↔
        HandlerStage.processing ∈ s.handlers ∨ HandlerStage.returned ∈ s.handlers) ∧
      (s.stopped = !s.running) ∧
      ∀ c, s.Enabled (.joined c) → HandlerStage.processing ∉ s.handlers := by
  have idle : ∀ {k : Nat} {stage : HandlerStage}, s.handlers[k]? = some stage →
      (∀ j h, s.handlers[j]? = some h → j ≠ k → h = .finished) →
      ∀ h ∈ s.handlers, h = stage ∨ h = .finished := by
    intro k stage here others h held
    obtain ⟨j, found⟩ := List.mem_iff_getElem?.mp held
    by_cases same : j = k
    · subst same
      exact .inl (Option.some.inj (found.symm.trans here))
    · exact .inr (others j h found same)
  cases run_alone run with
  | none all running stopped =>
    have absent : ∀ h, h ≠ .finished → h ∉ s.handlers := fun h other held => other (all h held)
    refine ⟨fun i j at_i => ?_, ?_, by simp [running, stopped], fun _ _ => absent _ (by decide)⟩
    · exact absurd (List.mem_of_getElem? at_i) (absent _ (by decide))
    · simp [running, absent]
  | begins k here others running stopped =>
    have absent : ∀ h, h ≠ .finished → h ≠ .created → h ∉ s.handlers := fun h other another held =>
      (idle here others h held).elim another other
    refine ⟨fun i j at_i => ?_, ?_, by simp [running, stopped], fun _ _ =>
      absent _ (by decide) (by decide)⟩
    · exact absurd (List.mem_of_getElem? at_i) (absent _ (by decide) (by decide))
    · simp [running, absent]
  | works k stage here at_work others running stopped =>
    refine ⟨fun i j at_i at_j => ?_, ?_, by simp [running, stopped], ?_⟩
    · rw [others_at others at_i (by decide), others_at others at_j (by decide)]
    · have held := List.mem_of_getElem? here
      rcases at_work with rfl | rfl
      · simp [running, held]
      · simp [running, held]
    · rintro c ⟨-, ended⟩
      simp [stopped] at ended

/-- A caller in start_thread that nothing but another start can bring back. -/
def Stranded (s : Thread C) (c : C) : Prop :=
  s.callers c = .starting ∧ ∀ acts t, Run (Step fun _ _ => True) s acts t →
    (∀ d wait created, .start d wait created ∉ acts) → t.callers c = .starting

/-- A caller that still waits when no thread is left is stranded. -/
theorem stranded_of_finished {c : C}
    (starting : s.callers c = .starting) (running : s.running = false)
    (all : ∀ h ∈ s.handlers, h = .finished) : Stranded s c := by
  refine ⟨starting, fun acts t run => ?_⟩
  induction run with
  | nil => exact fun _ => starting
  | @cons s u t a acts first _ ih =>
    intro unstarted
    obtain ⟨enabled, -, rfl⟩ := first
    have later : ∀ d wait created, Act.start d wait created ∉ acts := fun d wait created held =>
      unstarted d wait created (List.mem_cons_of_mem a held)
    have other : ∀ {d : C} {stage : CallerStage}, s.callers d ≠ .starting →
        Function.update s.callers d stage c = .starting := by
      intro d stage elsewhere
      rw [Function.update_of_ne]
      · exact starting
      · rintro rfl
        exact elsewhere starting
    cases a with
    | start d wait created => exact absurd List.mem_cons_self (unstarted d wait created)
    | started d => simp [Enabled, running] at enabled
    | stop d wait => exact ih (other (by rw [enabled]; decide)) running all later
    | joined d => exact ih (other (by rw [enabled.1]; decide)) running all later
    | enter i => exact absurd (all _ (List.mem_of_getElem? enabled)) (by decide)
    | leave i => exact absurd (all _ (List.mem_of_getElem? enabled)) (by decide)
    | finish i => exact absurd (all _ (List.mem_of_getElem? enabled)) (by decide)

/-- Whoever waits for its start was not overtaken by the end of the thread. -/
structure Waits (s : Thread C) : Prop where
  alone : Alone s
  pending : ∀ c, s.callers c = .starting →
    s.notifiedStop = false ∧ (.created ∈ s.handlers ∨ .processing ∈ s.handlers)

theorem update_starting {callers : C → CallerStage} {c d : C} {stage : CallerStage}
    (other : stage ≠ .starting) (starting : Function.update callers c stage d = .starting) :
    callers d = .starting := by
  by_cases same : d = c
  · subst same
    rw [Function.update_self] at starting
    exact absurd starting other
  · rwa [Function.update_of_ne same] at starting

theorem next_waits (waits : Waits s) (enabled : s.Enabled a) (guard : s.Orderly a) :
    Waits (s.next a) := by
  refine ⟨next_alone waits.alone enabled (oneByOne_of_orderly guard), ?_⟩
  intro d starting
  cases a with
  | start c wait created =>
    simp only [next] at starting ⊢
    split
    · rename_i running
      rw [if_pos running] at starting
      exact waits.pending d starting
    · rename_i idle
      rw [if_neg idle] at starting
      split
      · exact ⟨rfl, .inl (by simp)⟩
      · rename_i failed
        rw [if_neg failed] at starting
        exact ⟨rfl, (waits.pending d starting).2⟩
  | started c => exact waits.pending d (update_starting (by decide) starting)
  | stop c wait =>
    have other : (if wait then CallerStage.stopping else .idle) ≠ .starting := by
      cases wait <;> decide
    exact absurd (update_starting other starting) (guard d)
  | joined c => exact waits.pending d (update_starting (by decide) starting)
  | enter i =>
    exact ⟨(waits.pending d starting).1, .inr (List.mem_of_getElem? (set_here enabled))⟩
  | leave i =>
    have told := (waits.pending d starting).1
    rw [guard] at told
    cases told
  | finish i =>
    obtain ⟨-, begun⟩ := waits.pending d starting
    cases waits.alone with
    | none all =>
      rcases begun with held | held <;> exact absurd (all _ held) (by decide)
    | begins k here others =>
      obtain rfl := others_at others enabled (by decide)
      cases Option.some.inj (here.symm.trans enabled)
    | works k stage here at_work others =>
      obtain rfl := others_at others enabled (by decide)
      rcases begun with held | held
      all_goals
        obtain ⟨j, found⟩ := List.mem_iff_getElem?.mp held
        obtain rfl := others_at others found (by decide)
        cases Option.some.inj (found.symm.trans enabled)

theorem run_waits {acts : List (Act C)} (run : Run (Step Orderly) initial acts s) : Waits s := by
  apply run.invariant _ ⟨initial_alone, by simp [initial]⟩
  rintro s a _ waits ⟨enabled, guard, rfl⟩
  exact next_waits waits enabled guard

/-- In an orderly run every start_thread that waits can still return. -/
theorem start_returns (acts : List (Act C)) (s : Thread C)
    (run : Run (Step Orderly) initial acts s) (c : C) : ¬ Stranded s c := by
  rintro ⟨starting, stays⟩
  have waits := run_waits run
  have returns : ∀ t : Thread C, t.callers c = .starting → t.running = true →
      Run (Step fun _ _ => True) t [.started c] (t.next (.started c)) := by
    intro t starting running
    exact .cons ⟨⟨starting, running⟩, trivial, rfl⟩ (.nil _)
  have back : ∀ t : Thread C, (t.next (.started c)).callers c = .idle := fun t => by simp [next]
  rcases (waits.pending c starting).2 with held | held
  · obtain ⟨i, found⟩ := List.mem_iff_getElem?.mp held
    have enters : Run (Step fun _ _ => True) s [.enter i] (s.next (.enter i)) :=
      .cons ⟨found, trivial, rfl⟩ (.nil _)
    have still := stays _ _ (enters.append (returns _ starting rfl)) (by simp)
    rw [back] at still
    cases still
  · have running : s.running = true := by
      cases waits.alone with
      | none all => exact absurd (all _ held) (by decide)
      | begins k here others =>
        obtain ⟨j, found⟩ := List.mem_iff_getElem?.mp held
        obtain rfl := others_at others found (by decide)
        cases Option.some.inj (here.symm.trans found)
      | works _ _ _ _ _ running => exact running
    have still := stays _ _ (returns s starting running) (by simp)
    rw [back] at still
    cases still

end Alone

/-- One caller starts the thread and stops it. -/
def life : List (Act Unit) :=
  [.start () true true, .enter 0, .started (), .stop () true, .leave 0, .finish 0]

theorem process_alone_life : ∃ s : Thread Unit, Run (Step OneByOne) initial life s ∧
    s.Enabled (.joined ()) ∧ HandlerStage.processing ∉ s.handlers := by
  have run : Run (Step OneByOne) (initial : Thread Unit) life _ :=
    .cons ⟨rfl, by simp [OneByOne, initial], rfl⟩ <| .cons ⟨rfl, trivial, rfl⟩ <|
      .cons ⟨⟨rfl, rfl⟩, trivial, rfl⟩ <| .cons ⟨rfl, trivial, rfl⟩ <|
      .cons ⟨rfl, trivial, rfl⟩ <| .cons ⟨rfl, trivial, rfl⟩ <| .nil _
  exact ⟨_, run, ⟨rfl, rfl⟩, (process_alone life _ run).2.2.2 () ⟨rfl, rfl⟩⟩

theorem start_returns_life : ∃ s : Thread Unit, Run (Step Orderly) initial (life.take 2) s ∧
    s.callers () = .starting ∧ ¬ Stranded s () := by
  have run : Run (Step Orderly) (initial : Thread Unit) (life.take 2) _ :=
    .cons ⟨rfl, by simp [Orderly, initial], rfl⟩ <| .cons ⟨rfl, trivial, rfl⟩ <| .nil _
  exact ⟨_, run, rfl, start_returns _ _ run ()⟩

/-- A thread that is told to stop at once may be over before the wait for its start is, and that
wait then lasts. -/
theorem not_always_returns : ¬ ∀ (acts : List (Act Bool)) (s : Thread Bool),
    Run (Step OneByOne) initial acts s → ∀ c, ¬ Stranded s c := by
  intro claim
  have run : Run (Step OneByOne) (initial : Thread Bool)
      [.start true true true, .enter 0, .stop false false, .leave 0, .finish 0] _ :=
    .cons ⟨rfl, by simp [OneByOne, initial], rfl⟩ <| .cons ⟨rfl, trivial, rfl⟩ <|
      .cons ⟨rfl, trivial, rfl⟩ <| .cons ⟨rfl, trivial, rfl⟩ <|
      .cons ⟨rfl, trivial, rfl⟩ <| .nil _
  exact claim _ _ run true (stranded_of_finished rfl rfl (by simp [next, initial]))

end Thread

end CppMyth
