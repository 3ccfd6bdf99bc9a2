import CppMyth.Library.Transition
import Mathlib.Data.List.Perm.Basic
import Mathlib.Data.Fintype.Basic

/-! The subscriptions of the event handler, `mytheventhandler.cpp`: handler threads by
identifier, identifiers by event, and the dispatch of a message to them. -/
namespace CppMyth
open Library

/-- `EVENT_t` -/
inductive Event where
  | HANDLER_STATUS | HANDLER_TIMER | UNKNOWN | UPDATE_FILE_SIZE | LIVETV_WATCH | LIVETV_CHAIN
  | DONE_RECORDING | QUIT_LIVETV | RECORDING_LIST_CHANGE | SCHEDULE_CHANGE | SIGNAL
  | ASK_RECORDING | CLEAR_SETTINGS_CACHE | GENERATED_PIXMAP | SYSTEM_EVENT
  deriving DecidableEq, Repr

instance : Fintype Event :=
  .ofList [.HANDLER_STATUS, .HANDLER_TIMER, .UNKNOWN, .UPDATE_FILE_SIZE, .LIVETV_WATCH,
    .LIVETV_CHAIN, .DONE_RECORDING, .QUIT_LIVETV, .RECORDING_LIST_CHANGE, .SCHEDULE_CHANGE,
    .SIGNAL, .ASK_RECORDING, .CLEAR_SETTINGS_CACHE, .GENERATED_PIXMAP, .SYSTEM_EVENT]
    fun e => by cases e <;> decide

/-- `thread` tells the threads apart; `handle` is the subscriber it calls back. -/
structure SubscriptionHandlerThread where
  thread : Nat
  handle : Nat
  subId : UInt32
  deriving DecidableEq, Repr

/-- `subscriptions` is in the order of the keys, which are the `subId`s. -/
structure BasicEventHandler where
  subscriptionsByEvent : Event → List UInt32
  subscriptions : List SubscriptionHandlerThread
  threads : Nat

namespace BasicEventHandler

def init : BasicEventHandler := ⟨fun _ => [], [], 0⟩

/-- `std::map::insert`: a key that is there keeps its value. -/
def insert (handler : SubscriptionHandlerThread) :
    List SubscriptionHandlerThread → List SubscriptionHandlerThread
  | [] => [handler]
  | h :: rest =>
    if handler.subId < h.subId then handler :: h :: rest
    else if handler.subId = h.subId then h :: rest
    else h :: insert handler rest

def find (s : BasicEventHandler) (subid : UInt32) : Option SubscriptionHandlerThread :=
  s.subscriptions.find? (·.subId = subid)

/-- The identifier after the largest one, modulo the range of `unsigned`. -/
def nextId (s : BasicEventHandler) : UInt32 :=
  match s.subscriptions.getLast? with
  | some h => h.subId + 1
  | none => 1

/-- `starts` tells whether the thread of the new handler could be started. -/
def createSubscription (s : BasicEventHandler) (sub : Nat) (starts : Bool) :
    Option SubscriptionHandlerThread × BasicEventHandler :=
  let handler := ⟨s.threads, sub, s.nextId⟩
  let s := { s with threads := s.threads + 1 }
  if starts then (some handler, { s with subscriptions := insert handler s.subscriptions })
  else (none, s)

def subscribeForEvent (s : BasicEventHandler) (subid : UInt32) (event : Event) :
    Bool × BasicEventHandler :=
  -- Only for registered subscriber
  if s.find subid = none then (false, s)
  else if subid ∈ s.subscriptionsByEvent event then (true, s)
  else
    let sevt := s.subscriptionsByEvent event ++ [subid]
    (true, { s with
      subscriptionsByEvent := Function.update s.subscriptionsByEvent event sevt })

def revokeSubscription (s : BasicEventHandler) (subid : UInt32) : BasicEventHandler :=
  { s with subscriptions := s.subscriptions.filter (·.subId ≠ subid) }

def revokeAllSubscriptions (s : BasicEventHandler) (sub : Nat) : BasicEventHandler :=
  { s with subscriptions := s.subscriptions.filter (·.handle ≠ sub) }

/-- The threads that PostMessage is called on, in order. -/
def dispatchEvent (s : BasicEventHandler) (event : Event) :
    List SubscriptionHandlerThread × BasicEventHandler :=
  let sevt := s.subscriptionsByEvent event
  (sevt.filterMap s.find, { s with
    subscriptionsByEvent := Function.update s.subscriptionsByEvent event
      (sevt.filter fun subid => s.find subid ≠ none) })

end BasicEventHandler

inductive HandlerCall where
  | create (sub : Nat) (starts : Bool)
  | subscribe (subid : UInt32) (event : Event)
  | revoke (subid : UInt32)
  | revokeAll (sub : Nat)
  | dispatch (event : Event)
  deriving DecidableEq, Repr

inductive HandlerEvent where
  | created (handler : SubscriptionHandlerThread)
  | notCreated
  | subscribed (subid : UInt32) (event : Event) (ok : Bool)
  | revoked (subid : UInt32)
  | revokedAll (sub : Nat)
  | dispatched (event : Event) (posts : List SubscriptionHandlerThread)

/-- A live subscription, with the events it has been subscribed to since it was created. -/
structure Subscription where
  handler : SubscriptionHandlerThread
  events : List Event
  deriving DecidableEq, Repr

namespace Subscription

/-- What the handler is for: each subscription keeps its own set of events, and a message is
posted once to each live subscription to its event and to no other. -/
def accept (live : List Subscription) : HandlerEvent → Option (List Subscription)
  | .created handler =>
    if handler.subId ∈ live.map (·.handler.subId) then none else some (⟨handler, []⟩ :: live)
  | .notCreated => some live
  | .subscribed subid event ok =>
    if ok = live.any (·.handler.subId = subid) then
      some (live.map fun s =>
        if s.handler.subId = subid ∧ event ∉ s.events then { s with events := event :: s.events }
        else s)
    else none
  | .revoked subid => some (live.filter (·.handler.subId ≠ subid))
  | .revokedAll sub => some (live.filter (·.handler.handle ≠ sub))
  | .dispatched event posts =>
    if posts.Perm ((live.filter (event ∈ ·.events)).map (·.handler)) then some live else none

end Subscription

namespace BasicEventHandler

def machine : Machine BasicEventHandler HandlerCall HandlerEvent where
  step s
    | .create sub starts =>
      let r := s.createSubscription sub starts
      (r.1.elim .notCreated .created, r.2)
    | .subscribe subid event =>
      let r := s.subscribeForEvent subid event
      (.subscribed subid event r.1, r.2)
    | .revoke subid => (.revoked subid, s.revokeSubscription subid)
    | .revokeAll sub => (.revokedAll sub, s.revokeAllSubscriptions sub)
    | .dispatch event =>
      let r := s.dispatchEvent event
      (.dispatched event r.1, r.2)

/-- A subscription is only created under an identifier that no live subscription and no list
of an event holds. -/
def FreshId (s : BasicEventHandler) : HandlerCall → Prop
  | .create _ starts => starts = true →
      (∀ h ∈ s.subscriptions, h.subId ≠ s.nextId) ∧ ∀ e, s.nextId ∉ s.subscriptionsByEvent e
  | _ => True

instance decidableFreshId : (s : BasicEventHandler) → (call : HandlerCall) →
    Decidable (s.FreshId call)
  | _, .create _ starts => inferInstanceAs (Decidable (starts = true → _ ∧ _))
  | _, .subscribe _ _ | _, .revoke _ | _, .revokeAll _ | _, .dispatch _ => isTrue trivial

/-- The live subscriptions are those of the map, and an identifier of one is in the list of an
event if and only if that subscription was subscribed to it. -/
structure Keeps (s : BasicEventHandler) (live : List Subscription) : Prop where
  threads : s.subscriptions.Perm (live.map (·.handler))
  ids : (live.map (·.handler.subId)).Nodup
  events : ∀ sub ∈ live, ∀ e, sub.handler.subId ∈ s.subscriptionsByEvent e ↔ e ∈ sub.events
  lists : ∀ e, (s.subscriptionsByEvent e).Nodup

namespace Keeps

variable {s : BasicEventHandler} {live : List Subscription}

theorem init : BasicEventHandler.init.Keeps [] :=
  ⟨.refl _, List.nodup_nil, by simp, fun _ => List.nodup_nil⟩

theorem find_iff (h : s.Keeps live) (subid : UInt32) (handler : SubscriptionHandlerThread) :
    s.find subid = some handler ↔ handler ∈ s.subscriptions ∧ handler.subId = subid := by
  have ids : (s.subscriptions.map (·.subId)).Nodup := by
    have same := h.threads.map (·.subId)
    rw [List.map_map] at same
    exact same.nodup_iff.mpr h.ids
  constructor
  · intro found
    exact ⟨List.mem_of_find?_eq_some found, by simpa using List.find?_some found⟩
  · rintro ⟨held, rfl⟩
    cases found : s.find handler.subId with
    | none => simpa using List.find?_eq_none.mp found handler held
    | some other =>
      have same : other.subId = handler.subId := by simpa using List.find?_some found
      rw [List.inj_on_of_nodup_map ids (List.mem_of_find?_eq_some found) held same]

theorem mem_threads (h : s.Keeps live) (handler : SubscriptionHandlerThread) :
    handler ∈ s.subscriptions ↔ ∃ sub ∈ live, sub.handler = handler := by
  rw [h.threads.mem_iff, List.mem_map]

theorem insert_perm {handler : SubscriptionHandlerThread}
    {handlers : List SubscriptionHandlerThread}
    (fresh : ∀ h ∈ handlers, h.subId ≠ handler.subId) :
    (insert handler handlers).Perm (handler :: handlers) := by
  induction handlers with
  | nil => exact .refl _
  | cons h rest ih =>
    have tail := ih fun k hk => fresh k (List.mem_cons_of_mem h hk)
    unfold insert
    rw [if_neg (Ne.symm (fresh h List.mem_cons_self))]
    split
    · exact .refl _
    · exact (tail.cons h).trans (.swap handler h rest)

theorem create (h : s.Keeps live) (sub : Nat) (starts : Bool)
    (fresh : s.FreshId (.create sub starts)) :
    ∃ next, Subscription.accept live (machine.step s (.create sub starts)).1 = some next ∧
      (machine.step s (.create sub starts)).2.Keeps next := by
  cases starts with
  | false => exact ⟨live, rfl, h.threads, h.ids, h.events, h.lists⟩
  | true =>
    obtain ⟨new, unlisted⟩ := fresh rfl
    have absent : s.nextId ∉ live.map (·.handler.subId) := by
      intro used
      obtain ⟨k, hk, same⟩ := List.mem_map.mp used
      exact new k.handler ((h.mem_threads _).mpr ⟨k, hk, rfl⟩) same
    refine ⟨⟨⟨s.threads, sub, s.nextId⟩, []⟩ :: live, if_neg absent, ?_, ?_, ?_, h.lists⟩
    · exact (insert_perm new).trans (h.threads.cons _)
    · exact List.nodup_cons.mpr ⟨absent, h.ids⟩
    · intro k hk e
      rcases List.mem_cons.mp hk with rfl | hk
      · simpa [machine, createSubscription] using unlisted e
      · exact h.events k hk e

theorem registered_iff (h : s.Keeps live) (subid : UInt32) :
    s.find subid ≠ none ↔ live.any (·.handler.subId = subid) = true := by
  rw [Option.ne_none_iff_exists', List.any_eq_true]
  constructor
  · rintro ⟨handler, found⟩
    obtain ⟨held, id⟩ := (h.find_iff subid handler).mp found
    obtain ⟨sub, hs, rfl⟩ := (h.mem_threads handler).mp held
    exact ⟨sub, hs, by simpa using id⟩
  · rintro ⟨sub, hs, id⟩
    exact ⟨sub.handler,
      (h.find_iff _ _).mpr ⟨(h.mem_threads _).mpr ⟨sub, hs, rfl⟩, by simpa using id⟩⟩

theorem subscribe_lists (h : s.Keeps live) (subid : UInt32) (event : Event) (e : Event) :
    ((s.subscribeForEvent subid event).2.subscriptionsByEvent e).Nodup ∧
      ∀ id, id ∈ (s.subscribeForEvent subid event).2.subscriptionsByEvent e ↔
        id ∈ s.subscriptionsByEvent e ∨ (id = subid ∧ e = event ∧ s.find subid ≠ none) := by
  have nodup := h.lists e
  unfold subscribeForEvent
  by_cases registered : s.find subid = none
  · simpa [registered] using nodup
  · by_cases listed : subid ∈ s.subscriptionsByEvent event
    · simp only [if_neg registered, if_pos listed]
      exact ⟨nodup, by grind⟩
    · simp only [if_neg registered, if_neg listed]
      by_cases same : e = event
      · subst same
        simp only [Function.update_self, List.mem_append, List.mem_singleton]
        exact ⟨List.nodup_append.mpr ⟨nodup, List.nodup_singleton _, by grind⟩, by grind⟩
      · rw [Function.update_of_ne same]
        exact ⟨nodup, by grind⟩

theorem subscribe (h : s.Keeps live) (subid : UInt32) (event : Event) :
    ∃ next, Subscription.accept live (machine.step s (.subscribe subid event)).1 = some next ∧
      (machine.step s (.subscribe subid event)).2.Keeps next := by
  have ok : (s.subscribeForEvent subid event).1 = live.any (·.handler.subId = subid) := by
    have registered := h.registered_iff subid
    unfold subscribeForEvent
    by_cases none : s.find subid = none
    · simpa [none] using registered
    · have some_ := registered.mp none
      rw [some_, if_neg none]
      split <;> rfl
  have subscriptions : (s.subscribeForEvent subid event).2.subscriptions = s.subscriptions := by
    unfold subscribeForEvent
    split
    · rfl
    · split <;> rfl
  have lists := h.subscribe_lists subid event
  refine ⟨_, if_pos ok, ?_, ?_, ?_, fun e => (lists e).1⟩
  · rw [List.map_map]
    refine (Eq.symm subscriptions ▸ h.threads).trans (.of_eq (List.map_congr_left fun sub _ => ?_))
    simp only [Function.comp_apply]
    split <;> rfl
  · have same : (live.map fun sub => if sub.handler.subId = subid ∧ event ∉ sub.events then
        { sub with events := event :: sub.events } else sub).map (·.handler.subId) =
        live.map (·.handler.subId) := by
      rw [List.map_map]
      apply List.map_congr_left
      intro sub _
      simp only [Function.comp_apply]
      split <;> rfl
    rw [same]
    exact h.ids
  · intro sub hs e
    obtain ⟨old, ho, rfl⟩ := List.mem_map.mp hs
    have before := h.events old ho e
    have after := (lists e).2 old.handler.subId
    have registered : old.handler.subId = subid → s.find subid ≠ none := fun id =>
      (h.registered_iff subid).mpr (List.any_eq_true.mpr ⟨old, ho, by simpa using id⟩)
    simp only [machine]
    split <;> grind

theorem revoke (h : s.Keeps live) (p : SubscriptionHandlerThread → Bool) :
    ({ s with subscriptions := s.subscriptions.filter p } : BasicEventHandler).Keeps
      (live.filter fun sub => p sub.handler) := by
  refine ⟨?_, ?_, fun sub hs => h.events sub (List.mem_filter.mp hs).1, h.lists⟩
  · have kept := h.threads.filter p
    rwa [List.filter_map] at kept
  · exact h.ids.sublist (List.filter_sublist.map _)

theorem posts (h : s.Keeps live) (event : Event) :
    ((s.subscriptionsByEvent event).filterMap s.find).Perm
      ((live.filter (event ∈ ·.events)).map (·.handler)) := by
  have distinct : (live.map (·.handler)).Nodup := by
    have ids := h.ids
    rw [← Function.comp_def (fun k : SubscriptionHandlerThread => k.subId), ← List.map_map] at ids
    exact ids.of_map
  refine (List.perm_ext_iff_of_nodup ((h.lists event).filterMap ?_)
    (distinct.sublist (List.filter_sublist.map _))).mpr fun handler => ?_
  · intro a b k ha hb
    rw [← ((h.find_iff a k).mp ha).2, ((h.find_iff b k).mp hb).2]
  · simp only [List.mem_filterMap, List.mem_map, List.mem_filter, decide_eq_true_eq]
    constructor
    · rintro ⟨id, listed, found⟩
      obtain ⟨held, rfl⟩ := (h.find_iff id handler).mp found
      obtain ⟨sub, hs, rfl⟩ := (h.mem_threads handler).mp held
      exact ⟨sub, ⟨hs, (h.events sub hs event).mp listed⟩, rfl⟩
    · rintro ⟨sub, ⟨hs, subscribed⟩, rfl⟩
      exact ⟨sub.handler.subId, (h.events sub hs event).mpr subscribed,
        (h.find_iff _ _).mpr ⟨(h.mem_threads _).mpr ⟨sub, hs, rfl⟩, rfl⟩⟩

theorem dispatch (h : s.Keeps live) (event : Event) :
    ∃ next, Subscription.accept live (machine.step s (.dispatch event)).1 = some next ∧
      (machine.step s (.dispatch event)).2.Keeps next := by
  refine ⟨live, if_pos (h.posts event), h.threads, h.ids, fun sub hs e => ?_, fun e => ?_⟩
  · by_cases same : e = event
    · subst same
      have found : s.find sub.handler.subId = some sub.handler :=
        (h.find_iff _ _).mpr ⟨(h.mem_threads _).mpr ⟨sub, hs, rfl⟩, rfl⟩
      simp [machine, dispatchEvent, List.mem_filter, found, h.events sub hs e]
    · simp [machine, dispatchEvent, Function.update_of_ne same, h.events sub hs e]
  · by_cases same : e = event
    · subst same
      simpa [machine, dispatchEvent] using (h.lists e).filter _
    · simpa [machine, dispatchEvent, Function.update_of_ne same] using h.lists e

end Keeps

theorem step_accepted {s : BasicEventHandler} {live : List Subscription} (h : s.Keeps live)
    (call : HandlerCall) (fresh : s.FreshId call) :
    ∃ next, Subscription.accept live (machine.step s call).1 = some next ∧
      (machine.step s call).2.Keeps next := by
  cases call with
  | create sub starts => exact h.create sub starts fresh
  | subscribe subid event => exact h.subscribe subid event
  | revoke subid => exact ⟨_, rfl, h.revoke (·.subId ≠ subid)⟩
  | revokeAll sub => exact ⟨_, rfl, h.revoke (·.handle ≠ sub)⟩
  | dispatch event => exact h.dispatch event

/-- When no identifier is handed out that an event still lists, every message is posted once
to each live subscription to its event and to no other. -/
theorem fresh_ids_dispatch (history : List HandlerCall)
    (fresh : machine.Guarded FreshId init history) :
    Machine.Accepts Subscription.accept [] (machine.observations init history) :=
  machine.guarded_accepts (R := Keeps) (fun _ _ call h => step_accepted h call) Keeps.init
    history fresh

theorem fresh_ids_dispatch_revoked : Machine.Accepts Subscription.accept []
    (machine.observations init [.create 10 true, .subscribe 1 .SIGNAL, .create 20 true, .revoke 1,
      .create 30 true, .subscribe 2 .SIGNAL, .dispatch .SIGNAL]) :=
  fresh_ids_dispatch _ (by decide)

/-- A new subscription under a revoked identifier is sent what the revoked one subscribed to. -/
theorem not_always_dispatched : ¬ ∀ history,
    Machine.Accepts Subscription.accept [] (machine.observations init history) := by
  intro claim
  exact absurd (claim [.create 10 true, .subscribe 1 .SIGNAL, .revoke 1, .create 20 true,
    .dispatch .SIGNAL]) (by decide)

end BasicEventHandler

end CppMyth
