import CppMyth.EventHandler
import CppMyth.Proto.Connection
import CppMyth.Proto.Event

/-! The thread of the event handler, `mytheventhandler.cpp`: it opens the event connection,
dispatches what comes in and reconnects, while other threads may ask it to reset or stop. -/
namespace CppMyth
open Library

namespace ProtoBase

def announceEvent75 (hostName : List UInt8) (t : ProtoBase) : Bool × ProtoBase :=
  let cmd := ascii "ANN Monitor " ++ hostName ++ ascii " 1"
  let sent := t.sendCommand cmd true
  if sent.1 then
    let field := sent.2.readField
    match field.1 with
    | none => (false, field.2.flushMessage.2)
    | some text => if isMessageOK text then (true, field.2) else (false, field.2.flushMessage.2)
  else (false, sent.2)

/-- `ProtoEvent::Close` cleans hanging and disables retry. -/
def closeEvent (t : ProtoBase) : ProtoBase := { t.close with tainted := false, hang := false }

/-- `ProtoEvent::Open`, with the version it leaves for the next one. -/
def openEvent (peer : Peer) (hostName : List UInt8) (myVersion fuel : Nat) (t : ProtoBase) :
    Option (Bool × Nat × ProtoBase) :=
  match openConnection peer myVersion fuel t with
  | none => none
  | some opened =>
    if opened.ok then
      let announced :=
        if opened.proto.protoVersion ≥ 75 then opened.proto.announceEvent75 hostName
        else (false, opened.proto)
      if announced.1 then some (true, opened.myVersion, announced.2)
      else some (false, opened.myVersion, announced.2.closeEvent)
    else some (false, opened.myVersion, opened.proto)

end ProtoBase

inductive HandlerStatus where
  | CONNECTED | DISCONNECTED | STOPPED | NOTCONNECTED
  deriving DecidableEq, Repr

def HandlerStatus.text : HandlerStatus → List UInt8
  | CONNECTED => ascii "CONNECTED"
  | DISCONNECTED => ascii "DISCONNECTED"
  | STOPPED => ascii "STOPPED"
  | NOTCONNECTED => ascii "NOTCONNECTED"

/-- What the thread does that others can see. -/
inductive HandlerOutput (D : Type) where
  | status (status : HandlerStatus)
  | timer
  | message (msg : EventMessage D)
  /-- the connection is closed for a reset -/
  | closed
  /-- half a second -/
  | slept

/-- The message that is dispatched to the subscriptions. -/
def HandlerOutput.dispatched {D : Type} (server : List UInt8) :
    HandlerOutput D → Option (EventMessage D)
  | status s => some { event := .HANDLER_STATUS, subject := [s.text, server] }
  | timer => some { event := .HANDLER_TIMER, subject := [[]] }
  | message msg => some msg
  | closed | slept => none

/-- Where the thread stands. In RetryConnect it carries the counter. -/
inductive HandlerPc where
  | opening
  | looping
  | receiving
  | resetting
  | retrying (c : Nat)
  | attempting (c : Nat)
  | reconnected
  | stopping
  | ended
  deriving DecidableEq, Repr

/-- `stop` is the flag of the thread, `reset` is `m_reset`. -/
structure HandlerThread where
  pc : HandlerPc
  event : ProtoBase
  myVersion : Nat
  stop : Bool := false
  reset : Bool := false

/-- A turn of the thread comes with the network as it is then, should the thread connect, and
with how often it may be turned down. Reset and stop come from other threads. -/
inductive HandlerMove where
  | turn (peer : ProtoBase.Peer) (fuel : Nat)
  | reset
  | stop

namespace HandlerThread

variable {D : Type} (codec : DoubleCodec D) (hostName : List UInt8)

/-- Open, and what follows on success and on failure. The thread stays where it is while the
backend keeps Open busy. -/
def connect (peer : ProtoBase.Peer) (fuel : Nat) (s : HandlerThread)
    (success failure : List (HandlerOutput D) × HandlerPc) :
    List (HandlerOutput D) × HandlerThread :=
  match s.event.openEvent peer hostName s.myVersion fuel with
  | none => ([], s)
  | some (true, v, t) => (success.1, { s with pc := success.2, event := t, myVersion := v })
  | some (false, v, t) => (failure.1, { s with pc := failure.2, event := t, myVersion := v })

/-- What process does with the result of RcvBackendMessage. -/
def received (s : HandlerThread) : Int × Option (EventMessage D) × ProtoBase →
    List (HandlerOutput D) × HandlerThread
  | (r, msg, t) =>
    if r > 0 then (msg.toList.map .message, { s with pc := .looping, event := t })
    else if r < 0 then ([.status .DISCONNECTED], { s with pc := .retrying 0, event := t })
    else ([.timer], { s with pc := .resetting, event := t })

def turn (peer : ProtoBase.Peer) (fuel : Nat) (s : HandlerThread) :
    List (HandlerOutput D) × HandlerThread :=
  match s.pc with
  | .opening =>
    s.connect hostName peer fuel ([.status .CONNECTED], .looping) ([], .looping)
  | .looping => ([], { s with pc := if s.stop then .stopping else .receiving })
  | .receiving => s.received (ProtoBase.rcvBackendMessage codec s.event)
  | .resetting =>
    -- Reconnect if any held reset
    if s.reset then
      ([.closed], { s with pc := .retrying 0, reset := false, event := s.event.closeEvent })
    else ([], { s with pc := .looping })
  | .retrying c => ([], { s with pc := if s.stop then .looping else .attempting c })
  | .attempting 0 =>
    s.connect hostName peer fuel ([.status .CONNECTED], .reconnected)
      ([.status .NOTCONNECTED, .slept], .retrying 10)
  | .attempting (c + 1) => ([.slept], { s with pc := .retrying c })
  | .reconnected => ([], { s with pc := .looping, reset := false })
  | .stopping => ([.status .STOPPED], { s with pc := .ended, event := s.event.closeEvent })
  | .ended => ([], s)

def process : Machine HandlerThread HandlerMove (List (HandlerOutput D)) where
  step s
    | .turn peer fuel => s.turn codec hostName peer fuel
    | .reset => ([], { s with reset := true })
    | .stop => ([], { s with stop := true })

def outputs (s : HandlerThread) (moves : List HandlerMove) : List (HandlerOutput D) :=
  ((process codec hostName).observations s moves).flatten

end HandlerThread

/-- What a subscriber can rely on. `quiet` is set when nothing came in for a second, and `wait`
counts the half seconds up to the next attempt to connect. -/
inductive HandlerPhase where
  | idle
  | up (quiet : Bool)
  | down (wait : Nat)
  | finished
  deriving DecidableEq, Repr

namespace HandlerPhase

variable {D : Type}

def accept : HandlerPhase → HandlerOutput D → Option HandlerPhase
  | finished, _ => none
  | _, .status .STOPPED => some finished
  | idle, .status .CONNECTED => some (up false)
  | idle, .status .DISCONNECTED => some (down 0)
  | up _, .message _ => some (up false)
  | up _, .timer => some (up true)
  | up _, .status .DISCONNECTED => some (down 0)
  | up true, .closed => some (down 0)
  | down 0, .status .CONNECTED => some (up false)
  | down 0, .status .NOTCONNECTED => some (down 11)
  | down (n + 1), .slept => some (down n)
  | _, _ => none

/-- The phase after all outputs of a run, when each is accepted. -/
def after (phase : HandlerPhase) (outs : List (HandlerOutput D)) : Option HandlerPhase :=
  outs.foldlM accept phase

@[simp] theorem after_nil (phase : HandlerPhase) :
    phase.after ([] : List (HandlerOutput D)) = some phase := rfl

@[simp] theorem after_cons (phase : HandlerPhase) (out : HandlerOutput D)
    (outs : List (HandlerOutput D)) :
    phase.after (out :: outs) = (phase.accept out).bind (·.after outs) := rfl

theorem after_append (phase : HandlerPhase) (front back : List (HandlerOutput D)) :
    phase.after (front ++ back) = (phase.after front).bind (·.after back) :=
  List.foldlM_append

theorem accept_stopped {phase : HandlerPhase} (going : phase ≠ finished) :
    phase.accept (.status .STOPPED : HandlerOutput D) = some finished := by
  cases phase with
  | finished => exact absurd rfl going
  | _ => rfl

end HandlerPhase

namespace ProtoBase

theorem close_invalid (t : ProtoBase) : t.close.socket.valid = false := by
  unfold close
  split <;> simp [closeSocket]

theorem openLoop_failed {peer : Peer} {myVersion : Nat} (fuel i ver : Nat) (t : ProtoBase)
    {opened : Opened} (result : openLoop peer myVersion fuel i ver t = some opened)
    (failed : opened.ok = false) : opened.proto.socket.valid = false := by
  induction fuel generalizing i ver t with
  | zero => simp [openLoop] at result
  | succ fuel ih =>
    unfold openLoop at result
    split at result
    · cases result
      simp [openFailed]
    · split at result
      · cases result
        simp [openFailed]
      · dsimp only at result
        split at result
        · split at result
          · cases result
            simp [openFailed]
          · split at result
            · cases result
              cases failed
            · exact ih _ _ _ result
        · cases result
          simp [openFailed]

/-- What a call that does not hang up leaves alone. -/
structure Steady (t t' : ProtoBase) : Prop where
  valid : t'.socket.valid = t.socket.valid
  hang : t'.hang = t.hang
  isOpen : t'.isOpen = t.isOpen

theorem Steady.trans {t u v : ProtoBase} (h : Steady t u) (k : Steady u v) : Steady t v :=
  ⟨k.valid.trans h.valid, k.hang.trans h.hang, k.isOpen.trans h.isOpen⟩

theorem Fate.steady {t t' : ProtoBase} (fate : Fate t t') (valid : t'.socket.valid = true) :
    Steady t t' := by
  cases fate with
  | alive valid hang isOpen => exact ⟨valid, hang, isOpen⟩
  | hung shut => simp [shut] at valid

theorem receiveData_steady (t : ProtoBase) (n : Nat) :
    Steady t { t with socket := (t.socket.receiveData n).2 } :=
  ⟨(t.socket.receiveData_spec n).2.2.1, rfl, rfl⟩

theorem readFieldLoop_steady (left : Nat) (t : ProtoBase) (buf : List UInt8) (pss : Nat)
    (field : List UInt8) (c : Nat) {read : List UInt8 × Nat}
    (result : (readFieldLoop left t buf pss field c).1 = some read) :
    Steady t (readFieldLoop left t buf pss field c).2 := by
  induction left generalizing t buf pss field c with
  | zero => exact ⟨rfl, rfl, rfl⟩
  | succ left ih =>
    have first := receiveData_steady t 1
    unfold readFieldLoop at result ⊢
    cases hb : (t.socket.receiveData 1).1 with
    | nil => simp [hb] at result
    | cons b tail =>
      simp only [hb] at result ⊢
      split at result
      · rename_i hit
        rw [if_pos hit]
        split at result
        · rename_i full
          rw [if_pos full]
          exact first
        · rename_i partly
          rw [if_neg partly]
          exact first.trans (ih _ _ _ _ _ result)
      · rename_i miss
        rw [if_neg miss]
        split at result
        · rename_i refill
          rw [if_pos refill]
          exact first.trans (ih _ _ _ _ _ result)
        · rename_i room
          rw [if_neg room]
          exact first.trans (ih _ _ _ _ _ result)

theorem readField_steady {t : ProtoBase} {text : List UInt8} (result : t.readField.1 = some text) :
    Steady t t.readField.2 := by
  unfold readField at result ⊢
  by_cases done : t.msgConsumed ≥ t.msgLength
  · simp [if_pos done] at result
  · rw [if_neg done] at result ⊢
    have steady := @readFieldLoop_steady (t.msgLength - t.msgConsumed) t [] 0 [] t.msgConsumed
    generalize readFieldLoop (t.msgLength - t.msgConsumed) t [] 0 [] t.msgConsumed = r
      at steady result ⊢
    obtain ⟨_ | ⟨field, c⟩, u⟩ := r
    · simp at result
    · have same := steady rfl
      simp only
      split <;> exact same.trans ⟨rfl, rfl, rfl⟩

theorem sendRequest_steady {t : ProtoBase} {cmd : List UInt8}
    (result : (t.sendRequest cmd).1 = true) : Steady t (t.sendRequest cmd).2 := by
  unfold sendRequest at result ⊢
  generalize hu : (if t.msgConsumed ≠ t.msgLength then t.flushMessage.2 else t) = u at result ⊢
  have fate : Fate t u := by
    rw [← hu]
    split
    · exact flushMessage_fate t
    · exact .refl t
  by_cases fits : cmd.length > 0 ∧ cmd.length < sendMsgMaxSize
  · simp only [if_pos fits] at result ⊢
    by_cases sent : (u.socket.sendData (header cmd.length ++ cmd)).1 = true
    · rw [if_pos sent]
      have same : (u.socket.sendData (header cmd.length ++ cmd)).2.valid = u.socket.valid ∧
          u.socket.valid = true := by
        unfold TcpSocket.sendData at sent ⊢
        cases valid : u.socket.valid with
        | false => simp [valid] at sent
        | true => cases h : u.socket.sends 0 <;> simp [valid, h] at sent ⊢
      exact (fate.steady same.2).trans ⟨same.1, rfl, rfl⟩
    · simp [if_neg sent] at result
  · simp [if_neg fits] at result

theorem rcvMessageLength_steady {t : ProtoBase} (result : t.rcvMessageLength.1 = true) :
    Steady t t.rcvMessageLength.2 := by
  have first := receiveData_steady t 8
  unfold rcvMessageLength at result ⊢
  by_cases placed : t.msgLength > 0
  · simp [if_pos placed] at result
  · rw [if_neg placed] at result ⊢
    by_cases full : (t.socket.receiveData 8).1.length = 8
    · simp only [if_pos full] at result ⊢
      cases parsed : stringToUint32 ((t.socket.receiveData 8).1 ++ t.stack 0) with
      | ok val => exact first.trans ⟨rfl, rfl, rfl⟩
      | error err => simp [parsed] at result
    · simp [if_neg full] at result

theorem sendCommand_steady {t : ProtoBase} {cmd : List UInt8}
    (result : (t.sendCommand cmd true).1 = true) : Steady t (t.sendCommand cmd true).2 := by
  unfold sendCommand at result ⊢
  by_cases sent : (t.sendRequest cmd).1 = true
  · have steady := sendRequest_steady sent
    simp only [sent, and_true, if_true] at result ⊢
    exact steady.trans (rcvMessageLength_steady result)
  · simp [sent] at result

theorem announceEvent75_steady {hostName : List UInt8} {t : ProtoBase}
    (result : (t.announceEvent75 hostName).1 = true) : Steady t (t.announceEvent75 hostName).2 := by
  unfold announceEvent75 at result ⊢
  generalize ascii "ANN Monitor " ++ hostName ++ ascii " 1" = cmd at result ⊢
  by_cases sent : (t.sendCommand cmd true).1 = true
  · have steady := sendCommand_steady sent
    simp only [sent, if_true] at result ⊢
    cases read : (t.sendCommand cmd true).2.readField.1 with
    | none => simp [read] at result
    | some text =>
      simp only [read] at result ⊢
      by_cases ok : isMessageOK text = true
      · rw [if_pos ok]
        exact steady.trans (readField_steady read)
      · simp [if_neg ok] at result
  · simp [sent] at result

theorem openLoop_opened {peer : Peer} {myVersion : Nat} (fuel i ver : Nat) (t : ProtoBase)
    {opened : Opened} (result : openLoop peer myVersion fuel i ver t = some opened)
    (ok : opened.ok = true) : opened.proto.isOpen = true := by
  induction fuel generalizing i ver t with
  | zero => simp [openLoop] at result
  | succ fuel ih =>
    unfold openLoop at result
    split at result
    · cases result
      cases ok
    · split at result
      · cases result
        cases ok
      · dsimp only at result
        split at result
        · split at result
          · cases result
            cases ok
          · split at result
            · cases result
              rfl
            · exact ih _ _ _ result
        · cases result
          cases ok

theorem openEvent_spec {peer : Peer} {hostName : List UInt8} {myVersion fuel v : Nat}
    {t t' : ProtoBase} {ok : Bool}
    (result : t.openEvent peer hostName myVersion fuel = some (ok, v, t')) :
    (ok = true → t'.isOpen = true) ∧ (ok = false → t'.socket.valid = false) := by
  unfold openEvent at result
  cases reached : openConnection peer myVersion fuel t with
  | none => simp [reached] at result
  | some opened =>
    simp only [reached] at result
    by_cases agreed : opened.ok = true
    · have isOpen := openLoop_opened _ _ _ _ reached agreed
      simp only [agreed, if_true] at result
      by_cases version : opened.proto.protoVersion ≥ 75
      · simp only [if_pos version] at result
        by_cases announced : (opened.proto.announceEvent75 hostName).1 = true
        · simp only [announced, if_true, Option.some.injEq, Prod.mk.injEq] at result
          obtain ⟨rfl, -, rfl⟩ := result
          exact ⟨fun _ => (announceEvent75_steady announced).isOpen.trans isOpen, by simp⟩
        · simp only [announced, Bool.false_eq_true, if_false, Option.some.injEq,
            Prod.mk.injEq] at result
          obtain ⟨rfl, -, rfl⟩ := result
          exact ⟨by simp, fun _ => close_invalid _⟩
      · simp only [if_neg version, Bool.false_eq_true, if_false, Option.some.injEq,
          Prod.mk.injEq] at result
        obtain ⟨rfl, -, rfl⟩ := result
        exact ⟨by simp, fun _ => close_invalid _⟩
    · simp only [if_neg agreed, Option.some.injEq, Prod.mk.injEq] at result
      obtain ⟨rfl, -, rfl⟩ := result
      exact ⟨by simp, fun _ => openLoop_failed _ _ _ _ reached (by simpa using agreed)⟩

theorem rcvEvent_fate {D : Type} (codec : DoubleCodec D) (t : ProtoBase) :
    Fate t (rcvEvent codec t).2 :=
  rcvEvent_keeps (fun _ h => h.trans (readField_fate _)) codec (rcvMessageLength_fate t)

/-- A message and a time out come from an open connection; on a closed one the call fails. -/
theorem rcvBackendMessage_outcome {D : Type} (codec : DoubleCodec D) (t : ProtoBase) :
    let r := rcvBackendMessage codec t
    (0 < r.1 → (∃ msg, r.2.1 = some msg) ∧ r.2.2.isOpen = t.isOpen) ∧
      (r.1 = 0 → r.2.2.isOpen = true) ∧ (t.socket.valid = false → r.1 < 0) := by
  have shut : t.socket.valid = false → t.socket.listen.1 = -1 := listen_gone
  unfold rcvBackendMessage
  dsimp only
  by_cases input : t.socket.listen.1 > 0
  · rw [if_pos input]
    have fate := (rcvEvent_fate codec { t with socket := t.socket.listen.2 }).trans
      (flushMessage_fate _)
    cases hang : (rcvEvent codec { t with socket := t.socket.listen.2 }).2.flushMessage.2.hang with
    | true => simp [enotconn]
    | false =>
      cases fate with
      | hung _ up => simp [hang] at up
      | alive _ _ isOpen =>
        refine ⟨fun _ => ⟨⟨_, rfl⟩, isOpen⟩, by simp, fun gone => ?_⟩
        have := shut gone
        omega
  · rw [if_neg input]
    by_cases failed : t.socket.listen.1 < 0
    · rw [if_pos failed]
      exact ⟨fun positive => absurd positive input, by simp only; omega, fun _ => failed⟩
    · rw [if_neg failed]
      refine ⟨?_, ?_, fun gone => absurd (shut gone) (by omega)⟩
      · split <;> simp [enotconn]
      · split
        · rename_i live
          exact fun _ => live.1
        · simp [enotconn]

end ProtoBase

namespace HandlerThread

variable {D : Type} {codec : DoubleCodec D} {hostName : List UInt8} {s : HandlerThread}
  {phase : HandlerPhase}

/-- The phase that the subscribers know of fits where the thread stands. The connection is open
while they are told that it is. -/
structure Follows (s : HandlerThread) (phase : HandlerPhase) : Prop where
  stands : match s.pc with
    | .opening => phase = .idle
    | .looping => (∃ q, phase = .up q) ∨ (phase = .idle ∧ s.event.socket.valid = false) ∨
        (s.stop = true ∧ ∃ n, phase = .down n)
    | .receiving => (∃ q, phase = .up q) ∨ (phase = .idle ∧ s.event.socket.valid = false)
    | .resetting => phase = .up true
    | .retrying c => phase = .down c
    | .attempting c => phase = .down c
    | .reconnected => phase = .up false
    | .stopping => phase ≠ .finished
    | .ended => phase = .finished
  connected : (∃ q, phase = .up q) → s.event.isOpen = true

/-- One step: what it puts out is accepted, and the next phase fits. -/
def Goes (phase : HandlerPhase) (r : List (HandlerOutput D) × HandlerThread) : Prop :=
  ∃ next, phase.after r.1 = some next ∧ Follows r.2 next

theorem connect_goes {peer : ProtoBase.Peer} {fuel : Nat} (follows : Follows s phase)
    {success failure : List (HandlerOutput D) × HandlerPc}
    (connected : ∀ t v, t.isOpen = true → Goes phase
      (success.1, { s with pc := success.2, event := t, myVersion := v }))
    (failed : ∀ t v, t.socket.valid = false → (∀ q, phase ≠ .up q) → Goes phase
      (failure.1, { s with pc := failure.2, event := t, myVersion := v }))
    (unconnected : ∀ q, phase ≠ .up q) :
    Goes phase (s.connect hostName peer fuel success failure) := by
  unfold connect
  cases result : s.event.openEvent peer hostName s.myVersion fuel with
  | none => exact ⟨phase, rfl, follows⟩
  | some r =>
    obtain ⟨ok, v, t⟩ := r
    obtain ⟨opened, shut⟩ := ProtoBase.openEvent_spec result
    cases ok with
    | true => exact connected t v (opened rfl)
    | false => exact failed t v (shut rfl) unconnected

theorem received_goes (follows : Follows s phase) (at_receiving : s.pc = .receiving) :
    Goes phase (s.received (ProtoBase.rcvBackendMessage codec s.event)) := by
  obtain ⟨message, quiet, gone⟩ := ProtoBase.rcvBackendMessage_outcome codec s.event
  have stands := follows.stands
  rw [at_receiving] at stands
  generalize ProtoBase.rcvBackendMessage codec s.event = r at message quiet gone ⊢
  obtain ⟨result, msg, t⟩ := r
  unfold received
  simp only at message quiet gone ⊢
  have lost : Goes phase (([.status .DISCONNECTED], { s with pc := .retrying 0, event := t }) :
      List (HandlerOutput D) × HandlerThread) := by
    refine ⟨.down 0, ?_, rfl, by simp⟩
    rcases stands with ⟨q, rfl⟩ | ⟨rfl, -⟩ <;> rfl
  rcases stands with ⟨q, rfl⟩ | ⟨rfl, invalid⟩
  · by_cases positive : result > 0
    · rw [if_pos positive]
      obtain ⟨⟨msg, rfl⟩, isOpen⟩ := message positive
      exact ⟨.up false, rfl, .inl ⟨false, rfl⟩, fun up => isOpen.trans (follows.connected ⟨q, rfl⟩)⟩
    · rw [if_neg positive]
      by_cases negative : result < 0
      · rw [if_pos negative]
        exact lost
      · rw [if_neg negative]
        exact ⟨.up true, rfl, rfl, fun _ => quiet (by omega)⟩
  · have negative := gone invalid
    rw [if_neg (by omega), if_pos negative]
    exact lost

theorem turn_goes (peer : ProtoBase.Peer) (fuel : Nat) (follows : Follows s phase) :
    Goes phase (s.turn codec hostName peer fuel) := by
  have stands := follows.stands
  unfold turn
  cases at_pc : s.pc with
  | opening =>
    rw [at_pc] at stands
    subst stands
    simp only
    refine connect_goes follows ?_ ?_ (by simp)
    · intro t v isOpen
      exact ⟨.up false, rfl, .inl ⟨false, rfl⟩, fun _ => isOpen⟩
    · intro t v invalid _
      exact ⟨.idle, rfl, .inr (.inl ⟨rfl, invalid⟩), by simp⟩
  | looping =>
    rw [at_pc] at stands
    simp only
    refine ⟨phase, rfl, ?_, follows.connected⟩
    cases stop : s.stop with
    | true =>
      rcases stands with ⟨q, rfl⟩ | ⟨rfl, -⟩ | ⟨-, n, rfl⟩ <;> simp
    | false => simpa [stop] using stands
  | receiving => exact received_goes follows at_pc
  | resetting =>
    rw [at_pc] at stands
    subst stands
    simp only
    by_cases reset : s.reset = true
    · rw [if_pos reset]
      exact ⟨.down 0, rfl, rfl, by simp⟩
    · rw [if_neg reset]
      exact ⟨.up true, rfl, .inl ⟨true, rfl⟩, follows.connected⟩
  | retrying c =>
    rw [at_pc] at stands
    subst stands
    refine ⟨.down c, rfl, ?_, by simp⟩
    cases stop : s.stop with
    | true => exact .inr (.inr ⟨rfl, c, rfl⟩)
    | false => rfl
  | attempting c =>
    rw [at_pc] at stands
    subst stands
    cases c with
    | zero =>
      simp only
      refine connect_goes follows ?_ ?_ (by simp)
      · intro t v isOpen
        exact ⟨.up false, rfl, rfl, fun _ => isOpen⟩
      · intro t v _ _
        exact ⟨.down 10, rfl, rfl, by simp⟩
    | succ c => exact ⟨.down c, rfl, rfl, by simp⟩
  | reconnected =>
    rw [at_pc] at stands
    subst stands
    exact ⟨.up false, rfl, .inl ⟨false, rfl⟩, follows.connected⟩
  | stopping =>
    rw [at_pc] at stands
    exact ⟨.finished, by simp [HandlerPhase.accept_stopped stands], rfl, by simp⟩
  | ended =>
    exact ⟨phase, rfl, follows⟩

variable (codec hostName) in
theorem step_goes (follows : Follows s phase) (move : HandlerMove) :
    Goes phase ((process codec hostName).step s move) := by
  cases move with
  | turn peer fuel => exact turn_goes peer fuel follows
  | reset => exact ⟨phase, rfl, follows.stands, follows.connected⟩
  | stop =>
    refine ⟨phase, rfl, ?_, follows.connected⟩
    have stands := follows.stands
    simp only [process]
    cases at_pc : s.pc with
    | looping =>
      rw [at_pc] at stands
      rcases stands with up | idle | ⟨-, down⟩
      · exact .inl up
      · exact .inr (.inl idle)
      · exact .inr (.inr ⟨trivial, down⟩)
    | _ => simpa [at_pc] using stands

variable (codec hostName) in
theorem run_goes (moves : List HandlerMove) (follows : Follows s phase) :
    Goes phase (s.outputs codec hostName moves, (process codec hostName).final s moves) := by
  induction moves generalizing s phase with
  | nil => exact ⟨phase, rfl, follows⟩
  | cons move moves ih =>
    obtain ⟨next, first, follows'⟩ := step_goes codec hostName follows move
    obtain ⟨last, rest, follows''⟩ := ih follows'
    refine ⟨last, ?_, follows''⟩
    simp only [outputs, Machine.observations, List.flatten_cons] at rest ⊢
    rw [HandlerPhase.after_append, first]
    exact rest

theorem Follows.finished_iff (follows : Follows s phase) :
    phase = .finished ↔ s.pc = .ended := by
  have stands := follows.stands
  cases at_pc : s.pc <;> simp only [at_pc] at stands
  case looping => rcases stands with ⟨q, rfl⟩ | ⟨rfl, -⟩ | ⟨-, n, rfl⟩ <;> simp
  case receiving => rcases stands with ⟨q, rfl⟩ | ⟨rfl, -⟩ <;> simp
  all_goals simp [stands]

/-- The thread as start_thread leaves it. -/
def started (event : ProtoBase) (myVersion : Nat) (stop reset : Bool) : HandlerThread :=
  ⟨.opening, event, myVersion, stop, reset⟩

/-- Whatever the network does and the other threads ask for: each connection is announced and
given up once, messages and timers come only in between and from an open connection, one attempt
is made every eleven half seconds, and the end is announced last. -/
theorem process_conducts (codec : DoubleCodec D) (hostName : List UInt8) (event : ProtoBase)
    (myVersion : Nat) (stop reset : Bool) (moves : List HandlerMove) :
    let s := started event myVersion stop reset
    let t := (process codec hostName).final s moves
    ∃ phase, HandlerPhase.idle.after (s.outputs codec hostName moves) = some phase ∧
      ((∃ q, phase = .up q) → t.event.isOpen = true) ∧ (phase = .finished ↔ t.pc = .ended) := by
  intro s t
  have start : Follows s .idle := ⟨rfl, by simp⟩
  obtain ⟨phase, accepted, follows⟩ := run_goes codec hostName moves start
  exact ⟨phase, accepted, follows.connected, follows.finished_iff⟩

/-- The turns that a thread asked to stop has left at most. -/
def rank : HandlerPc → Nat
  | .receiving => 5
  | .resetting | .attempting _ => 4
  | .opening | .retrying _ | .reconnected => 3
  | .looping => 2
  | .stopping => 1
  | .ended => 0

/-- The thread is not caught in Open. -/
def Returns (hostName : List UInt8) (s : HandlerThread) : HandlerMove → Prop
  | .turn peer fuel => s.pc = .opening ∨ s.pc = .attempting 0 →
    (s.event.openEvent peer hostName s.myVersion fuel).isSome = true
  | _ => True

instance decidableReturns (hostName : List UInt8) (s : HandlerThread) :
    (move : HandlerMove) → Decidable (Returns hostName s move)
  | .turn _ _ => inferInstanceAs (Decidable (_ → _))
  | .reset | .stop => isTrue trivial

def turns : List HandlerMove → Nat
  | [] => 0
  | .turn _ _ :: moves => turns moves + 1
  | _ :: moves => turns moves

theorem connect_rank {peer : ProtoBase.Peer} {fuel : Nat}
    {success failure : List (HandlerOutput D) × HandlerPc}
    (returned : (s.event.openEvent peer hostName s.myVersion fuel).isSome = true) :
    ((s.connect hostName peer fuel success failure).2.pc = success.2 ∨
      (s.connect hostName peer fuel success failure).2.pc = failure.2) ∧
      (s.connect hostName peer fuel success failure).2.stop = s.stop := by
  unfold connect
  obtain ⟨⟨ok, v, t⟩, result⟩ := Option.isSome_iff_exists.mp returned
  rw [result]
  cases ok with
  | true => exact ⟨.inl rfl, rfl⟩
  | false => exact ⟨.inr rfl, rfl⟩

theorem received_rank (r : Int × Option (EventMessage D) × ProtoBase) :
    rank (s.received r).2.pc ≤ 4 ∧ (s.received r).2.stop = s.stop := by
  unfold received
  dsimp only
  split
  · exact ⟨by simp [rank], rfl⟩
  · split
    · exact ⟨by simp [rank], rfl⟩
    · exact ⟨by simp [rank], rfl⟩

variable (codec) in
theorem turn_rank (peer : ProtoBase.Peer) (fuel : Nat) (stop : s.stop = true)
    (returns : Returns hostName s (.turn peer fuel)) :
    rank (s.turn codec hostName peer fuel).2.pc ≤ rank s.pc - 1 ∧
      (s.turn codec hostName peer fuel).2.stop = true := by
  unfold turn
  cases at_pc : s.pc with
  | opening =>
    simp only
    obtain ⟨next | next, kept⟩ := connect_rank (returns (.inl at_pc)) <;>
      exact ⟨by simp [next, rank], kept.trans stop⟩
  | looping => simp [stop, rank]
  | receiving =>
    obtain ⟨low, kept⟩ := received_rank (s := s) (ProtoBase.rcvBackendMessage codec s.event)
    exact ⟨low, kept.trans stop⟩
  | resetting =>
    simp only
    split <;> exact ⟨by simp [rank], stop⟩
  | retrying c => simp [stop, rank]
  | attempting c =>
    cases c with
    | zero =>
      simp only
      obtain ⟨next | next, kept⟩ := connect_rank (returns (.inr at_pc)) <;>
        exact ⟨by simp [next, rank], kept.trans stop⟩
    | succ c => simp [stop, rank]
  | reconnected => simp [stop, rank]
  | stopping => simp [stop, rank]
  | ended => simp [stop, rank, at_pc]

theorem run_rank (moves : List HandlerMove) (stop : s.stop = true)
    (returns : (process codec hostName).Guarded (Returns hostName) s moves) :
    rank ((process codec hostName).final s moves).pc ≤ rank s.pc - turns moves := by
  induction moves generalizing s with
  | nil => exact Nat.le_refl _
  | cons move moves ih =>
    obtain ⟨first, guarded⟩ := returns
    cases move with
    | turn peer fuel =>
      obtain ⟨lower, kept⟩ := turn_rank codec peer fuel stop first
      have rest := ih kept guarded
      have fewer : rank (s.turn codec hostName peer fuel).2.pc - turns moves ≤
          rank s.pc - (turns moves + 1) := by omega
      exact Nat.le_trans rest fewer
    | reset => exact ih stop guarded
    | stop => exact ih rfl guarded

/-- A thread that was asked to stop ends within five turns, each of which may be one attempt to
connect or one wait for a message. -/
theorem stop_ends (codec : DoubleCodec D) (hostName : List UInt8) (s : HandlerThread)
    (stop : s.stop = true) (moves : List HandlerMove)
    (returns : (process codec hostName).Guarded (Returns hostName) s moves)
    (enough : 5 ≤ turns moves) : ((process codec hostName).final s moves).pc = .ended := by
  have low : rank s.pc ≤ 5 := by
    cases s.pc <;> simp [rank]
  have last := run_rank moves stop returns
  have none : rank ((process codec hostName).final s moves).pc = 0 := by omega
  generalize ((process codec hostName).final s moves).pc = pc at none ⊢
  cases pc <;> simp [rank] at none ⊢

theorem stop_ends_unreachable : ((process ProtoBase.zeroCodec (ascii "box")).final
    (started ProtoBase.unconnected 0 true false)
    (List.replicate 5 (.turn (fun _ _ => none) 1))).pc = .ended :=
  stop_ends _ _ _ rfl _ (by decide +kernel) (by decide)

end HandlerThread

end CppMyth
