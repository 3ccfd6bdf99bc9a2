import CppMyth.EventHandler
import CppMyth.Proto.Fate
import CppMyth.Proto.Framing
import CppMyth.Proto.ProgramInfo

/-! The event connection of `mythprotoevent.cpp`. A message is looked for on the descriptor
and read through the buffer of the socket. -/
namespace CppMyth
open Library

/-- The first split is counted 1, and the 255th is not made. -/
def tokenizeLoop (delimiters : List UInt8) (trimnull : Bool) :
    Nat → List UInt8 → List (List UInt8)
  | 0, str => [str]
  | splits + 1, str =>
    let front := str.takeWhile (· ∉ delimiters)
    match str.drop front.length with
    | [] => [str]
    | _ :: rest =>
      let rest := if trimnull then rest.dropWhile (· ∈ delimiters) else rest
      front :: tokenizeLoop delimiters trimnull splits rest

def tokenize (str delimiters : List UInt8) (trimnull : Bool) : List (List UInt8) :=
  tokenizeLoop delimiters trimnull 254 str

structure SignalStatus where
  lock : Bool := false
  signal : Int32 := 0
  snr : Int32 := 0
  ber : Int64 := 0
  ucb : Int64 := 0
  deriving DecidableEq, Repr

structure EventMessage (D : Type) where
  event : Event := .UNKNOWN
  subject : List (List UInt8) := []
  program : Option (Program D) := none
  signal : Option SignalStatus := none

/-- `ENOTCONN` -/
def enotconn : Nat := 107

/-- One field of a SIGNAL message. -/
def SignalStatus.fill (signal : SignalStatus) (tokens : List (List UInt8)) : SignalStatus :=
  match tokens with
  | key :: value :: _ =>
    let num := match stringToInt64 value with
      | .ok tmpi => tmpi
      | .error _ => 0
    if key = ascii "slock" then { signal with lock := value == ascii "1" }
    else if key = ascii "signal" then { signal with signal := num.toInt32 }
    else if key = ascii "snr" then { signal with snr := num.toInt32 }
    else if key = ascii "ber" then { signal with ber := num }
    else if key = ascii "ucb" then { signal with ucb := num }
    else signal
  | _ => signal

/-- Nothing is reported on the descriptor. -/
def Poll.Quiet (p : Poll) : Prop := p = .timeout ∨ p = .nothing

instance (p : Poll) : Decidable p.Quiet := inferInstanceAs (Decidable (_ ∨ _))

/-- Input or an error to read is reported. -/
def Poll.Reports : Poll → Bool
  | .broken _ | .ready _ => true
  | _ => false

/-- The first poll is that of Listen. After `i` polls, `taken` bytes were read from the
descriptor, of which `ahead` before. No recv is made once they hold the `length` bytes of the
message; it is asked for the size of the buffer, or for more that the message still has. -/
inductive Fetched (polls : Nat → Poll) (length ahead : Nat) : Nat → Nat → Prop
  | listened : Fetched polls length ahead 1 ahead
  | recv (i taken k size : Nat) (before : Fetched polls length ahead i taken)
      (missing : taken < length) (reported : polls i = .ready k)
      (buffered : socketBufferSize ≤ size)
      (within : size ≤ max socketBufferSize (length - taken)) :
      Fetched polls length ahead (i + 1) (taken + min (k + 1) size)

namespace TcpSocket

/-- `left` bytes of the message are still to be handed out, and the socket stands where the
polls made so far have brought it. -/
structure Fetching (polls : Nat → Poll) (length ahead : Nat) (s : TcpSocket) (left : Nat) :
    Prop where
  there : left ≤ s.pending.length
  within : left ≤ length
  fetched : ∃ i taken, Fetched polls length ahead i taken ∧ (∀ j, s.polls j = polls (i + j)) ∧
    (taken ≤ length → s.buffer.length + (length - left) = taken) ∧
    (length < taken → left ≤ s.buffer.length)

variable {polls : Nat → Poll} {length ahead left : Nat} {s : TcpSocket}

/-- Bytes handed out of the buffer leave the polls where they are. -/
theorem Fetching.buffered {s' : TcpSocket} {n : Nat} (fetching : Fetching polls length ahead s left)
    (room : n ≤ left) (same : s'.polls = s.polls) (stream : s'.stream = s.stream)
    (buffer : s'.buffer.length + n = s.buffer.length) :
    Fetching polls length ahead s' (left - n) := by
  obtain ⟨there, within, i, taken, before, polled, counted, held⟩ := fetching
  rw [pending, List.length_append] at there
  refine ⟨?_, by omega, i, taken, before, same ▸ polled, fun fits => ?_, fun beyond => ?_⟩
  · rw [pending, List.length_append, stream]
    omega
  · have := counted fits
    omega
  · have := held beyond
    omega

end TcpSocket

namespace ProtoBase

variable {D : Type}

/-- Every field read takes a byte of the message, so the bytes left bound the turns. -/
def signalLoop : Nat → SignalStatus → ProtoBase → SignalStatus × ProtoBase
  | 0, signal, t => (signal, t)
  | fuel + 1, signal, t =>
    match t.readField.1 with
    | none => (signal, t.readField.2)
    | some field => signalLoop fuel (signal.fill (tokenize field (ascii " ") false)) t.readField.2

def rcvSignalStatus (t : ProtoBase) : SignalStatus × ProtoBase :=
  signalLoop (t.msgLength - t.msgConsumed + 1) {} t

/-- The rest of a message, once its subject is split. -/
def rcvSubject (codec : DoubleCodec D) (subject : List (List UInt8)) (t : ProtoBase) :
    EventMessage D × ProtoBase :=
  let msg : EventMessage D := { subject := subject }
  let head := subject.headD []
  if head = ascii "UPDATE_FILE_SIZE" then ({ msg with event := .UPDATE_FILE_SIZE }, t)
  else if head = ascii "DONE_RECORDING" then ({ msg with event := .DONE_RECORDING }, t)
  else if head = ascii "QUIT_LIVETV" then ({ msg with event := .QUIT_LIVETV }, t)
  else if head = ascii "LIVETV_WATCH" then ({ msg with event := .LIVETV_WATCH }, t)
  else if head = ascii "LIVETV_CHAIN" then ({ msg with event := .LIVETV_CHAIN }, t)
  else if head = ascii "SIGNAL" then
    let r := t.rcvSignalStatus
    ({ msg with event := .SIGNAL, signal := some r.1 }, r.2)
  else if head = ascii "RECORDING_LIST_CHANGE" then
    if subject[1]? = some (ascii "UPDATE") then
      let r := rcvProgramInfo codec t
      ({ msg with event := .RECORDING_LIST_CHANGE, program := r.1 }, r.2)
    else ({ msg with event := .RECORDING_LIST_CHANGE }, t)
  else if head = ascii "SCHEDULE_CHANGE" then ({ msg with event := .SCHEDULE_CHANGE }, t)
  else if head = ascii "ASK_RECORDING" then
    let r := rcvProgramInfo codec t
    ({ msg with event := .ASK_RECORDING, program := r.1 }, r.2)
  else if head = ascii "CLEAR_SETTINGS_CACHE" then ({ msg with event := .CLEAR_SETTINGS_CACHE }, t)
  else if head = ascii "GENERATED_PIXMAP" then ({ msg with event := .GENERATED_PIXMAP }, t)
  else if head = ascii "SYSTEM_EVENT" then ({ msg with event := .SYSTEM_EVENT }, t)
  else (msg, t)

/-- What stands between the length of a message and its flush. -/
def rcvEvent (codec : DoubleCodec D) (t : ProtoBase) : EventMessage D × ProtoBase :=
  let l := t.rcvMessageLength
  if l.1 then
    let f := l.2.readField
    if f.1 = some (ascii "BACKEND_MESSAGE") then
      -- a field that cannot be read is left empty
      let s := f.2.readField
      rcvSubject codec (tokenize (s.1.getD []) (ascii " ") false) s.2
    else ({}, f.2)
  else ({}, l.2)

/-- The time out is in the schedule of polls. -/
def rcvBackendMessage (codec : DoubleCodec D) (t : ProtoBase) :
    Int × Option (EventMessage D) × ProtoBase :=
  let r := t.socket.listen
  let t := { t with socket := r.2 }
  if r.1 > 0 then
    let e := rcvEvent codec t
    let t := e.2.flushMessage.2
    (if t.hang then -enotconn else 1, some e.1, t)
  else if r.1 < 0 then (r.1, none, t)
  else (if t.isOpen ∧ ¬ t.hang then 0 else -enotconn, none, t)

/-- The bytes of whole messages, each a header and a body. -/
def bytes (messages : List (List UInt8 × List UInt8)) : List UInt8 :=
  messages.flatMap fun m => m.1 ++ m.2

/-- Each header announces its body. `stack` is the memory behind the headers to come. -/
def Framed : (Nat → List UInt8) → List (List UInt8 × List UInt8) → Prop
  | _, [] => True
  | stack, m :: rest => IsHeader (stack 0) m.1 m.2.length ∧ Framed (fun i => stack (i + 1)) rest

/-- The next bytes are the rest of the message at hand, and the whole messages `rest`. -/
structure Facing (t : ProtoBase) (rest : List (List UInt8 × List UInt8)) : Prop
    extends Live t where
  counted : t.msgConsumed ≤ t.msgLength
  settled : t.msgConsumed = t.msgLength → t.msgLength = 0
  pending : ∃ left, left.length = t.msgLength - t.msgConsumed ∧
    t.socket.pending = left ++ bytes rest
  framed : Framed t.stack rest

section Facing

variable {t t' : ProtoBase} {n : Nat} {rest : List (List UInt8 × List UInt8)}

theorem Facing.advanced (facing : Facing t rest) (room : n ≤ t.msgLength - t.msgConsumed)
    (fate : Fate t t') (took : Advanced t t' n) :
    Gone t' ∨ Live t' ∧ t'.msgLength = t.msgLength ∧ t'.stack = t.stack ∧
      ∃ left, left.length = t.msgLength - t.msgConsumed - n ∧
        t'.socket.pending = left ++ bytes rest := by
  obtain ⟨taken, len, kept⟩ := took
  obtain ⟨left, hl, hp⟩ := facing.pending
  rcases fate.split facing.toLive with gone | ⟨live, same⟩
  · exact .inl gone
  · rw [kept.received, List.append_assoc, List.append_cancel_left_eq, hp] at same
    obtain ⟨rest', hr⟩ : taken <+: left :=
      List.prefix_of_prefix_length_le ⟨_, same⟩ ⟨_, rfl⟩ (by omega)
    subst hr
    rw [List.append_assoc, List.append_cancel_left_eq] at same
    refine .inr ⟨live, kept.msgLength, kept.stack, rest', ?_, same⟩
    simp only [List.length_append] at hl
    omega

theorem Facing.pending_eq (facing : Facing t rest) (head : t.msgLength = 0) :
    t.socket.pending = bytes rest := by
  obtain ⟨left, none, hp⟩ := facing.pending
  obtain rfl : left = [] := List.length_eq_zero_iff.mp (by omega)
  exact hp

theorem flushMessage_facing (facing : Facing t rest) :
    Gone t.flushMessage.2 ∨ Facing t.flushMessage.2 rest ∧ t.flushMessage.2.msgLength = 0 := by
  rcases flushLoop_takes _ _ 0 t (Nat.le_refl (t.msgLength - t.msgConsumed)) with took | hung
  · rcases facing.advanced (Nat.le_refl _) (flushLoop_fate _ _ 0 t) took with gone | next
    · exact .inl ⟨gone.valid, gone.hang⟩
    · obtain ⟨live, -, hs, left, hl, hp⟩ := next
      refine .inr ⟨⟨⟨live.valid, live.isOpen, live.hang⟩, Nat.le_refl 0, fun _ => rfl, ?_, ?_⟩,
        rfl⟩
      · exact ⟨left, by rw [hl]; exact Nat.sub_self _, hp⟩
      · have framed := facing.framed
        rw [← hs] at framed
        exact framed
  · rcases (flushMessage_fate t).split facing.toLive with gone | ⟨live, -⟩
    · exact .inl gone
    · have shut : t.flushMessage.2.socket.valid = false := hung.1.socket
      rw [live.valid] at shut
      cases shut

theorem readField_facing (facing : Facing t rest) :
    Gone t.readField.2 ∨ Facing t.readField.2 rest := by
  unfold readField
  by_cases done : t.msgConsumed ≥ t.msgLength
  · rw [if_pos done]
    exact .inr facing
  · rw [if_neg done]
    have fate := readFieldLoop_fate (t.msgLength - t.msgConsumed) t [] 0 [] t.msgConsumed
    obtain ⟨n, hn, ⟨v, hv, took⟩ | ⟨hv, hung⟩⟩ := readFieldLoop_takes
      (t.msgLength - t.msgConsumed) t [] 0 [] t.msgConsumed
    · rcases facing.advanced hn fate took with gone | ⟨live, hl, hs, left, hleft, hp⟩
      · simp only [hv]
        split
        · exact .inl ⟨gone.valid, gone.hang⟩
        · exact .inl ⟨gone.valid, gone.hang⟩
      · have framed := facing.framed
        rw [← hs] at framed
        simp only [hv]
        by_cases more : t.msgLength > t.msgConsumed + n
        · rw [if_pos more]
          refine .inr ⟨⟨live.valid, live.isOpen, live.hang⟩, ?_, ?_, ⟨left, ?_, hp⟩, framed⟩
          · simp only [hl]
            omega
          · simp only [hl]
            omega
          · simp only [hl, hleft]
            omega
        · rw [if_neg more]
          refine .inr ⟨⟨live.valid, live.isOpen, live.hang⟩, Nat.le_refl 0, fun _ => rfl,
            ⟨left, ?_, hp⟩, framed⟩
          rw [hleft]
          simp only [Nat.sub_self]
          omega
    · simp only [hv]
      rcases fate.split facing.toLive with gone | ⟨live, -⟩
      · exact .inl gone
      · have shut := hung.1.socket
        rw [live.valid] at shut
        cases shut

section Fetching

variable {polls : Nat → Poll} {length ahead left : Nat}

/-- A message is being read, of which `length` bytes in all were or will be taken. -/
structure Taking (polls : Nat → Poll) (length ahead : Nat) (t : ProtoBase)
    (rest : List (List UInt8 × List UInt8)) : Prop extends Facing t rest where
  fetching : t.socket.Fetching polls length ahead (t.msgLength - t.msgConsumed)

/-- The bytes of the message that comes next, with its header. -/
def comingLength (t : ProtoBase) : Nat :=
  match stringToUint32 (t.socket.pending.take 8 ++ t.stack 0) with
  | .ok val => 8 + val.toNat
  | .error _ => 8

end Fetching

/-- Where a connection stands while a message is read. -/
def Stands (t : ProtoBase) (rest : List (List UInt8 × List UInt8)) : Prop :=
  Gone t ∨ Facing t rest

theorem readField_stands (stands : Stands t rest) : Stands t.readField.2 rest := by
  rcases stands with gone | facing
  · exact .inl (gone.after (readField_fate t))
  · exact readField_facing facing

/-- A message with the split subject is given back, and what is read behind the subject is
nothing, a signal status or a program. -/
theorem rcvSubject_cases {D : Type} {Q : EventMessage D × ProtoBase → Prop}
    (codec : DoubleCodec D) (subject : List (List UInt8)) (t : ProtoBase)
    (plain : ∀ msg : EventMessage D, msg.subject = subject → Q (msg, t))
    (signal : ∀ msg : EventMessage D, msg.subject = subject → Q (msg, t.rcvSignalStatus.2))
    (program : ∀ msg : EventMessage D, msg.subject = subject →
      Q (msg, (rcvProgramInfo codec t).2)) : Q (rcvSubject codec subject t) := by
  have pick : ∀ (p : Prop) [Decidable p] {a b : EventMessage D × ProtoBase},
      Q a → Q b → Q (if p then a else b) := by
    intro p _ a b ha hb
    by_cases h : p
    · rwa [if_pos h]
    · rwa [if_neg h]
  unfold rcvSubject
  iterate 5 refine pick _ (plain _ rfl) ?_
  refine pick _ (signal _ rfl) (pick _ (pick _ (program _ rfl) (plain _ rfl)) ?_)
  refine pick _ (plain _ rfl) (pick _ (program _ rfl) ?_)
  exact pick _ (plain _ rfl) (pick _ (plain _ rfl) (pick _ (plain _ rfl) (plain _ rfl)))

section Keeps

variable {D : Type} {P : ProtoBase → Prop} (keep : ∀ t, P t → P t.readField.2)
include keep

theorem receiveFields_keeps (codec : DoubleCodec D) (layout : List ProgramField)
    (program : Program D) (before : P t) : P (receiveFields codec layout program t).2 := by
  induction layout generalizing t program with
  | nil => exact before
  | cons f layout ih =>
    have next := keep t before
    unfold receiveFields
    cases t.readField.1 with
    | none => exact next
    | some field =>
      simp only
      cases f.read codec t.protoVersion program field with
      | none => exact next
      | some program' => exact ih program' next

theorem signalLoop_keeps (fuel : Nat) (signal : SignalStatus) (before : P t) :
    P (signalLoop fuel signal t).2 := by
  induction fuel generalizing t signal with
  | zero => exact before
  | succ fuel ih =>
    have next := keep t before
    unfold signalLoop
    cases t.readField.1 with
    | none => exact next
    | some field => exact ih _ next

theorem rcvSubject_keeps (codec : DoubleCodec D) (subject : List (List UInt8)) (before : P t) :
    P (rcvSubject codec subject t).2 := by
  apply rcvSubject_cases (Q := fun r => P r.2)
  · intro msg _
    exact before
  · intro msg _
    exact signalLoop_keeps keep _ _ before
  · intro msg _
    exact receiveFields_keeps keep codec _ _ before

theorem rcvEvent_keeps (codec : DoubleCodec D) (begun : P t.rcvMessageLength.2) :
    P (rcvEvent codec t).2 := by
  have field := keep _ begun
  unfold rcvEvent
  dsimp only
  split
  · split
    · exact rcvSubject_keeps keep codec _ (keep _ field)
    · exact field
  · exact begun

end Keeps

theorem rcvMessageLength_facing (facing : Facing t rest) (head : t.msgLength = 0) :
    Gone t.rcvMessageLength.2 ∨ ∃ m rest', rest = m :: rest' ∧ t.rcvMessageLength.1 = true ∧
      Facing t.rcvMessageLength.2 rest' := by
  have hp := facing.pending_eq head
  obtain ⟨-, taken, valid, -⟩ := t.socket.receiveData_spec 8
  unfold rcvMessageLength
  rw [if_neg (by omega)]
  by_cases full : (t.socket.receiveData 8).1.length = 8
  · simp only [if_pos full]
    rw [hp] at taken
    cases rest with
    | nil =>
      have total := congrArg List.length taken
      simp only [bytes, List.flatMap_nil, List.length_nil, List.length_append] at total
      omega
    | cons m rest' =>
      obtain ⟨⟨wide, val, parsed, announced⟩, later⟩ := facing.framed
      rw [bytes, List.flatMap_cons, List.append_assoc] at taken
      obtain ⟨header, body⟩ := List.append_inj taken (wide.trans full.symm)
      rw [← header, parsed]
      refine .inr ⟨m, rest', rfl, rfl, ⟨valid.trans facing.valid, facing.isOpen, facing.hang⟩,
        Nat.zero_le _, fun empty => empty.symm, ⟨m.2, announced.symm, body.symm⟩, later⟩
  · simp only [if_neg full]
    exact .inl ⟨(hangException_closed _).socket, rfl⟩

theorem rcvEvent_facing {D : Type} (codec : DoubleCodec D) (facing : Facing t rest)
    (head : t.msgLength = 0) :
    Gone (rcvEvent codec t).2 ∨ ∃ m rest', rest = m :: rest' ∧
      Facing (rcvEvent codec t).2 rest' := by
  rcases rcvMessageLength_facing facing head with gone | ⟨m, rest', rfl, -, next⟩
  · exact .inl (rcvEvent_keeps (fun t h => h.after (readField_fate t)) codec gone)
  · rcases rcvEvent_keeps (P := fun t => Stands t rest') (fun _ => readField_stands) codec
      (.inr next) with gone | facing
    · exact .inl gone
    · exact .inr ⟨m, rest', rfl, facing⟩

theorem listen_frame (s : TcpSocket) : s.listen.2.pending = s.pending ∧
    s.listen.2.valid = s.valid ∧ s.listen.2.buffer = s.buffer := by
  unfold TcpSocket.listen
  split
  · cases s.polls 0 <;> exact ⟨rfl, rfl, rfl⟩
  · exact ⟨rfl, rfl, rfl⟩

theorem listen_gone {s : TcpSocket} (gone : s.valid = false) : s.listen.1 = -1 := by
  simp [TcpSocket.listen, gone]

/-- Between two messages, with the messages `rest` to come. -/
structure Listening (t : ProtoBase) (rest : List (List UInt8 × List UInt8)) : Prop
    extends Facing t rest where
  head : t.msgLength = 0

theorem Listening.listened (listening : Listening t rest) :
    Listening { t with socket := t.socket.listen.2 } rest := by
  obtain ⟨hp, hv, -⟩ := listen_frame t.socket
  obtain ⟨left, hl, hleft⟩ := listening.pending
  exact ⟨⟨⟨hv.trans listening.valid, listening.isOpen, listening.hang⟩, listening.counted,
    listening.settled, ⟨left, hl, hp.trans hleft⟩, listening.framed⟩, listening.head⟩

/-- The three ways a call can end on a live connection. -/
inductive Returned (t' : ProtoBase) (rest : List (List UInt8 × List UInt8)) (r : Int) : Prop
  | lost (gone : Gone t') (result : r = -enotconn)
  | message (m : List UInt8 × List UInt8) (rest' : List (List UInt8 × List UInt8))
      (next : rest = m :: rest') (result : r = 1) (listening : Listening t' rest')
  | none (result : r ≤ 0) (listening : Listening t' rest)

theorem rcvBackendMessage_returned {D : Type} (codec : DoubleCodec D)
    (listening : Listening t rest) :
    Returned (rcvBackendMessage codec t).2.2 rest (rcvBackendMessage codec t).1 := by
  have heard := listening.listened
  unfold rcvBackendMessage
  dsimp only
  by_cases input : t.socket.listen.1 > 0
  · rw [if_pos input]
    generalize hu : ({ t with socket := t.socket.listen.2 } : ProtoBase) = u at heard
    rcases rcvEvent_facing codec heard.toFacing heard.head with gone | ⟨m, rest', hm, facing⟩
    · have gone := gone.after (flushMessage_fate _)
      exact .lost gone (by simp [gone.hang])
    · rcases flushMessage_facing facing with gone | ⟨facing, head⟩
      · exact .lost gone (by simp [gone.hang])
      · exact .message m rest' hm (by simp [facing.hang]) ⟨facing, head⟩
  · rw [if_neg input]
    by_cases failed : t.socket.listen.1 < 0
    · rw [if_pos failed]
      exact .none (Int.le_of_lt failed) heard
    · rw [if_neg failed]
      exact .none (by simp [listening.isOpen, listening.hang]) heard

/-- Nothing was read ahead, or the next Listen reports something. -/
def Clear (t : ProtoBase) : Prop := t.socket.buffer = [] ∨ ¬ (t.socket.polls 0).Quiet

/-- When the recvs of the next call take more than its message, the poll after them reports
something. A call whose Listen reports no input takes nothing. -/
def Spared (t : ProtoBase) : Prop :=
  let length := if (t.socket.polls 0).Reports then t.comingLength else 0
  ∀ i taken, Fetched t.socket.polls length t.socket.buffer.length i taken → length < taken →
    length < t.socket.pending.length → ¬ (t.socket.polls i).Quiet

/-- A call without input leaves the buffer to the next one. -/
theorem Spared.silent (spared : Spared t) (silent : (t.socket.polls 0).Reports = false) :
    t.socket.buffer = [] ∨ ¬ (t.socket.polls 1).Quiet := by
  by_cases none : t.socket.buffer = []
  · exact .inl none
  · have held := List.length_pos_iff.mpr none
    refine .inr (spared 1 _ .listened ?_ ?_)
    · rw [silent]
      exact held
    · rw [silent, TcpSocket.pending, List.length_append]
      exact Nat.lt_of_lt_of_le held (Nat.le_add_right _ _)

theorem Taking.clear {polls : Nat → Poll} {length ahead : Nat}
    (taking : Taking polls length ahead t rest) (head : t.msgLength = 0)
    (guard : ∀ i taken, Fetched polls length ahead i taken → length < taken →
      0 < (bytes rest).length → ¬ (polls i).Quiet) : Clear t := by
  obtain ⟨-, -, i, taken, fetched, same, counted, -⟩ := taking.fetching
  by_cases fits : taken ≤ length
  · have none := counted fits
    rw [head] at none
    exact .inl (List.length_eq_zero_iff.mp (by omega))
  · by_cases none : t.socket.buffer = []
    · exact .inl none
    · refine .inr ?_
      have held := List.length_pos_iff.mpr none
      rw [same 0, Nat.add_zero]
      refine guard i taken fetched (by omega) ?_
      rw [← taking.pending_eq head, TcpSocket.pending, List.length_append]
      omega

end Facing

section Runs

variable {D : Type} (codec : DoubleCodec D)

/-- Calls of RcvBackendMessage one after another, each with its time out. -/
def events : Machine ProtoBase Nat Int where
  step t _ := ((rcvBackendMessage codec t).1, (rcvBackendMessage codec t).2.2)

/-- An event connection that has read `ahead` from the descriptor. -/
def subscribed (ahead stream : List UInt8) (polls : Nat → Poll) (sends : Nat → Bool)
    (version : Nat) (stack : Nat → List UInt8) : ProtoBase :=
  connected { TcpSocket.connected stream polls sends with buffer := ahead } version stack

end Runs

def clearCache : List UInt8 × List UInt8 :=
  (ascii "40      ", ascii "BACKEND_MESSAGE[]:[]CLEAR_SETTINGS_CACHE")

end ProtoBase

end CppMyth
