import CppMyth.EventHandler.Process

/-! What the event handler dispatches of the messages that the backend sends. A message read on
a live connection is the one that its own bytes give, however they come in. -/
namespace CppMyth
open Library

namespace ProtoBase

section Content

variable {D : Type} {codec : DoubleCodec D} {t u : ProtoBase}

/-- A connection that holds the body of one message. -/
def holding (version : Nat) (body : List UInt8) : ProtoBase :=
  { connected { TcpSocket.connected [] (fun _ => .timeout) (fun _ => true) with buffer := body }
      version (fun _ => []) with msgLength := body.length }

/-- RcvBackendMessage behind the length of the message. -/
def rcvBody (codec : DoubleCodec D) (t : ProtoBase) : EventMessage D × ProtoBase :=
  let f := t.readField
  if f.1 = some (ascii "BACKEND_MESSAGE") then
    let s := f.2.readField
    rcvSubject codec (tokenize (s.1.getD []) (ascii " ") false) s.2
  else ({}, f.2)

/-- The event that a body stands for. -/
def eventOf (codec : DoubleCodec D) (version : Nat) (body : List UInt8) : EventMessage D :=
  (rcvBody codec (holding version body)).1

/-- The backend has no say in the events of the handler itself. -/
theorem rcvSubject_event (codec : DoubleCodec D) (subject : List (List UInt8)) (t : ProtoBase) :
    (rcvSubject codec subject t).1.event ≠ .HANDLER_STATUS ∧
      (rcvSubject codec subject t).1.event ≠ .HANDLER_TIMER := by
  unfold rcvSubject
  dsimp only
  repeat' refine iteInduction (motive := fun r : EventMessage D × ProtoBase =>
    r.1.event ≠ .HANDLER_STATUS ∧ r.1.event ≠ .HANDLER_TIMER) (fun _ => ?_) fun _ => ?_
  all_goals exact ⟨by simp, by simp⟩

theorem eventOf_event (codec : DoubleCodec D) (version : Nat) (body : List UInt8) :
    (eventOf codec version body).event ≠ .HANDLER_STATUS ∧
      (eventOf codec version body).event ≠ .HANDLER_TIMER := by
  unfold eventOf rcvBody
  dsimp only
  split
  · exact rcvSubject_event codec _ _
  · exact ⟨by simp, by simp⟩

/-- `u` holds the rest of the message that `t` is reading. -/
structure Mirrors (t u : ProtoBase) : Prop where
  protoVersion : t.protoVersion = u.protoVersion
  msgLength : t.msgLength = u.msgLength
  msgConsumed : t.msgConsumed = u.msgConsumed
  valid : u.socket.valid = true
  counted : u.socket.buffer.length = u.msgLength - u.msgConsumed
  pending : u.socket.buffer <+: t.socket.pending

theorem receiveData_held {s : TcpSocket} {b : UInt8} {rest : List UInt8} (valid : s.valid = true)
    (held : s.buffer = b :: rest) : (s.receiveData 1).1 = [b] ∧ (s.receiveData 1).2.buffer = rest ∧
      (s.receiveData 1).2.valid = true := by
  unfold TcpSocket.receiveData
  simp [valid, held]

/-- The loop gives up on `t`, or it comes to the same on both. -/
theorem readFieldLoop_mirrors (left : Nat) (t u : ProtoBase) (buf : List UInt8) (pss : Nat)
    (field : List UInt8) (c : Nat) (valid : u.socket.valid = true)
    (counted : u.socket.buffer.length = left) (pending : u.socket.buffer <+: t.socket.pending) :
    let r := readFieldLoop left t buf pss field c
    let k := readFieldLoop left u buf pss field c
    Gone r.2 ∨ r.1 = k.1 ∧ ∃ s s', r.2 = { t with socket := s } ∧ k.2 = { u with socket := s' } ∧
      s'.valid = true ∧ s'.buffer <+: s.pending ∧
      ∃ v c', k.1 = some (v, c') ∧ c' + s'.buffer.length = c + left := by
  induction left generalizing t u buf pss field c with
  | zero =>
    exact .inr ⟨rfl, t.socket, u.socket, rfl, rfl, valid, pending, _, c, rfl, by omega⟩
  | succ left ih =>
    obtain ⟨b, rest, held⟩ := List.exists_cons_of_length_eq_add_one counted
    obtain ⟨got, kept, valid'⟩ := receiveData_held valid held
    obtain ⟨short, whole, -⟩ := t.socket.receiveData_spec 1
    cases hb : (t.socket.receiveData 1).1 with
    | nil =>
      left
      simp only [readFieldLoop, hb]
      exact ⟨(hangException_closed _).socket, rfl⟩
    | cons a tail =>
      rw [held, whole, hb, List.cons_append, List.cons_prefix_cons] at pending
      obtain ⟨rfl, pending⟩ := pending
      obtain rfl : tail = [] := by
        rw [hb] at short
        simpa using short
      have length : rest.length = left := by simpa [held] using counted
      have goOn : ∀ (buf' : List UInt8) (pss' : Nat) (field' : List UInt8),
          let r := readFieldLoop left { t with socket := (t.socket.receiveData 1).2 } buf' pss'
            field' (c + 1)
          let k := readFieldLoop left { u with socket := (u.socket.receiveData 1).2 } buf' pss'
            field' (c + 1)
          Gone r.2 ∨ r.1 = k.1 ∧ ∃ s s', r.2 = { t with socket := s } ∧
            k.2 = { u with socket := s' } ∧ s'.valid = true ∧ s'.buffer <+: s.pending ∧
            ∃ v c', k.1 = some (v, c') ∧ c' + s'.buffer.length = c + (left + 1) := by
        intro buf' pss' field'
        have next := ih { t with socket := (t.socket.receiveData 1).2 }
          { u with socket := (u.socket.receiveData 1).2 } buf' pss' field' (c + 1) valid'
          (by rw [← length, ← kept]) (by rw [kept]; exact pending)
        rw [Nat.add_right_comm] at next
        exact next
      simp only [readFieldLoop, hb, got]
      by_cases hit : separator[pss]? = some b
      · simp only [if_pos hit]
        by_cases full : pss + 1 ≥ separator.length
        · simp only [if_pos full]
          refine .inr ⟨trivial, _, _, rfl, rfl, valid', by rw [kept]; exact pending, _, _, rfl, ?_⟩
          rw [kept, length, Nat.add_right_comm, Nat.add_assoc]
        · simp only [if_neg full]
          exact goOn _ _ _
      · simp only [if_neg hit]
        by_cases refill : (buf ++ [b]).length > bufferSize - 2 - separator.length
        · simp only [if_pos refill]
          exact goOn _ _ _
        · simp only [if_neg refill]
          exact goOn _ _ _

theorem readField_mirrors (mirrors : Mirrors t u) : Gone t.readField.2 ∨
    t.readField.1 = u.readField.1 ∧ Mirrors t.readField.2 u.readField.2 := by
  unfold readField
  rw [mirrors.msgLength, mirrors.msgConsumed]
  by_cases done : u.msgConsumed ≥ u.msgLength
  · simp only [if_pos done]
    exact .inr ⟨trivial, mirrors⟩
  · simp only [if_neg done]
    rcases readFieldLoop_mirrors (u.msgLength - u.msgConsumed) t u [] 0 [] u.msgConsumed
      mirrors.valid mirrors.counted mirrors.pending with gone | ⟨same, s, s', ht, hu, rest⟩
    · generalize readFieldLoop (u.msgLength - u.msgConsumed) t [] 0 [] u.msgConsumed = r at gone ⊢
      obtain ⟨_ | ⟨v, c⟩, t'⟩ := r
      · exact .inl gone
      · simp only
        split <;> exact .inl ⟨gone.valid, gone.hang⟩
    · generalize readFieldLoop (u.msgLength - u.msgConsumed) t [] 0 [] u.msgConsumed = r
        at same ht ⊢
      generalize readFieldLoop (u.msgLength - u.msgConsumed) u [] 0 [] u.msgConsumed = k
        at same hu rest ⊢
      obtain ⟨r, t'⟩ := r
      obtain ⟨k, u'⟩ := k
      obtain rfl : r = k := same
      obtain rfl : t' = { t with socket := s } := ht
      obtain rfl : u' = { u with socket := s' } := hu
      obtain ⟨valid, pending, v, c, rfl, counted⟩ := rest
      simp only [mirrors.msgLength]
      by_cases more : u.msgLength > c
      · simp only [if_pos more]
        refine .inr ⟨trivial, mirrors.protoVersion, rfl, rfl, valid, ?_, pending⟩
        simp only
        omega
      · simp only [if_neg more]
        refine .inr ⟨trivial, mirrors.protoVersion, rfl, rfl, valid, ?_, pending⟩
        simp only
        omega

/-- Two reads of a message that come to the same, unless the first one hangs up. -/
def Alike {A : Type} (r k : A × ProtoBase) : Prop := Gone r.2 ∨ r.1 = k.1

theorem gone_readField (gone : Gone t) : Gone t.readField.2 := gone.after (readField_fate t)

theorem receiveFields_alike (layout : List ProgramField) (program : Program D)
    (mirrors : Mirrors t u) :
    Alike (receiveFields codec layout program t) (receiveFields codec layout program u) := by
  induction layout generalizing t u program with
  | nil => exact .inr rfl
  | cons f layout ih =>
    unfold receiveFields
    rcases readField_mirrors mirrors with gone | ⟨same, next⟩
    · left
      cases t.readField.1 with
      | none => exact gone
      | some field =>
        simp only
        cases f.read codec t.protoVersion program field with
        | none => exact gone
        | some program' =>
          exact receiveFields_keeps (fun _ => gone_readField) codec layout program' gone
    · rw [same, mirrors.protoVersion]
      cases u.readField.1 with
      | none => exact .inr rfl
      | some field =>
        simp only
        cases f.read codec u.protoVersion program field with
        | none => exact .inr rfl
        | some program' => exact ih program' next

theorem signalLoop_alike (fuel : Nat) (signal : SignalStatus) (mirrors : Mirrors t u) :
    Alike (signalLoop fuel signal t) (signalLoop fuel signal u) := by
  induction fuel generalizing t u signal with
  | zero => exact .inr rfl
  | succ fuel ih =>
    unfold signalLoop
    rcases readField_mirrors mirrors with gone | ⟨same, next⟩
    · left
      cases t.readField.1 with
      | none => exact gone
      | some field => exact signalLoop_keeps (fun _ => gone_readField) _ _ gone
    · rw [same]
      cases u.readField.1 with
      | none => exact .inr rfl
      | some field => exact ih _ next

theorem rcvSubject_alike (subject : List (List UInt8)) (mirrors : Mirrors t u) :
    Alike (rcvSubject codec subject t) (rcvSubject codec subject u) := by
  have pick : ∀ (p : Prop) [Decidable p] {a b a' b' : EventMessage D × ProtoBase},
      Alike a a' → Alike b b' → Alike (if p then a else b) (if p then a' else b') := by
    intro p _ a b a' b' ha hb
    by_cases h : p
    · rwa [if_pos h, if_pos h]
    · rwa [if_neg h, if_neg h]
  have plain : ∀ msg : EventMessage D, Alike (msg, t) (msg, u) := fun _ => .inr rfl
  have signal : ∀ msg : EventMessage D, Alike
      ({ msg with signal := some t.rcvSignalStatus.1 }, t.rcvSignalStatus.2)
      ({ msg with signal := some u.rcvSignalStatus.1 }, u.rcvSignalStatus.2) := by
    intro msg
    unfold rcvSignalStatus
    rw [mirrors.msgLength, mirrors.msgConsumed]
    rcases signalLoop_alike (u.msgLength - u.msgConsumed + 1) {} mirrors with gone | same
    · exact .inl gone
    · exact .inr (by simp only [same])
  have program : ∀ event : Event, Alike
      (({ event := event, subject := subject, program := (rcvProgramInfo codec t).1 } :
        EventMessage D), (rcvProgramInfo codec t).2)
      ({ event := event, subject := subject, program := (rcvProgramInfo codec u).1 },
        (rcvProgramInfo codec u).2) := by
    intro event
    unfold rcvProgramInfo
    rw [mirrors.protoVersion]
    rcases receiveFields_alike (receivedLayout u.protoVersion) { stars := codec.zero } mirrors
      with gone | same
    · exact .inl gone
    · exact .inr (by simp only [same])
  unfold rcvSubject
  iterate 5 refine pick _ (plain _) ?_
  refine pick _ (signal { event := .SIGNAL, subject := subject })
    (pick _ (pick _ (program _) (plain _)) ?_)
  refine pick _ (plain _) (pick _ (program _) ?_)
  exact pick _ (plain _) (pick _ (plain _) (pick _ (plain _) (plain _)))

variable (codec) in
theorem rcvBody_alike (mirrors : Mirrors t u) : Alike (rcvBody codec t) (rcvBody codec u) := by
  unfold rcvBody
  dsimp only
  have gone_subject : ∀ {v : ProtoBase} subject, Gone v → Gone (rcvSubject codec subject v).2 :=
    fun subject gone => rcvSubject_keeps (fun _ => gone_readField) codec subject gone
  rcases readField_mirrors mirrors with gone | ⟨same, next⟩
  · left
    split
    · exact gone_subject _ (gone_readField gone)
    · exact gone
  · rw [same]
    split
    · rcases readField_mirrors next with gone | ⟨same', next'⟩
      · exact .inl (gone_subject _ gone)
      · rw [same']
        exact rcvSubject_alike _ next'
    · exact .inr rfl

theorem rcvMessageLength_begun (t : ProtoBase) (began : t.rcvMessageLength.1 = true) :
    t.rcvMessageLength.2.msgConsumed = 0 ∧
      t.rcvMessageLength.2.protoVersion = t.protoVersion ∧
      ∃ hdr, IsHeader (t.stack 0) hdr t.rcvMessageLength.2.msgLength ∧
        t.socket.pending = hdr ++ t.rcvMessageLength.2.socket.pending := by
  obtain ⟨-, whole, -⟩ := t.socket.receiveData_spec 8
  unfold rcvMessageLength at began ⊢
  by_cases placed : t.msgLength > 0
  · simp [if_pos placed] at began
  · rw [if_neg placed] at began ⊢
    by_cases full : (t.socket.receiveData 8).1.length = 8
    · simp only [if_pos full] at began ⊢
      cases parsed : stringToUint32 ((t.socket.receiveData 8).1 ++ t.stack 0) with
      | ok val => exact ⟨rfl, rfl, _, ⟨full, val, parsed, rfl⟩, whole⟩
      | error err => simp [parsed] at began
    · simp [if_neg full] at began

theorem rcvEvent_eq (codec : DoubleCodec D) (t : ProtoBase) : rcvEvent codec t =
    if t.rcvMessageLength.1 then rcvBody codec t.rcvMessageLength.2
    else ({}, t.rcvMessageLength.2) := rfl

variable (codec) in
theorem rcvEvent_content {m : List UInt8 × List UInt8} {rest : List (List UInt8 × List UInt8)}
    (facing : Facing t (m :: rest)) (head : t.msgLength = 0) :
    Gone (rcvEvent codec t).2 ∨ (rcvEvent codec t).1 = eventOf codec t.protoVersion m.2 := by
  rcases rcvMessageLength_facing facing head with gone | ⟨m', rest', same, began, next⟩
  · exact .inl (rcvEvent_keeps (fun _ => gone_readField) codec gone)
  · obtain ⟨rfl, rfl⟩ := List.cons.inj same
    obtain ⟨start, version, hdr, ⟨wide, -⟩, bytes_of⟩ := rcvMessageLength_begun t began
    obtain ⟨left, length, pending⟩ := next.pending
    obtain ⟨left', none, pending'⟩ := facing.pending
    obtain rfl : left' = [] := List.length_eq_zero_iff.mp (by omega)
    have header := facing.framed.1.1
    rw [pending', pending, List.nil_append, bytes, List.flatMap_cons, List.append_assoc] at bytes_of
    have body := (List.append_inj bytes_of (header.trans wide.symm)).2
    obtain rfl : m.2 = left := List.append_cancel_right body
    have mirrors : Mirrors t.rcvMessageLength.2 (holding t.protoVersion m.2) :=
      ⟨version, by rw [start] at length; exact length.symm, start, rfl, rfl, by
        rw [pending]; exact List.prefix_append _ _⟩
    rcases rcvBody_alike codec mirrors with gone | same
    · left
      rwa [rcvEvent_eq, if_pos began]
    · right
      rwa [rcvEvent_eq, if_pos began]

end Content

/-- What a read that may hang up keeps of the version. -/
theorem readFieldLoop_protoVersion (left : Nat) (t : ProtoBase) (buf : List UInt8) (pss : Nat)
    (field : List UInt8) (c : Nat) :
    (readFieldLoop left t buf pss field c).2.protoVersion = t.protoVersion := by
  induction left generalizing t buf pss field c with
  | zero => rfl
  | succ left ih =>
    unfold readFieldLoop
    dsimp only
    cases (t.socket.receiveData 1).1 with
    | nil => rfl
    | cons b tail =>
      simp only
      split
      · split
        · rfl
        · exact ih _ _ _ _ _
      · split
        · exact ih _ _ _ _ _
        · exact ih _ _ _ _ _

theorem readField_protoVersion (t : ProtoBase) : t.readField.2.protoVersion = t.protoVersion := by
  have loop := readFieldLoop_protoVersion (t.msgLength - t.msgConsumed) t [] 0 [] t.msgConsumed
  unfold readField
  split
  · rfl
  · generalize readFieldLoop (t.msgLength - t.msgConsumed) t [] 0 [] t.msgConsumed = r at loop ⊢
    obtain ⟨_ | ⟨v, c⟩, u⟩ := r
    · exact loop
    · simp only
      split <;> exact loop

theorem flushLoop_protoVersion (fuel f n : Nat) (t : ProtoBase) :
    (flushLoop fuel f n t).2.protoVersion = t.protoVersion := by
  induction fuel generalizing f n t with
  | zero => rfl
  | succ fuel ih =>
    unfold flushLoop
    generalize (if f > bufferSize then bufferSize else f) = r
    dsimp only
    split
    · rfl
    · split
      · rfl
      · exact ih _ _ _

theorem rcvMessageLength_protoVersion (t : ProtoBase) :
    t.rcvMessageLength.2.protoVersion = t.protoVersion := by
  unfold rcvMessageLength
  split
  · rfl
  · simp only
    split
    · split <;> rfl
    · rfl

theorem rcvBackendMessage_protoVersion {D : Type} (codec : DoubleCodec D) (t : ProtoBase) :
    (rcvBackendMessage codec t).2.2.protoVersion = t.protoVersion := by
  have event : ∀ t : ProtoBase, (rcvEvent codec t).2.protoVersion = t.protoVersion := by
    intro t
    exact rcvEvent_keeps (P := fun u => u.protoVersion = t.protoVersion)
      (fun u same => (readField_protoVersion u).trans same) codec (rcvMessageLength_protoVersion t)
  unfold rcvBackendMessage
  dsimp only
  split
  · exact (flushLoop_protoVersion _ _ 0 _).trans (event _)
  · split <;> rfl

/-- A call on a connection between two messages, with what it hands out. -/
theorem rcvBackendMessage_content {D : Type} (codec : DoubleCodec D) {t : ProtoBase}
    {m : List UInt8 × List UInt8} {rest : List (List UInt8 × List UInt8)}
    (listening : Listening t (m :: rest)) (result : (rcvBackendMessage codec t).1 = 1) :
    (rcvBackendMessage codec t).2.1 = some (eventOf codec t.protoVersion m.2) := by
  obtain ⟨hp, hv, -⟩ := listen_frame t.socket
  unfold rcvBackendMessage at result ⊢
  dsimp only at result ⊢
  by_cases input : t.socket.listen.1 > 0
  · rw [if_pos input] at result ⊢
    have heard : Facing { t with socket := t.socket.listen.2 } (m :: rest) := by
      obtain ⟨left, hl, hleft⟩ := listening.pending
      exact ⟨⟨hv.trans listening.valid, listening.isOpen, listening.hang⟩, listening.counted,
        listening.settled, ⟨left, hl, hp.trans hleft⟩, listening.framed⟩
    rcases rcvEvent_content codec heard listening.head with gone | content
    · simp [(gone.after (flushMessage_fate _)).hang, enotconn] at result
    · exact congrArg some content
  · rw [if_neg input] at result
    by_cases failed : t.socket.listen.1 < 0
    · simp only [if_pos failed] at result
      omega
    · rw [if_neg failed] at result
      simp only [enotconn] at result
      split at result <;> simp at result

section Open

variable {t : ProtoBase} {rest : List UInt8}

/-- The next bytes are the rest of the message at hand, and `rest`. -/
structure Faces (t : ProtoBase) (rest : List UInt8) : Prop where
  valid : t.socket.valid = true
  hang : t.hang = false
  counted : t.msgConsumed ≤ t.msgLength
  settled : t.msgConsumed = t.msgLength → t.msgLength = 0
  pending : ∃ left, left.length = t.msgLength - t.msgConsumed ∧
    t.socket.pending = left ++ rest

theorem Faces.head (faces : Faces t rest) (read : t.msgLength = 0) :
    t.socket.pending = rest := by
  obtain ⟨left, none, pending⟩ := faces.pending
  obtain rfl : left = [] := List.length_eq_zero_iff.mp (by omega)
  exact pending

theorem readField_faces (faces : Faces t rest) {text : List UInt8}
    (result : t.readField.1 = some text) : Faces t.readField.2 rest := by
  obtain ⟨left, length, pending⟩ := faces.pending
  unfold readField at result ⊢
  by_cases done : t.msgConsumed ≥ t.msgLength
  · simp [if_pos done] at result
  · rw [if_neg done] at result ⊢
    have fate := readFieldLoop_fate (t.msgLength - t.msgConsumed) t [] 0 [] t.msgConsumed
    obtain ⟨n, hn, ⟨v, hv, taken, len, kept⟩ | ⟨hv, -⟩⟩ := readFieldLoop_takes
      (t.msgLength - t.msgConsumed) t [] 0 [] t.msgConsumed
    · have steady := readFieldLoop_steady _ _ _ _ _ _ hv
      simp only [hv]
      generalize (readFieldLoop (t.msgLength - t.msgConsumed) t [] 0 [] t.msgConsumed).2 = u
        at fate kept steady ⊢
      have valid := steady.valid.trans faces.valid
      cases fate with
      | hung shut => simp [valid] at shut
      | alive _ hang _ _ bytes =>
        rw [kept.received, List.append_assoc, List.append_cancel_left_eq, pending] at bytes
        obtain ⟨left', rfl⟩ : taken <+: left :=
          List.prefix_of_prefix_length_le ⟨_, bytes⟩ ⟨_, rfl⟩ (by omega)
        rw [List.append_assoc, List.append_cancel_left_eq] at bytes
        rw [List.length_append] at length
        by_cases more : t.msgLength > t.msgConsumed + n
        · simp only [if_pos more]
          refine ⟨valid, hang.trans faces.hang, ?_, ?_, left', ?_, bytes⟩ <;>
            simp only [kept.msgLength] <;> omega
        · simp only [if_neg more]
          refine ⟨valid, hang.trans faces.hang, Nat.le_refl 0, fun _ => rfl, left', ?_, bytes⟩
          simp only [Nat.sub_self]
          omega
    · simp [hv] at result

/-- A message begun on a connection between two messages: the header announces its body. -/
theorem rcvMessageLength_faces {m : List UInt8 × List UInt8}
    (faces : Faces t (m.1 ++ m.2 ++ rest)) (head : t.msgLength = 0)
    (framed : IsHeader (t.stack 0) m.1 m.2.length) (began : t.rcvMessageLength.1 = true) :
    Faces t.rcvMessageLength.2 rest ∧ t.rcvMessageLength.2.msgLength = m.2.length ∧
      t.rcvMessageLength.2.msgConsumed = 0 ∧
      t.rcvMessageLength.2.socket.pending = m.2 ++ rest := by
  have steady := rcvMessageLength_steady began
  obtain ⟨start, -, hdr, ⟨wide, val, parsed, announced⟩, bytes⟩ := rcvMessageLength_begun t began
  rw [faces.head head, List.append_assoc] at bytes
  obtain ⟨rfl, body⟩ := List.append_inj bytes (framed.1.trans wide.symm)
  have length : t.rcvMessageLength.2.msgLength = m.2.length := by
    obtain ⟨-, val', parsed', len⟩ := framed
    rw [← announced, ← len, Except.ok.inj (parsed.symm.trans parsed')]
  refine ⟨⟨steady.valid.trans faces.valid, steady.hang.trans faces.hang, ?_, ?_, m.2, ?_,
    body.symm⟩,
    length, start, body.symm⟩
  · omega
  · rw [start]
    exact fun same => same.symm
  · rw [length, start, Nat.sub_zero]

/-- What a connection brings when the backend answers and then sends `messages`: the answer to
the version, the answer to the announcement and the messages, in any segments and after any
polls. -/
structure Hosts (s : TcpSocket) (messages : List (List UInt8 × List UInt8)) : Prop where
  valid : s.valid = true
  answers : ∃ version ok : List UInt8 × List UInt8, ok.2 = ascii "OK" ∧
    s.pending = bytes (version :: ok :: messages) ∧
    ∀ stack, Framed stack (version :: ok :: messages)

theorem sendRequest_faces (faces : Faces t rest) (head : t.msgLength = 0)
    (cmd : List UInt8) (sent : (t.sendRequest cmd).1 = true) :
    Faces (t.sendRequest cmd).2 rest ∧ (t.sendRequest cmd).2.msgLength = 0 := by
  have steady := sendRequest_steady sent
  have start : t.msgConsumed = t.msgLength := by
    have := faces.counted
    omega
  have pending := faces.head head
  unfold sendRequest at sent steady ⊢
  simp only [start, ne_eq, not_true_eq_false, if_false] at sent steady ⊢
  by_cases fits : cmd.length > 0 ∧ cmd.length < sendMsgMaxSize
  · simp only [if_pos fits] at sent steady ⊢
    by_cases went : (t.socket.sendData (header cmd.length ++ cmd)).1 = true
    · simp only [if_pos went] at steady ⊢
      refine ⟨⟨steady.valid.trans faces.valid, faces.hang, Nat.le_refl _, fun _ => head, [], ?_,
        ?_⟩,
        head⟩
      · simp
      · rw [List.nil_append, ← pending]
        unfold TcpSocket.sendData
        split
        · split <;> rfl
        · rfl
    · simp [if_neg went] at sent
  · simp [if_neg fits] at sent

theorem sendCommand_faces {m : List UInt8 × List UInt8}
    (faces : Faces t (m.1 ++ m.2 ++ rest)) (head : t.msgLength = 0)
    (framed : ∀ junk, IsHeader junk m.1 m.2.length) (cmd : List UInt8)
    (sent : (t.sendCommand cmd true).1 = true) :
    Faces (t.sendCommand cmd true).2 rest ∧
      (t.sendCommand cmd true).2.msgLength = m.2.length ∧
      (t.sendCommand cmd true).2.msgConsumed = 0 ∧
      (t.sendCommand cmd true).2.socket.pending = m.2 ++ rest := by
  unfold sendCommand at sent ⊢
  by_cases went : (t.sendRequest cmd).1 = true
  · obtain ⟨faces', head'⟩ := sendRequest_faces faces head cmd went
    simp only [went, and_true, if_true] at sent ⊢
    exact rcvMessageLength_faces faces' head' (framed _) sent
  · simp [went] at sent

theorem flushMessage_faces (faces : Faces t rest)
    (valid : t.flushMessage.2.socket.valid = true) :
    Faces t.flushMessage.2 rest ∧ t.flushMessage.2.msgLength = 0 := by
  obtain ⟨left, length, pending⟩ := faces.pending
  have steady := (flushMessage_fate t).steady valid
  have fate := flushLoop_fate (t.msgLength - t.msgConsumed) (t.msgLength - t.msgConsumed) 0 t
  rcases flushLoop_takes _ _ 0 t (Nat.le_refl (t.msgLength - t.msgConsumed)) with took | hung
  · obtain ⟨taken, len, kept⟩ := took
    cases fate with
    | hung shut =>
      have : t.flushMessage.2.socket.valid = false := shut
      simp [valid] at this
    | alive _ _ _ _ bytes =>
      rw [kept.received, List.append_assoc, List.append_cancel_left_eq, pending] at bytes
      have rest' := (List.append_inj bytes (by omega)).2
      exact ⟨⟨valid, steady.hang.trans faces.hang, Nat.le_refl 0, fun _ => rfl, [], rfl, rest'⟩,
        rfl⟩
  · have : t.flushMessage.2.socket.valid = false := hung.1.socket
    simp [valid] at this

theorem rcvVersion_faces (faces : Faces t rest) {version : Nat}
    (result : t.rcvVersion.1 = some version) (valid : t.rcvVersion.2.socket.valid = true) :
    Faces t.rcvVersion.2 rest ∧ t.rcvVersion.2.msgLength = 0 := by
  unfold rcvVersion at result valid ⊢
  dsimp only at result valid ⊢
  cases first : t.readField.1 with
  | none => simp [first] at result
  | some word =>
    have faces := readField_faces faces first
    cases second : t.readField.2.readField.1 with
    | none => simp [first, second] at result
    | some field =>
      have faces := readField_faces faces second
      simp only [first, second] at result valid ⊢
      by_cases left : t.readField.2.readField.2.flushMessage.1 ≠ 0
      · simp [if_pos left] at result
      · rw [if_neg left] at result valid ⊢
        cases parsed : stringToUint32 field with
        | error err => simp [parsed] at result
        | ok val =>
          simp only [parsed] at valid ⊢
          exact flushMessage_faces faces valid

theorem rcvVersion_idle (t : ProtoBase) : Idle t.rcvVersion.2 := by
  have flushed : ∀ u : ProtoBase, Idle u.flushMessage.2 := fun _ => ⟨rfl, rfl⟩
  unfold rcvVersion
  dsimp only
  cases t.readField.1 with
  | none => exact flushed _
  | some word =>
    cases t.readField.2.readField.1 with
    | none => exact flushed _
    | some field =>
      simp only
      split
      · exact flushed _
      · split
        · exact flushed _
        · exact flushed _

theorem sendCommand_idle (idle : Idle t) (cmd : List UInt8)
    (failed : (t.sendCommand cmd true).1 = false) : Idle (t.sendCommand cmd true).2 := by
  have start : t.msgConsumed = t.msgLength := idle.msgConsumed.trans idle.msgLength.symm
  have hung : ∀ u : ProtoBase, Idle u.hangException := fun _ => ⟨rfl, rfl⟩
  have request : Idle (t.sendRequest cmd).2 := by
    unfold sendRequest
    simp only [start, ne_eq, not_true_eq_false, if_false]
    split
    · split
      · exact ⟨idle.msgLength, idle.msgLength⟩
      · exact hung _
    · exact idle
  unfold sendCommand at failed ⊢
  dsimp only at failed ⊢
  split
  · rename_i sent
    rw [if_pos sent] at failed
    unfold rcvMessageLength at failed ⊢
    rw [if_neg (by rw [request.msgLength]; exact Nat.lt_irrefl 0)] at failed ⊢
    dsimp only at failed ⊢
    split
    · rename_i full
      rw [if_pos full] at failed
      split at failed
      · cases failed
      · exact hung _
    · exact hung _
  · exact request

/-- Behind a handshake that came to an end on a connection that is still there, the backend's
next message answers the announcement. -/
theorem openLoop_faces {peer : Peer} {messages : List (List UInt8 × List UInt8)}
    {myVersion : Nat} (fuel i ver : Nat) (t : ProtoBase) (idle : Idle t) {opened : Opened}
    (result : openLoop peer myVersion fuel i ver t = some opened) (ok : opened.ok = true)
    (valid : opened.proto.socket.valid = true)
    (hosts : ∀ s, peer (opened.attempts - 1) opened.proto.protoVersion = some s →
      Hosts s messages) :
    ∃ answer : List UInt8 × List UInt8, answer.2 = ascii "OK" ∧
      (∀ stack, Framed stack (answer :: messages)) ∧
      Faces opened.proto (bytes (answer :: messages)) ∧ opened.proto.msgLength = 0 ∧
      opened.proto.isOpen = true := by
  induction fuel generalizing i ver t with
  | zero => simp [openLoop] at result
  | succ fuel ih =>
    unfold openLoop at result
    split at result
    · cases result
      cases ok
    · rename_i map _
      split at result
      · cases result
        cases ok
      · rename_i s reached
        dsimp only at result
        split at result
        · rename_i sent
          have rested := rcvVersion_idle
            (sendCommand { t with socket := s, hang := false } (versionCommand map) true).2
          have read := fun rest faces => @rcvVersion_faces
            (sendCommand { t with socket := s, hang := false } (versionCommand map) true).2
            rest faces
          generalize (sendCommand { t with socket := s, hang := false } (versionCommand map)
            true).2.rcvVersion = rcv at result read rested
          split at result
          · cases result
            cases ok
          · rename_i version named
            split at result
            · rename_i same
              cases result
              -- only the connection on which both agree has to be the backend's
              obtain ⟨up, first, answer, answered, stream, framed⟩ := hosts s (same ▸ reached)
              have begins : Faces { t with socket := s, hang := false }
                  (first.1 ++ first.2 ++ bytes (answer :: messages)) :=
                ⟨up, rfl, Nat.le_of_eq (idle.msgConsumed.trans idle.msgLength.symm),
                  fun _ => idle.msgLength,
                  [], by simp [idle.msgLength], by simpa [bytes] using stream⟩
              obtain ⟨faces, -⟩ := sendCommand_faces begins idle.msgLength
                (fun junk => (framed fun _ => junk).1) _ sent
              obtain ⟨faces, head⟩ := read _ faces named valid
              exact ⟨answer, answered, fun stack => (framed fun k => stack (k - 1)).2,
                ⟨valid, faces.hang, faces.counted, faces.settled, faces.pending⟩, head, rfl⟩
            · refine ih _ _ _ ?_ result
              exact ⟨rested.msgLength, rested.msgConsumed⟩
        · cases result
          cases ok

theorem openLoop_idle {peer : Peer} {myVersion : Nat} (fuel i ver : Nat) (t : ProtoBase)
    (idle : Idle t) {opened : Opened} (result : openLoop peer myVersion fuel i ver t = some opened)
    (failed : opened.ok = false) : Idle opened.proto := by
  induction fuel generalizing i ver t with
  | zero => simp [openLoop] at result
  | succ fuel ih =>
    unfold openLoop at result
    split at result
    · cases result
      exact ⟨idle.msgLength, idle.msgConsumed⟩
    · rename_i map _
      split at result
      · cases result
        exact ⟨idle.msgLength, idle.msgConsumed⟩
      · rename_i s _
        have fresh : Idle { t with socket := s, hang := false } :=
          ⟨idle.msgLength, idle.msgConsumed⟩
        dsimp only at result
        split at result
        · have answered := rcvVersion_idle (sendCommand { t with socket := s, hang := false }
            (versionCommand map) true).2
          generalize (sendCommand { t with socket := s, hang := false } (versionCommand map)
            true).2.rcvVersion = rcv at result answered
          split at result
          · cases result
            exact ⟨answered.msgLength, answered.msgConsumed⟩
          · split at result
            · cases result
              cases failed
            · refine ih _ _ _ ?_ result
              exact ⟨answered.msgLength, answered.msgConsumed⟩
        · rename_i unsent
          have silent := sendCommand_idle fresh (versionCommand map) (by simpa using unsent)
          generalize sendCommand { t with socket := s, hang := false } (versionCommand map) true =
            sent at result silent
          cases result
          exact ⟨silent.msgLength, silent.msgConsumed⟩

theorem openEvent_idle {peer : Peer} {hostName : List UInt8} {myVersion fuel v : Nat}
    {t' : ProtoBase} (idle : t.isOpen = false → Idle t)
    (result : t.openEvent peer hostName myVersion fuel = some (false, v, t')) : Idle t' := by
  unfold openEvent at result
  cases reached : openConnection peer myVersion fuel t with
  | none => simp [reached] at result
  | some opened =>
    simp only [reached] at result
    by_cases agreed : opened.ok = true
    · simp only [agreed, if_true] at result
      generalize (if opened.proto.protoVersion ≥ 75 then opened.proto.announceEvent75 hostName
        else (false, opened.proto)) = announced at result
      by_cases ok : announced.1 = true
      · simp [ok] at result
      · simp only [if_neg ok, Option.some.injEq, Prod.mk.injEq, true_and] at result
        rw [← result.2]
        have closed := close_idle announced.2
        exact ⟨closed.msgLength, closed.msgConsumed⟩
    · simp only [if_neg agreed, Option.some.injEq, Prod.mk.injEq, true_and] at result
      rw [← result.2]
      exact openLoop_idle _ _ _ _ (start_idle idle) reached (by simpa using agreed)

theorem readFieldLoop_short (left : Nat) (t : ProtoBase) (buf : List UInt8) (pss : Nat)
    (field : List UInt8) (c : Nat) (short : left + pss < separator.length) {v : List UInt8}
    {c' : Nat} (result : (readFieldLoop left t buf pss field c).1 = some (v, c')) :
    c' = c + left := by
  induction left generalizing t buf pss field c with
  | zero =>
    cases result
    rfl
  | succ left ih =>
    unfold readFieldLoop at result
    dsimp only at result
    split at result
    · cases result
    · split at result
      · split at result
        · omega
        · have := ih _ _ _ _ _ (by omega) result
          omega
      · split at result
        · have := ih _ _ _ _ _ (by omega) result
          omega
        · have := ih _ _ _ _ _ (by omega) result
          omega

/-- A message with no room for a separator is one field. -/
theorem readField_short {text : List UInt8}
    (short : t.msgLength - t.msgConsumed < separator.length)
    (result : t.readField.1 = some text) : t.readField.2.msgLength = 0 := by
  unfold readField at result ⊢
  by_cases done : t.msgConsumed ≥ t.msgLength
  · simp [if_pos done] at result
  · rw [if_neg done] at result ⊢
    dsimp only at result ⊢
    cases read : (readFieldLoop (t.msgLength - t.msgConsumed) t [] 0 [] t.msgConsumed).1 with
    | none => simp [read] at result
    | some r =>
      have all := @readFieldLoop_short _ _ _ _ _ _ (by omega) r.1 r.2 read
      simp only
      rw [if_neg (by omega)]

/-- An announcement that went well: its answer is read whole, and what is next are messages. -/
theorem announceEvent75_listening {hostName : List UInt8}
    {messages : List (List UInt8 × List UInt8)} {answer : List UInt8 × List UInt8}
    (answered : answer.2 = ascii "OK") (framed : ∀ stack, Framed stack (answer :: messages))
    (faces : Faces t (bytes (answer :: messages))) (head : t.msgLength = 0)
    (isOpen : t.isOpen = true) (announced : (t.announceEvent75 hostName).1 = true) :
    Listening (t.announceEvent75 hostName).2 messages := by
  have steady := announceEvent75_steady announced
  unfold announceEvent75 at announced steady ⊢
  generalize ascii "ANN Monitor " ++ hostName ++ ascii " 1" = cmd at announced steady ⊢
  have begins : Faces t (answer.1 ++ answer.2 ++ bytes messages) := by
    simpa [bytes] using faces
  by_cases sent : (t.sendCommand cmd true).1 = true
  · obtain ⟨faces, length, start, pending⟩ := sendCommand_faces begins head
      (fun junk => (framed fun _ => junk).1) cmd sent
    simp only [sent, if_true] at announced steady ⊢
    cases read : (t.sendCommand cmd true).2.readField.1 with
    | none => simp [read] at announced
    | some text =>
      have faces := readField_faces faces read
      simp only [read] at announced steady ⊢
      by_cases ok : isMessageOK text = true
      · rw [if_pos ok] at steady ⊢
        have whole : (t.sendCommand cmd true).2.readField.2.msgLength = 0 := by
          apply readField_short _ read
          rw [length, start, answered]
          decide
        have later : ∀ stack, Framed stack messages := fun stack =>
          (framed fun k => stack (k - 1)).2
        exact ⟨⟨⟨faces.valid, steady.isOpen.trans isOpen, faces.hang⟩, faces.counted,
          faces.settled, faces.pending, later _⟩, whole⟩
      · simp [if_neg ok] at announced
  · simp [sent] at announced

theorem announceEvent75_valid {hostName : List UInt8}
    (announced : (t.announceEvent75 hostName).1 = true) : t.socket.valid = true := by
  unfold announceEvent75 at announced
  generalize ascii "ANN Monitor " ++ hostName ++ ascii " 1" = cmd at announced
  by_cases sent : (t.sendCommand cmd true).1 = true
  · unfold sendCommand at sent
    by_cases went : (t.sendRequest cmd).1 = true
    · rw [← (sendRequest_steady went).valid]
      by_contra shut
      simp only [went, and_true, if_true] at sent
      unfold rcvMessageLength at sent
      split at sent
      · cases sent
      · simp [TcpSocket.receiveData, shut] at sent
    · simp [went] at sent
  · simp [sent] at announced

/-- An event connection that was opened listens to the messages of its backend. -/
theorem openEvent_listening {peer : Peer} {messages : List (List UInt8 × List UInt8)}
    {hostName : List UInt8} {myVersion fuel v : Nat} {t' : ProtoBase}
    (hosts : ∀ opened s, openConnection peer myVersion fuel t = some opened →
      peer (opened.attempts - 1) opened.proto.protoVersion = some s → Hosts s messages)
    (idle : t.isOpen = false → Idle t)
    (result : t.openEvent peer hostName myVersion fuel = some (true, v, t')) :
    Listening t' messages := by
  unfold openEvent at result
  cases reached : openConnection peer myVersion fuel t with
  | none => simp [reached] at result
  | some opened =>
    simp only [reached] at result
    by_cases agreed : opened.ok = true
    · simp only [agreed, if_true] at result
      by_cases version : opened.proto.protoVersion ≥ 75
      · simp only [if_pos version] at result
        by_cases announced : (opened.proto.announceEvent75 hostName).1 = true
        · simp only [announced, if_true, Option.some.injEq, Prod.mk.injEq, true_and] at result
          have up := announceEvent75_valid announced
          obtain ⟨answer, answered, framed, faces, head, isOpen⟩ :=
            openLoop_faces _ _ _ _ (start_idle idle) reached agreed up
              (fun s => hosts opened s reached)
          rw [← result.2]
          exact announceEvent75_listening answered framed faces head isOpen announced
        · simp [announced] at result
      · simp [version] at result
    · simp [agreed] at result

end Open

end ProtoBase

namespace HandlerThread

variable {D : Type} (codec : DoubleCodec D) (hostName : List UInt8) {s : HandlerThread}

/-- What the subscriptions get. -/
def dispatches (server : List UInt8) (s : HandlerThread) (moves : List HandlerMove) :
    List (EventMessage D) :=
  (s.outputs codec hostName moves).filterMap (HandlerOutput.dispatched server)

/-- The messages up to the next status, without the timers. -/
def delivered : List (EventMessage D) → List (EventMessage D)
  | [] => []
  | msg :: rest =>
    if msg.event = .HANDLER_STATUS then []
    else if msg.event = .HANDLER_TIMER then delivered rest
    else msg :: delivered rest

variable (server : List UInt8)

theorem dispatches_cons (s : HandlerThread) (move : HandlerMove) (moves : List HandlerMove) :
    dispatches codec hostName server s (move :: moves) =
      ((process codec hostName).step s move).1.filterMap (HandlerOutput.dispatched server) ++
        dispatches codec hostName server ((process codec hostName).step s move).2 moves :=
  List.filterMap_append

theorem delivered_status (status : HandlerStatus) (rest : List (HandlerOutput D)) :
    delivered ((.status status :: rest).filterMap (HandlerOutput.dispatched server)) = [] := by
  simp [HandlerOutput.dispatched, delivered]

theorem stopping_delivers (moves : List HandlerMove) (ends : s.pc = .stopping ∨ s.pc = .ended) :
    delivered (dispatches codec hostName server s moves) = [] := by
  induction moves generalizing s with
  | nil => rfl
  | cons move moves ih =>
    rw [dispatches_cons]
    cases move with
    | turn peer fuel =>
      rcases ends with at_pc | at_pc
      · simp [process, turn, at_pc, HandlerOutput.dispatched, delivered]
      · have stays : (process codec hostName).step s (.turn peer fuel) = ([], s) := by
          simp [process, turn, at_pc]
        rw [stays]
        exact ih (.inr at_pc)
    | reset => exact ih ends
    | stop => exact ih ends

/-- Without a connection the next thing that the subscriptions get is a status. -/
theorem down_delivers {outs : List (HandlerOutput D)} {n : Nat} {phase : HandlerPhase}
    (accepted : (HandlerPhase.down n).after outs = some phase) :
    delivered (outs.filterMap (HandlerOutput.dispatched server)) = [] := by
  induction outs generalizing n with
  | nil => rfl
  | cons out outs ih =>
    rw [HandlerPhase.after_cons] at accepted
    cases out with
    | status status => exact delivered_status server status outs
    | slept =>
      cases n with
      | zero => simp [HandlerPhase.accept] at accepted
      | succ n => exact ih accepted
    | _ => simp [HandlerPhase.accept] at accepted

/-- The thread is at work on a connection that faces `messages`. -/
structure Serving (s : HandlerThread) (messages : List (List UInt8 × List UInt8)) : Prop where
  working : s.pc = .looping ∨ s.pc = .receiving ∨ s.pc = .resetting ∨ s.pc = .reconnected
  listening : ProtoBase.Listening s.event messages

theorem run_delivers (moves : List HandlerMove) {messages : List (List UInt8 × List UInt8)}
    (serving : Serving s messages) :
    ∃ k, delivered (dispatches codec hostName server s moves) =
      (messages.take k).map fun m => ProtoBase.eventOf codec s.event.protoVersion m.2 := by
  induction moves generalizing s messages with
  | nil => exact ⟨0, rfl⟩
  | cons move moves ih =>
    rw [dispatches_cons]
    cases move with
    | reset => exact ih (s := { s with reset := true }) ⟨serving.working, serving.listening⟩
    | stop => exact ih (s := { s with stop := true }) ⟨serving.working, serving.listening⟩
    | turn peer fuel =>
      rcases serving.working with at_pc | at_pc | at_pc | at_pc
      · have step : (process codec hostName).step s (.turn peer fuel) =
            ([], { s with pc := if s.stop then .stopping else .receiving }) := by
          simp [process, turn, at_pc]
        rw [step]
        cases stop : s.stop with
        | true =>
          refine ⟨0, stopping_delivers codec hostName server moves (.inl ?_)⟩
          simp
        | false => exact ih ⟨.inr (.inl (by simp)), serving.listening⟩
      · have step : (process codec hostName).step s (.turn peer fuel) =
            s.received (ProtoBase.rcvBackendMessage codec s.event) := by
          simp [process, turn, at_pc]
        rw [step]
        have returned := ProtoBase.rcvBackendMessage_returned codec serving.listening
        have content := @ProtoBase.rcvBackendMessage_content D codec s.event
        have version := ProtoBase.rcvBackendMessage_protoVersion codec s.event
        generalize ProtoBase.rcvBackendMessage codec s.event = r at returned content version ⊢
        obtain ⟨result, msg, t⟩ := r
        simp only at returned content version
        unfold received
        cases returned with
        | lost gone lost =>
          simp only [lost, enotconn]
          exact ⟨0, delivered_status server .DISCONNECTED _⟩
        | message m rest next got listening =>
          subst next
          obtain rfl := content serving.listening got
          simp only [got]
          obtain ⟨k, later⟩ := ih (s := { s with pc := .looping, event := t })
            ⟨.inl rfl, listening⟩
          obtain ⟨status, timer⟩ := ProtoBase.eventOf_event codec s.event.protoVersion m.2
          refine ⟨k + 1, ?_⟩
          rw [version] at later
          rw [List.take_succ_cons, List.map_cons, ← later]
          exact (if_neg status).trans (if_neg timer)
        | none low listening =>
          simp only [if_neg (Int.not_lt.mpr low)]
          by_cases negative : result < 0
          · rw [if_pos negative]
            exact ⟨0, delivered_status server .DISCONNECTED _⟩
          · rw [if_neg negative]
            obtain ⟨k, later⟩ := ih (s := { s with pc := .resetting, event := t })
              ⟨.inr (.inr (.inl rfl)), listening⟩
            rw [version] at later
            exact ⟨k, later⟩
      · have step : (process codec hostName).step s (.turn peer fuel) = if s.reset then
            ([.closed], { s with pc := .retrying 0, reset := false, event := s.event.closeEvent })
            else ([], { s with pc := .looping }) := by
          simp [process, turn, at_pc]
        rw [step]
        cases reset : s.reset with
        | true =>
          have down : Follows { s with
              pc := .retrying 0, reset := false, event := s.event.closeEvent } (.down 0) :=
            ⟨rfl, by simp⟩
          obtain ⟨phase, accepted, -⟩ := run_goes codec hostName moves down
          exact ⟨0, down_delivers server accepted⟩
        | false => exact ih ⟨.inl rfl, serving.listening⟩
      · have step : (process codec hostName).step s (.turn peer fuel) =
            ([], { s with pc := .looping, reset := false }) := by
          simp [process, turn, at_pc]
        rw [step]
        exact ih ⟨.inl rfl, serving.listening⟩

/-- A connection that is not open has no message begun. -/
def Settled (s : HandlerThread) : Prop := s.event.isOpen = false → ProtoBase.Idle s.event

theorem connect_settled (settled : Settled s) (peer : ProtoBase.Peer) (fuel : Nat)
    (success failure : List (HandlerOutput D) × HandlerPc) :
    Settled (s.connect hostName peer fuel success failure).2 := by
  unfold connect
  cases result : s.event.openEvent peer hostName s.myVersion fuel with
  | none => exact settled
  | some r =>
    obtain ⟨ok, v, t⟩ := r
    cases ok with
    | true =>
      intro shut
      rw [(ProtoBase.openEvent_spec result).1 rfl] at shut
      cases shut
    | false => exact fun _ => ProtoBase.openEvent_idle settled result

theorem rcvBackendMessage_settled (settled : Settled s) :
    let t := (ProtoBase.rcvBackendMessage codec s.event).2.2
    t.isOpen = false → ProtoBase.Idle t := by
  unfold ProtoBase.rcvBackendMessage
  dsimp only
  split
  · exact fun _ => ⟨rfl, rfl⟩
  · have kept : ∀ shut : s.event.isOpen = false,
        ProtoBase.Idle { s.event with socket := s.event.socket.listen.2 } := fun shut =>
      ⟨(settled shut).msgLength, (settled shut).msgConsumed⟩
    split <;> exact kept

theorem step_settled (settled : Settled s) (move : HandlerMove) :
    Settled ((process codec hostName).step s move).2 := by
  have closed : ProtoBase.Idle s.event.closeEvent :=
    ⟨(ProtoBase.close_idle s.event).msgLength, (ProtoBase.close_idle s.event).msgConsumed⟩
  cases move with
  | reset => exact settled
  | stop => exact settled
  | turn peer fuel =>
    simp only [process, turn]
    split
    · exact connect_settled hostName settled peer fuel _ _
    · exact settled
    · have after := rcvBackendMessage_settled codec settled
      generalize ProtoBase.rcvBackendMessage codec s.event = r at after ⊢
      unfold received
      dsimp only
      split
      · exact after
      · split <;> exact after
    · split
      · exact fun _ => closed
      · exact settled
    · exact settled
    · exact connect_settled hostName settled peer fuel _ _
    · exact settled
    · exact settled
    · exact fun _ => closed
    · exact settled

theorem connect_announces {peer : ProtoBase.Peer} {fuel : Nat}
    {success failure : List (HandlerOutput D) × HandlerPc}
    (other : failure.1 ≠ [.status .CONNECTED])
    (announced : (s.connect hostName peer fuel success failure).1 = [.status .CONNECTED]) :
    ∃ v t, s.event.openEvent peer hostName s.myVersion fuel = some (true, v, t) ∧
      s.connect hostName peer fuel success failure =
        (success.1, { s with pc := success.2, event := t, myVersion := v }) := by
  unfold connect at announced ⊢
  cases result : s.event.openEvent peer hostName s.myVersion fuel with
  | none => simp [result] at announced
  | some r =>
    obtain ⟨ok, v, t⟩ := r
    cases ok with
    | true => exact ⟨v, t, rfl, rfl⟩
    | false =>
      rw [result] at announced
      exact absurd announced other

/-- The step that announces a connection has opened one. -/
theorem turn_announces {peer : ProtoBase.Peer} {fuel : Nat}
    (announced : (s.turn codec hostName peer fuel).1 = [.status .CONNECTED]) :
    ∃ v t, s.event.openEvent peer hostName s.myVersion fuel = some (true, v, t) ∧
      (s.turn codec hostName peer fuel).2.event = t ∧
      ((s.turn codec hostName peer fuel).2.pc = .looping ∨
        (s.turn codec hostName peer fuel).2.pc = .reconnected) := by
  unfold turn at announced ⊢
  cases at_pc : s.pc with
  | opening =>
    simp only [at_pc] at announced ⊢
    obtain ⟨v, t, opened, step⟩ := connect_announces hostName (by simp) announced
    rw [step]
    exact ⟨v, t, opened, rfl, .inl rfl⟩
  | receiving =>
    simp only [at_pc] at announced
    generalize ProtoBase.rcvBackendMessage codec s.event = r at announced
    obtain ⟨result, msg, t⟩ := r
    unfold received at announced
    dsimp only at announced
    split at announced
    · cases msg <;> simp at announced
    · split at announced <;> simp at announced
  | resetting =>
    simp only [at_pc] at announced
    split at announced <;> simp at announced
  | attempting c =>
    cases c with
    | zero =>
      simp only [at_pc] at announced ⊢
      obtain ⟨v, t, opened, step⟩ := connect_announces hostName (by simp) announced
      rw [step]
      exact ⟨v, t, opened, rfl, .inr rfl⟩
    | succ c => simp [at_pc] at announced
  | _ => simp [at_pc] at announced

/-- Whatever came before and however the bytes come in: behind the connection on which both
sides agree, what is dispatched up to the next status are the first messages of its backend, in
order and each once. -/
theorem dispatched_in_order (codec : DoubleCodec D) (hostName server : List UInt8)
    (event : ProtoBase) (idle : event.isOpen = false → ProtoBase.Idle event) (myVersion : Nat)
    (stop reset : Bool) (front : List HandlerMove) (peer : ProtoBase.Peer) (fuel : Nat)
    (back : List HandlerMove) (messages : List (List UInt8 × List UInt8)) :
    let s := (process codec hostName).final (started event myVersion stop reset) front
    let t := (s.turn codec hostName peer fuel).2
    (s.turn codec hostName peer fuel).1 = [.status .CONNECTED] →
    (∀ opened c, s.event.openConnection peer s.myVersion fuel = some opened →
      peer (opened.attempts - 1) opened.proto.protoVersion = some c →
        ProtoBase.Hosts c messages) →
      ∃ k, delivered (dispatches codec hostName server t back) =
        (messages.take k).map fun m => ProtoBase.eventOf codec t.event.protoVersion m.2 := by
  intro s t announced hosts
  have start : Settled (started event myVersion stop reset) := idle
  have settled : Settled s :=
    (process codec hostName).final_invariant (I := Settled)
      (fun _ move h => step_settled codec hostName h move) start front
  obtain ⟨v, u, opened, now, pc⟩ := turn_announces codec hostName announced
  have listening := ProtoBase.openEvent_listening hosts settled opened
  rw [← now] at listening
  have serving : Serving t messages :=
    ⟨pc.elim .inl fun h => .inr (.inr (.inr h)), listening⟩
  exact run_delivers codec hostName server back serving

/-- A backend that names version 90 where another is announced. There it accepts, answers the
announcement and sends one message. -/
def hosting : ProtoBase.Peer := fun _ v =>
  if v = 90 then
    some (TcpSocket.connected (ascii "13      ACCEPT[]:[]90" ++ ascii "2       OK" ++
      ProtoBase.bytes [ProtoBase.clearCache]) (fun _ => .ready 99) fun _ => true)
  else some (TcpSocket.connected (ascii "13      REJECT[]:[]90") (fun _ => .ready 99) fun _ => true)

theorem hosting_hosts (i : Nat) (c : TcpSocket) (reached : hosting i 90 = some c) :
    ProtoBase.Hosts c [ProtoBase.clearCache] := by
  obtain rfl := Option.some.inj reached
  refine ⟨rfl, (ascii "13      ", ascii "ACCEPT[]:[]90"), (ascii "2       ", ascii "OK"), rfl, rfl,
    fun stack => ⟨⟨rfl, 13, rfl, rfl⟩, ⟨rfl, 2, rfl, rfl⟩, ⟨rfl, 40, rfl, rfl⟩, trivial⟩⟩

/-- The thread before it opens the connection to that backend. -/
def beginning : HandlerThread := (process ProtoBase.zeroCodec (ascii "box")).final
  (started ProtoBase.unconnected 0 false false) []

theorem beginning_announces :
    (beginning.turn ProtoBase.zeroCodec (ascii "box") hosting 3).1 = [.status .CONNECTED] := by
  have opens : (ProtoBase.unconnected.openEvent hosting (ascii "box") 0 3).map (·.1) =
      some true := by decide +kernel
  obtain ⟨⟨ok, v, t⟩, result, same⟩ := Option.map_eq_some_iff.mp opens
  obtain rfl : ok = true := same
  simp [beginning, Machine.final, turn, started, connect, result]

theorem beginning_agrees (opened : Opened)
    (result : ProtoBase.unconnected.openConnection hosting 0 3 = some opened) :
    opened.proto.protoVersion = 90 := by
  have agrees : (ProtoBase.unconnected.openConnection hosting 0 3).map
      (fun opened => opened.proto.protoVersion) = some 90 := by decide +kernel
  rw [result] at agrees
  exact Option.some.inj agrees

theorem dispatched_in_order_hosting :
    ∃ k, delivered (dispatches ProtoBase.zeroCodec (ascii "box") (ascii "tv")
      (beginning.turn ProtoBase.zeroCodec (ascii "box") hosting 3).2
        [.turn hosting 3, .turn hosting 3]) =
      ([ProtoBase.clearCache].take k).map fun m => ProtoBase.eventOf ProtoBase.zeroCodec
        (beginning.turn ProtoBase.zeroCodec (ascii "box") hosting 3).2.event.protoVersion m.2 := by
  refine dispatched_in_order ProtoBase.zeroCodec (ascii "box") (ascii "tv") ProtoBase.unconnected
    (fun _ => ⟨rfl, rfl⟩) 0 false false [] hosting 3 [.turn hosting 3, .turn hosting 3]
    [ProtoBase.clearCache] beginning_announces ?_
  intro opened c result reached
  rw [beginning_agrees opened result] at reached
  exact hosting_hosts _ c reached

end HandlerThread

end CppMyth
