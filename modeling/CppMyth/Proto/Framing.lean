import CppMyth.Proto.Base
import CppMyth.Library.Transition

/-! Message framing over whole runs. The log of received bytes is cut into messages, and the
counters say where in the last one the next byte stands. Every error exit closes. -/
namespace CppMyth.ProtoBase
open Library

/-- Eight bytes that are accepted as a header announcing `len` bytes. The parser may read on
into `junk`, the memory behind them. -/
def IsHeader (junk hdr : List UInt8) (len : Nat) : Prop :=
  hdr.length = 8 ∧ ∃ val, stringToUint32 (hdr ++ junk) = .ok val ∧ val.toNat = len

/-- `k` whole messages, one after another. `memory` is what lay behind each header. -/
inductive Messages (memory : Nat → List UInt8) : Nat → List UInt8 → Prop where
  | nil : Messages memory 0 []
  | snoc {k : Nat} {front hdr body : List UInt8} : Messages memory k front →
      IsHeader (memory k) hdr body.length → Messages memory (k + 1) (front ++ (hdr ++ body))

/-- Whole messages and at most one that was begun: a partial header, or a header and no more
body bytes than it announces. -/
def WithinMessages (memory : Nat → List UInt8) (log : List UInt8) : Prop :=
  ∃ k front tail, Messages memory k front ∧ log = front ++ tail ∧
    (tail.length ≤ 8 ∨
      ∃ hdr body len, IsHeader (memory k) hdr len ∧ tail = hdr ++ body ∧ body.length ≤ len)

/-- The next byte is the first one after the end of the last message. -/
structure AtHead (memory : Nat → List UInt8) (t : ProtoBase) : Prop where
  msgLength : t.msgLength = 0
  msgConsumed : t.msgConsumed = 0
  whole : ∃ k, Messages memory k t.socket.received ∧ t.stack = fun i => memory (k + i)

structure Lost (memory : Nat → List UInt8) (t : ProtoBase) : Prop where
  closed : t.Closed
  within : WithinMessages memory t.socket.received

/-- Inside the message after the first `k`, with `body` read of it. -/
structure Inside (memory : Nat → List UInt8) (t : ProtoBase) (k : Nat)
    (front hdr body : List UInt8) : Prop where
  whole : Messages memory k front
  header : IsHeader (memory k) hdr t.msgLength
  received : t.socket.received = front ++ (hdr ++ body)
  stack : t.stack = fun i => memory (k + 1 + i)

/-- Where a connection stands. -/
inductive Framing (memory : Nat → List UInt8) (t : ProtoBase) : Prop where
  | closed : t.Lost memory → Framing memory t
  | boundary : t.AtHead memory → Framing memory t
  | inside (k : Nat) (front hdr body : List UInt8) : t.Inside memory k front hdr body →
      body.length = t.msgConsumed → t.msgConsumed < t.msgLength → Framing memory t

variable {memory : Nat → List UInt8}

theorem Messages.within {k : Nat} {log : List UInt8} (whole : Messages memory k log) :
    WithinMessages memory log :=
  ⟨k, log, [], whole, by simp, .inl (Nat.zero_le 8)⟩

theorem AtHead.within {t : ProtoBase} (head : t.AtHead memory) :
    WithinMessages memory t.socket.received := by
  obtain ⟨k, whole, -⟩ := head.whole
  exact whole.within

theorem Framing.consumed_le {t : ProtoBase} (framing : Framing memory t) :
    t.msgConsumed ≤ t.msgLength := by
  cases framing with
  | closed h => rw [h.closed.msgLength, h.closed.msgConsumed]
  | boundary h => rw [h.msgLength, h.msgConsumed]
  | inside _ _ _ _ _ _ less => exact Nat.le_of_lt less

theorem Framing.within {t : ProtoBase} (framing : Framing memory t) :
    WithinMessages memory t.socket.received := by
  cases framing with
  | closed h => exact h.within
  | boundary h => exact h.within
  | inside k front hdr body h counted less =>
    exact ⟨k, front, hdr ++ body, h.whole, h.received,
      .inr ⟨hdr, body, t.msgLength, h.header, rfl, by omega⟩⟩

structure Kept (t t' : ProtoBase) (taken : List UInt8) : Prop where
  received : t'.socket.received = t.socket.received ++ taken
  msgLength : t'.msgLength = t.msgLength
  msgConsumed : t'.msgConsumed = t.msgConsumed
  stack : t'.stack = t.stack

def Advanced (t t' : ProtoBase) (n : Nat) : Prop := ∃ taken, taken.length = n ∧ Kept t t' taken

def HungUp (t t' : ProtoBase) (n : Nat) : Prop :=
  t'.Closed ∧ ∃ taken, taken.length ≤ n ∧ t'.socket.received = t.socket.received ++ taken

section Sequence

variable {t t' : ProtoBase} {s : TcpSocket} {first : List UInt8} {n m : Nat}

theorem Advanced.after (received : s.received = t.socket.received ++ first)
    (h : Advanced { t with socket := s } t' n) (total : first.length + n = m) :
    Advanced t t' m := by
  obtain ⟨taken, hl, hk⟩ := h
  refine ⟨first ++ taken, by rw [List.length_append, hl, total], ?_, hk.2, hk.3, hk.4⟩
  rw [hk.received, received, List.append_assoc]

theorem HungUp.after (received : s.received = t.socket.received ++ first)
    (h : HungUp { t with socket := s } t' n) (total : first.length + n = m) :
    HungUp t t' m := by
  obtain ⟨hc, taken, hl, hr⟩ := h
  refine ⟨hc, first ++ taken, by rw [List.length_append]; omega, ?_⟩
  rw [hr, received, List.append_assoc]

theorem HungUp.hang (received : s.received = t.socket.received ++ first)
    (short : first.length ≤ n) : HungUp t (hangException { t with socket := s }) n :=
  ⟨hangException_closed _, first, short, by simp [received]⟩

theorem Advanced.refl (t : ProtoBase) : Advanced t t 0 := ⟨[], rfl, by simp, rfl, rfl, rfl⟩

end Sequence

theorem flushLoop_takes (fuel f n : Nat) (t : ProtoBase) (enough : f ≤ fuel) :
    Advanced t (flushLoop fuel f n t).2 f ∨ HungUp t (flushLoop fuel f n t).2 f := by
  induction fuel generalizing f n t with
  | zero =>
    obtain rfl : f = 0 := by omega
    exact .inl (.refl t)
  | succ fuel ih =>
    unfold flushLoop
    by_cases done : f = 0
    · rw [if_pos done, done]
      exact .inl (.refl t)
    · rw [if_neg done]
      generalize hr : (if f > bufferSize then bufferSize else f) = r
      have bounds : 0 < r ∧ r ≤ f := by
        rw [← hr, bufferSize]
        split <;> omega
      obtain ⟨hle, -, -, hrec, -⟩ := t.socket.receiveData_spec r
      simp only
      by_cases cut : (t.socket.receiveData r).1.length ≠ r
      · rw [if_pos cut]
        exact .inr (.hang hrec (by omega))
      · rw [if_neg cut]
        have total : (t.socket.receiveData r).1.length + (f - r) = f := by omega
        rcases ih (f - r) (n + r) { t with socket := (t.socket.receiveData r).2 } (by omega)
          with rest | rest
        · exact .inl (rest.after hrec total)
        · exact .inr (rest.after hrec total)

/-- What the field loop comes to when it takes `n` bytes: it counts them, or it hangs up. -/
def LoopTakes (t : ProtoBase) (c n : Nat) (r : Option (List UInt8 × Nat) × ProtoBase) : Prop :=
  (∃ v, r.1 = some (v, c + n) ∧ Advanced t r.2 n) ∨ (r.1 = none ∧ HungUp t r.2 n)

theorem readFieldLoop_takes (left : Nat) (t : ProtoBase) (buf : List UInt8) (pss : Nat)
    (field : List UInt8) (c : Nat) :
    ∃ n ≤ left, LoopTakes t c n (readFieldLoop left t buf pss field c) := by
  induction left generalizing t buf pss field c with
  | zero => exact ⟨0, Nat.le_refl 0, .inl ⟨_, rfl, .refl t⟩⟩
  | succ left ih =>
    obtain ⟨hle, -, -, hrec, -⟩ := t.socket.receiveData_spec 1
    cases hb : (t.socket.receiveData 1).1 with
    | nil =>
      refine ⟨0, Nat.zero_le _, .inr ?_⟩
      simp only [readFieldLoop, hb, true_and]
      exact .hang hrec (by simp [hb])
    | cons b tail =>
      have one : (t.socket.receiveData 1).1.length = 1 := by
        rw [hb] at hle ⊢
        simp only [List.length_cons] at hle ⊢
        omega
      -- every turn that goes on took one byte before
      have goOn : ∀ (buf' : List UInt8) (pss' : Nat) (field' : List UInt8),
          ∃ n ≤ left + 1, LoopTakes t c n (readFieldLoop left
            { t with socket := (t.socket.receiveData 1).2 } buf' pss' field' (c + 1)) := by
        intro buf' pss' field'
        obtain ⟨n, hn, ⟨v, hv, adv⟩ | ⟨hv, hung⟩⟩ := ih
          { t with socket := (t.socket.receiveData 1).2 } buf' pss' field' (c + 1)
        · refine ⟨1 + n, by omega, .inl ⟨v, ?_, adv.after hrec (by rw [one])⟩⟩
          rw [hv, Nat.add_assoc]
        · exact ⟨1 + n, by omega, .inr ⟨hv, hung.after hrec (by rw [one])⟩⟩
      by_cases hit : separator[pss]? = some b
      · by_cases full : pss + 1 ≥ separator.length
        · simp only [readFieldLoop, hb, if_pos hit, if_pos full]
          exact ⟨1, by omega, .inl ⟨_, rfl, _, one, hrec, rfl, rfl, rfl⟩⟩
        · simp only [readFieldLoop, hb, if_pos hit, if_neg full]
          exact goOn _ _ _
      · by_cases refill : (buf ++ [b]).length > bufferSize - 2 - separator.length
        · simp only [readFieldLoop, hb, if_neg hit, if_pos refill]
          exact goOn _ _ _
        · simp only [readFieldLoop, hb, if_neg hit, if_neg refill]
          exact goOn _ _ _

section Steps

variable {t t' : ProtoBase} {k n : Nat} {front hdr body : List UInt8}

theorem Inside.hungUp (h : t.Inside memory k front hdr body)
    (room : body.length + n ≤ t.msgLength) (hung : HungUp t t' n) : t'.Lost memory := by
  obtain ⟨hc, taken, hl, hr⟩ := hung
  refine ⟨hc, k, front, hdr ++ (body ++ taken), h.whole, by simp [hr, h.received],
    .inr ⟨hdr, body ++ taken, t.msgLength, h.header, rfl, ?_⟩⟩
  rw [List.length_append]
  omega

theorem Inside.finished (h : t.Inside memory k front hdr body)
    (last : body.length + n = t.msgLength) (advanced : Advanced t t' n) :
    ({ t' with msgLength := 0, msgConsumed := 0 } : ProtoBase).AtHead memory := by
  obtain ⟨taken, hl, hk⟩ := advanced
  have len : (body ++ taken).length = t.msgLength := by
    rw [List.length_append, hl, last]
  refine ⟨rfl, rfl, k + 1, ?_, by rw [← h.stack, ← hk.stack]⟩
  have whole := h.whole.snoc (len ▸ h.header)
  simpa [hk.received, h.received] using whole

theorem Inside.moved (h : t.Inside memory k front hdr body) (counted : body.length = t.msgConsumed)
    (more : t.msgConsumed + n < t.msgLength) (advanced : Advanced t t' n) :
    Framing memory { t' with msgConsumed := t.msgConsumed + n } := by
  obtain ⟨taken, hl, hk⟩ := advanced
  refine .inside k front hdr (body ++ taken) ⟨h.whole, hk.msgLength ▸ h.header, ?_, ?_⟩ ?_ ?_
  · simp [hk.received, h.received]
  · rw [← h.stack, ← hk.stack]
  · rw [List.length_append, hl, counted]
  · rwa [← hk.msgLength] at more

theorem flushMessage_framing (h : Framing memory t) :
    t.flushMessage.2.Lost memory ∨ t.flushMessage.2.AtHead memory := by
  cases h with
  | closed lost =>
    have idle : t.flushMessage.2 = { t with msgLength := 0, msgConsumed := 0 } := by
      simp [flushMessage, flushLoop, lost.closed.msgLength]
    rw [idle]
    exact .inl ⟨⟨lost.closed.socket, rfl, rfl⟩, lost.within⟩
  | boundary head =>
    have idle : t.flushMessage.2 = { t with msgLength := 0, msgConsumed := 0 } := by
      simp [flushMessage, flushLoop, head.msgLength]
    rw [idle]
    exact .inr ⟨rfl, rfl, head.whole⟩
  | inside k front hdr body h counted less =>
    have rest : body.length + (t.msgLength - t.msgConsumed) = t.msgLength := by omega
    rcases flushLoop_takes _ _ 0 t (Nat.le_refl (t.msgLength - t.msgConsumed)) with took | hung
    · exact .inr (h.finished rest took)
    · have lost := h.hungUp (Nat.le_of_eq rest) hung
      exact .inl ⟨⟨lost.closed.socket, rfl, rfl⟩, lost.within⟩

theorem rcvMessageLength_framing (h : Framing memory t) :
    Framing memory t.rcvMessageLength.2 := by
  unfold rcvMessageLength
  by_cases placed : t.msgLength > 0
  · rwa [if_pos placed]
  · rw [if_neg placed]
    obtain ⟨hle, -, -, hrec, -⟩ := t.socket.receiveData_spec 8
    cases h with
    | inside _ _ _ _ _ _ less => omega
    | closed lost =>
      have none : (t.socket.receiveData 8).1 = [] := by
        simp [TcpSocket.receiveData, lost.closed.socket]
      rw [none, List.append_nil] at hrec
      simp only [none, List.length_nil, OfNat.zero_ne_ofNat, if_false]
      refine .closed ⟨hangException_closed _, ?_⟩
      simpa [hrec] using lost.within
    | boundary head =>
      obtain ⟨k, whole, memoryAt⟩ := head.whole
      have began : ∀ s : ProtoBase, s.Closed →
          s.socket.received = t.socket.received ++ (t.socket.receiveData 8).1 →
          Framing memory s := fun s closed received =>
        .closed ⟨closed, k, _, _, whole, received, .inl hle⟩
      by_cases full : (t.socket.receiveData 8).1.length = 8
      · simp only [if_pos full]
        cases parsed : stringToUint32 ((t.socket.receiveData 8).1 ++ t.stack 0) with
        | error err => exact began _ (hangException_closed _) (by simp [hrec])
        | ok val =>
          have announced : IsHeader (memory k) (t.socket.receiveData 8).1 val.toNat := by
            refine ⟨full, val, ?_, rfl⟩
            rw [← parsed, memoryAt]
            rfl
          have next : (fun i => t.stack (i + 1)) = fun i => memory (k + 1 + i) := by
            funext i
            simp only [memoryAt]
            congr 1
            omega
          by_cases empty : val.toNat = 0
          · refine .boundary ⟨empty, rfl, k + 1, ?_, next⟩
            have nothing : IsHeader (memory k) (t.socket.receiveData 8).1
                ([] : List UInt8).length := by
              rwa [empty] at announced
            simpa [hrec] using whole.snoc nothing
          · exact .inside k _ _ [] ⟨whole, announced, by simp [hrec], next⟩ rfl
              (Nat.pos_of_ne_zero empty)
      · simp only [if_neg full]
        exact began _ (hangException_closed _) (by simp [hrec])

theorem readField_framing (h : Framing memory t) : Framing memory t.readField.2 := by
  unfold readField
  by_cases done : t.msgConsumed ≥ t.msgLength
  · rwa [if_pos done]
  · rw [if_neg done]
    cases h with
    | closed lost => exact absurd (by rw [lost.closed.msgLength]; exact Nat.zero_le _) done
    | boundary head => exact absurd (by rw [head.msgLength]; exact Nat.zero_le _) done
    | inside k front hdr body h counted less =>
      obtain ⟨n, hn, ⟨v, hv, took⟩ | ⟨hv, hung⟩⟩ := readFieldLoop_takes
        (t.msgLength - t.msgConsumed) t [] 0 [] t.msgConsumed
      · simp only [hv]
        by_cases more : t.msgLength > t.msgConsumed + n
        · rw [if_pos more]
          exact h.moved counted more took
        · rw [if_neg more]
          exact .boundary (h.finished (by omega) took)
      · simp only [hv]
        exact .closed (h.hungUp (by omega) hung)

theorem Framing.settled (h : Framing memory t) (read : t.msgConsumed = t.msgLength) :
    t.Lost memory ∨ t.AtHead memory := by
  cases h with
  | closed lost => exact .inl lost
  | boundary head => exact .inr head
  | inside _ _ _ _ _ _ less => omega

/-- A request goes out between two messages, and only then is its answer awaited. -/
theorem sendRequest_framing (h : Framing memory t) (cmd : List UInt8) :
    ((t.sendRequest cmd).2.Lost memory ∨ (t.sendRequest cmd).2.AtHead memory) ∧
      ((t.sendRequest cmd).1 = true → (t.sendRequest cmd).2.AtHead memory) := by
  unfold sendRequest
  generalize hq : (if t.msgConsumed ≠ t.msgLength then t.flushMessage.2 else t) = q
  have settled : q.Lost memory ∨ q.AtHead memory := by
    rw [← hq]
    by_cases left : t.msgConsumed ≠ t.msgLength
    · rw [if_pos left]
      exact flushMessage_framing h
    · rw [if_neg left]
      exact h.settled (not_not.mp left)
  by_cases fits : cmd.length > 0 ∧ cmd.length < sendMsgMaxSize
  · simp only [if_pos fits]
    rcases settled with lost | head
    · have unsent : q.socket.sendData (header cmd.length ++ cmd) =
          (false, { q.socket with errno := .ENOTCONN }) := by
        simp [TcpSocket.sendData, lost.closed.socket]
      simp only [unsent, Bool.false_eq_true, if_false]
      exact ⟨.inl ⟨hangException_closed _, by simpa using lost.within⟩, by simp⟩
    · have received : (q.socket.sendData (header cmd.length ++ cmd)).2.received =
          q.socket.received := q.socket.sendData_received _
      by_cases sent : (q.socket.sendData (header cmd.length ++ cmd)).1 = true
      · rw [if_pos sent]
        obtain ⟨k, whole, memoryAt⟩ := head.whole
        have next : ({ q with
            socket := (q.socket.sendData (header cmd.length ++ cmd)).2 } : ProtoBase).AtHead
            memory :=
          ⟨head.msgLength, head.msgConsumed, k, received.symm ▸ whole, memoryAt⟩
        exact ⟨.inr next, fun _ => next⟩
      · rw [if_neg sent]
        refine ⟨.inl ⟨hangException_closed _, ?_⟩, by simp⟩
        simpa [received] using head.within
  · simp only [if_neg fits]
    exact ⟨settled, by simp⟩

theorem sendCommand_framing (h : Framing memory t) (cmd : List UInt8) (feedback : Bool) :
    Framing memory (t.sendCommand cmd feedback).2 := by
  have requested : Framing memory (t.sendRequest cmd).2 :=
    (sendRequest_framing h cmd).1.elim .closed .boundary
  unfold sendCommand
  by_cases awaited : (t.sendRequest cmd).1 = true ∧ feedback = true
  · simp only [if_pos awaited]
    exact rcvMessageLength_framing requested
  · simp only [if_neg awaited]
    exact requested

theorem close_framing (h : Framing memory t) : Framing memory t.close := by
  have shut : ∀ q : ProtoBase, Framing memory q → Framing memory q.closeSocket := fun q hq =>
    .closed ⟨closeSocket_closed q, by simpa using hq.within⟩
  unfold close
  split
  · exact shut _ (sendCommand_framing h _ _)
  · exact shut _ h

end Steps

inductive Call where
  | sendCommand (cmd : List UInt8) (feedback : Bool)
  | rcvMessageLength
  | readField
  | flushMessage
  | close
  deriving DecidableEq, Repr

def calls : Machine ProtoBase Call Bool where
  step t
    | .sendCommand cmd feedback => t.sendCommand cmd feedback
    | .rcvMessageLength => t.rcvMessageLength
    | .readField => (t.readField.1.isSome, t.readField.2)
    | .flushMessage => (true, t.flushMessage.2)
    | .close => (true, t.close)

theorem calls_framing (t : ProtoBase) (call : Call) (h : Framing memory t) :
    Framing memory (calls.step t call).2 := by
  cases call with
  | sendCommand cmd feedback => exact sendCommand_framing h cmd feedback
  | rcvMessageLength => exact rcvMessageLength_framing h
  | readField => exact readField_framing h
  | flushMessage => exact (flushMessage_framing h).elim .closed .boundary
  | close => exact close_framing h

/-- Over any calls and any behaviour of the network, the counters stay in order, no message
gives more bytes than it announced, and a header is only read at the head of a message. -/
theorem calls_stay_framed (stream : List UInt8) (polls : Nat → Poll) (sends : Nat → Bool)
    (version : Nat) (memory : Nat → List UInt8) (history : List Call) :
    let t := calls.final (connected (.connected stream polls sends) version memory) history
    t.msgConsumed ≤ t.msgLength ∧ WithinMessages memory t.socket.received ∧
      (∀ cmd, (t.sendRequest cmd).1 = true → (t.sendRequest cmd).2.AtHead memory) ∧
      (t.msgLength = 0 → t.Closed ∨ t.AtHead memory) := by
  intro t
  have start : (connected (.connected stream polls sends) version memory).AtHead memory :=
    ⟨rfl, rfl, 0, .nil, by simp [connected]⟩
  have framing : Framing memory t := calls.final_invariant calls_framing (.boundary start) history
  refine ⟨framing.consumed_le, framing.within, fun cmd => (sendRequest_framing framing cmd).2, ?_⟩
  intro none
  have read : t.msgConsumed = t.msgLength := by
    have := framing.consumed_le
    omega
  exact (framing.settled read).imp_left Lost.closed

end CppMyth.ProtoBase
