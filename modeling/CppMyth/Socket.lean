import Mathlib.Tactic

/-! The stream socket of `socket.cpp`. The operating system is a schedule of outcomes: what
each poll reports, how much the recv after it takes and whether each send goes through. Any
schedule is a behaviour of the network, so a result over all schedules covers every
segmentation, timeout and failure. -/
namespace CppMyth

def ascii (s : String) : List UInt8 := s.toList.map fun c => UInt8.ofNat c.toNat

inductive Errno where
  | none | ETIMEDOUT | ENOTCONN
  | last (code : Nat)
  deriving DecidableEq, Repr

/-- One poll of the descriptor for input, with the recv that follows when input is reported. -/
inductive Poll where
  | timeout
  | failed (code : Nat)
  | hangup
  | nothing
  | broken (code : Nat)
  /-- recv takes at most `k + 1` bytes; it takes none only at the end of the stream. -/
  | ready (k : Nat)
  deriving DecidableEq, Repr

/-- `buffer` holds the bytes from `m_bufptr` on. `stream` is what the peer sends and recv has
not taken yet. `received` and `sent` record what went through the two calls below. -/
structure TcpSocket where
  valid : Bool
  errno : Errno
  buffer : List UInt8
  stream : List UInt8
  polls : Nat → Poll
  sends : Nat → Bool
  received : List UInt8
  sent : List UInt8

/-- `SOCKET_BUFFER_SIZE` -/
def socketBufferSize : Nat := 1472

namespace TcpSocket

def connected (stream : List UInt8) (polls : Nat → Poll) (sends : Nat → Bool) : TcpSocket :=
  ⟨true, .none, [], stream, polls, sends, [], []⟩

def pending (s : TcpSocket) : List UInt8 := s.buffer ++ s.stream

def polled (s : TcpSocket) : TcpSocket := { s with polls := fun i => s.polls (i + 1) }

/-- recv for `size` bytes. An empty result is the end of the stream. -/
def recv (s : TcpSocket) (k size : Nat) : List UInt8 × TcpSocket :=
  (s.stream.take (min (k + 1) size), { s with stream := s.stream.drop (min (k + 1) size) })

/-- The loop of ReceiveData. Each turn that goes on has taken a byte, so `n` bounds them. -/
def receiveLoop : Nat → TcpSocket → Nat → List UInt8 → List UInt8 × TcpSocket
  | 0, s, _, got => (got, s)
  | fuel + 1, s, n, got =>
    if n = 0 then (got, s)
    else match s.polls 0 with
      | .timeout => (got, { s.polled with errno := .ETIMEDOUT })
      | .failed code => (got, { s.polled with errno := .last code })
      | .hangup => (got, { s.polled with errno := .ENOTCONN })
      | .nothing => (got, s.polled)
      | .broken code => (got, { s.polled with errno := .last code })
      | .ready k =>
        -- under the threshold the bytes go through the buffer of the socket
        let size := if n < socketBufferSize then socketBufferSize else n
        let r := s.polled.recv k size
        if r.1 = [] then (got, r.2)
        else receiveLoop fuel { r.2 with buffer := r.1.drop n } (n - r.1.length)
          (got ++ r.1.take n)

def receiveData (s : TcpSocket) (n : Nat) : List UInt8 × TcpSocket :=
  if s.valid then
    let s := { s with errno := .none }
    let got := s.buffer.take n
    if s.buffer ≠ [] ∧ n ≤ s.buffer.length then
      (got, { s with buffer := s.buffer.drop n, received := s.received ++ got })
    else
      let r := receiveLoop (n - got.length) { s with buffer := [] } (n - got.length) got
      (r.1, { r.2 with received := s.received ++ r.1 })
  else ([], { s with errno := .ENOTCONN })

/-- A recv that no poll comes before. It blocks until bytes, the end or an error are there. -/
inductive Recv where
  | failed (code : Nat)
  | took (k : Nat)
  deriving DecidableEq, Repr

def blockingRead (s : TcpSocket) (answer : Recv) (n : Nat) : List UInt8 × TcpSocket :=
  if s.valid ∧ 0 < n then
    if s.buffer ≠ [] then
      let got := s.buffer.take n
      (got, { s with buffer := s.buffer.drop n, received := s.received ++ got })
    else match answer with
      | .failed code => ([], { s with errno := .last code })
      | .took k =>
        let r := s.recv k n
        (r.1, { r.2 with received := s.received ++ r.1 })
  else ([], s)

/-- Listen polls the descriptor only: the buffer of the socket has no part in the answer. -/
def listen (s : TcpSocket) : Int × TcpSocket :=
  if s.valid then
    match s.polls 0 with
    | .timeout => (0, s.polled)
    | .failed code => (-1, { s.polled with errno := .last code })
    | .broken _ => (1, s.polled)
    | .ready _ => (1, s.polled)
    | .hangup => (-1, { s.polled with errno := .ENOTCONN })
    | .nothing => (0, s.polled)
  else (-1, { s with errno := .ENOTCONN })

def sendData (s : TcpSocket) (msg : List UInt8) : Bool × TcpSocket :=
  if s.valid then
    let next := { s with sends := fun i => s.sends (i + 1) }
    if s.sends 0 then (true, { next with errno := .none, sent := s.sent ++ msg })
    else (false, { next with errno := .last 0 })
  else (false, { s with errno := .ENOTCONN })

/-- The bytes still on the way are lost with the descriptor. -/
def disconnect (s : TcpSocket) : TcpSocket :=
  if s.valid then { s with valid := false, buffer := [], stream := [] } else s

@[simp] theorem disconnect_valid (s : TcpSocket) : s.disconnect.valid = false := by
  unfold disconnect
  cases h : s.valid <;> simp [h]

@[simp] theorem disconnect_received (s : TcpSocket) : s.disconnect.received = s.received := by
  unfold disconnect
  split <;> rfl

@[simp] theorem disconnect_sent (s : TcpSocket) : s.disconnect.sent = s.sent := by
  unfold disconnect
  split <;> rfl

theorem sendData_received (s : TcpSocket) (msg : List UInt8) :
    (s.sendData msg).2.received = s.received := by
  unfold sendData
  split
  · split <;> rfl
  · rfl

theorem recv_pending (s : TcpSocket) (k size : Nat) (empty : s.buffer = []) :
    s.pending = (s.recv k size).1 ++ (s.recv k size).2.pending := by
  simp [pending, recv, empty]

/-- What a call leaves alone, and where the bytes it adds to `old` come from. -/
structure Took (s s' : TcpSocket) (old got : List UInt8) (n : Nat) : Prop where
  bytes : ∃ front, got = old ++ front ∧ front.length ≤ n ∧ s.pending = front ++ s'.pending
  valid : s'.valid = s.valid
  received : s'.received = s.received
  sent : s'.sent = s.sent
  sends : s'.sends = s.sends

theorem Took.none {s s' : TcpSocket} {got : List UInt8} {n : Nat} (pending : s'.pending = s.pending)
    (valid : s'.valid = s.valid) (received : s'.received = s.received) (sent : s'.sent = s.sent)
    (sends : s'.sends = s.sends) : Took s s' got got n :=
  ⟨⟨[], by simp [pending]⟩, valid, received, sent, sends⟩

theorem Took.trans {s t u : TcpSocket} {old mid got : List UInt8} {n front : Nat}
    (h : Took s t old mid front) (fits : front ≤ n) (k : Took t u mid got (n - front)) :
    Took s u old got n := by
  obtain ⟨a, ha, hal, hap⟩ := h.bytes
  obtain ⟨b, hb, hbl, hbp⟩ := k.bytes
  refine ⟨⟨a ++ b, ?_, ?_, ?_⟩, k.valid.trans h.valid, k.received.trans h.received,
    k.sent.trans h.sent, k.sends.trans h.sends⟩
  · rw [hb, ha, List.append_assoc]
  · rw [List.length_append]
    omega
  · rw [hap, hbp, List.append_assoc]

theorem receiveLoop_zero (fuel : Nat) (s : TcpSocket) (got : List UInt8) :
    receiveLoop fuel s 0 got = (got, s) := by
  cases fuel <;> simp [receiveLoop]

theorem receiveLoop_took (fuel : Nat) (s : TcpSocket) (n : Nat) (got : List UInt8)
    (empty : s.buffer = [] ∨ n = 0) :
    Took s (receiveLoop fuel s n got).2 got (receiveLoop fuel s n got).1 n := by
  induction fuel generalizing s n got with
  | zero => exact .none rfl rfl rfl rfl rfl
  | succ fuel ih =>
    by_cases done : n = 0
    · subst done
      rw [receiveLoop_zero]
      exact .none rfl rfl rfl rfl rfl
    · have empty := empty.resolve_right done
      unfold receiveLoop
      rw [if_neg done]
      cases s.polls 0 with
      | ready k =>
        simp only
        generalize (if n < socketBufferSize then socketBufferSize else n) = size
        have whole := recv_pending s.polled k size empty
        generalize hr : s.polled.recv k size = r at whole ⊢
        have same : r.2.valid = s.valid ∧ r.2.received = s.received ∧ r.2.sent = s.sent ∧
            r.2.sends = s.sends ∧ r.2.buffer = [] := by
          rw [← hr]
          exact ⟨rfl, rfl, rfl, rfl, empty⟩
        obtain ⟨hv, hrc, hs, ho, hb⟩ := same
        by_cases eof : r.1 = []
        · rw [if_pos eof]
          rw [eof, List.nil_append] at whole
          exact .none whole.symm hv hrc hs ho
        · rw [if_neg eof]
          have first : Took s { r.2 with buffer := r.1.drop n } got (got ++ r.1.take n)
              (min n r.1.length) := by
            refine ⟨⟨r.1.take n, rfl, by simp, ?_⟩, hv, hrc, hs, ho⟩
            have rest : r.2.pending = r.2.stream := by simp [pending, hb]
            change s.pending = _ ++ (r.1.drop n ++ r.2.stream)
            rw [← List.append_assoc, List.take_append_drop, ← rest]
            exact whole
          have next := ih { r.2 with buffer := r.1.drop n } (n - r.1.length)
            (got ++ r.1.take n) (by
              rcases Nat.le_total n r.1.length with h | h
              · exact .inr (by omega)
              · exact .inl (List.drop_eq_nil_of_le h))
          have split : n - min n r.1.length = n - r.1.length := by omega
          exact first.trans (Nat.min_le_left n _) (split ▸ next)
      | _ => exact .none rfl rfl rfl rfl rfl

theorem receiveData_spec (s : TcpSocket) (n : Nat) :
    (s.receiveData n).1.length ≤ n ∧
    s.pending = (s.receiveData n).1 ++ (s.receiveData n).2.pending ∧
    (s.receiveData n).2.valid = s.valid ∧
    (s.receiveData n).2.received = s.received ++ (s.receiveData n).1 ∧
    (s.receiveData n).2.sent = s.sent ∧ (s.receiveData n).2.sends = s.sends := by
  unfold receiveData
  by_cases valid : s.valid = true
  · rw [if_pos valid]
    by_cases stored : s.buffer ≠ [] ∧ n ≤ s.buffer.length
    · simp only [if_pos stored]
      refine ⟨by simp, ?_, ?_⟩
      · simp only [pending]
        rw [← List.append_assoc, List.take_append_drop]
      · simp
    · simp only [if_neg stored]
      have whole : s.buffer.take n = s.buffer := by
        by_cases none : s.buffer = []
        · simp [none]
        · exact List.take_of_length_le (Nat.le_of_not_le fun h => stored ⟨none, h⟩)
      rw [whole]
      obtain ⟨⟨front, hg, hl, hp⟩, hv, hr, hs, ho⟩ := receiveLoop_took (n - s.buffer.length)
        { s with errno := .none, buffer := [] } (n - s.buffer.length) s.buffer (.inl rfl)
      have room : s.buffer.length ≤ n := by
        rw [← whole]
        simp
      refine ⟨?_, ?_, hv, trivial, hs, ho⟩
      · simp only [hg, List.length_append]
        omega
      · have rest : s.stream = front ++ (receiveLoop (n - s.buffer.length)
            { s with errno := .none, buffer := [] } (n - s.buffer.length) s.buffer).2.pending := hp
        simp only [hg]
        rw [List.append_assoc]
        exact congrArg (s.buffer ++ ·) rest
  · rw [if_neg valid]
    simp [pending]

/-- The peer's next bytes are `bytes` and no poll fails before they have come. -/
structure Delivers (s : TcpSocket) (bytes : List UInt8) : Prop where
  valid : s.valid = true
  polls : ∀ i, ∃ k, s.polls i = .ready k
  pending : bytes <+: s.pending

theorem receiveLoop_full (fuel : Nat) (s : TcpSocket) (n : Nat) (got : List UInt8)
    (enough : n ≤ fuel) (polls : ∀ i, ∃ k, s.polls i = .ready k)
    (arrives : n ≤ s.stream.length) :
    (receiveLoop fuel s n got).1.length = got.length + n ∧
      ∀ i, ∃ k, (receiveLoop fuel s n got).2.polls i = .ready k := by
  induction fuel generalizing s n got with
  | zero =>
    obtain rfl : n = 0 := by omega
    exact ⟨rfl, polls⟩
  | succ fuel ih =>
    by_cases done : n = 0
    · subst done
      rw [receiveLoop_zero]
      exact ⟨rfl, polls⟩
    · obtain ⟨k, hk⟩ := polls 0
      unfold receiveLoop
      simp only [if_neg done, hk]
      generalize hsize : (if n < socketBufferSize then socketBufferSize else n) = size
      have positive : 0 < size := by
        rw [← hsize, socketBufferSize]
        split <;> omega
      have len : (s.polled.recv k size).1.length = min (min (k + 1) size) s.stream.length := by
        simp [recv, polled]
      have some : (s.polled.recv k size).1 ≠ [] := by
        rw [← List.length_pos_iff, len]
        omega
      rw [if_neg some]
      have next := ih { (s.polled.recv k size).2 with
          buffer := (s.polled.recv k size).1.drop n } (n - (s.polled.recv k size).1.length)
        (got ++ (s.polled.recv k size).1.take n) (by omega) (fun i => polls (i + 1))
        (by
          change _ ≤ (s.stream.drop (min (k + 1) size)).length
          rw [List.length_drop, len]
          omega)
      refine ⟨?_, next.2⟩
      rw [next.1, List.length_append, List.length_take]
      omega

/-- While the peer's bytes arrive, ReceiveData returns all it was asked for. -/
theorem receiveData_delivers {s : TcpSocket} {front back : List UInt8}
    (arrives : s.Delivers (front ++ back)) :
    (s.receiveData front.length).1 = front ∧
      (s.receiveData front.length).2.Delivers back := by
  obtain ⟨hl, hp, hv, -⟩ := s.receiveData_spec front.length
  have full : (s.receiveData front.length).1.length = front.length ∧
      ∀ i, ∃ k, (s.receiveData front.length).2.polls i = .ready k := by
    have enough : front.length ≤ s.pending.length := by
      have := arrives.pending.length_le
      simp only [List.length_append] at this
      omega
    unfold receiveData
    rw [if_pos arrives.valid]
    by_cases stored : s.buffer ≠ [] ∧ front.length ≤ s.buffer.length
    · simp only [if_pos stored]
      exact ⟨by simpa using stored.2, arrives.polls⟩
    · simp only [if_neg stored]
      have loop := receiveLoop_full (front.length - (s.buffer.take front.length).length)
        { s with errno := .none, buffer := [] }
        (front.length - (s.buffer.take front.length).length) (s.buffer.take front.length)
        (Nat.le_refl _) arrives.polls (by
          simp only [pending, List.length_append] at enough
          simp only [List.length_take]
          omega)
      refine ⟨?_, loop.2⟩
      rw [loop.1]
      simp only [List.length_take]
      omega
  obtain ⟨rest, hrest⟩ := arrives.pending
  rw [hp, List.append_assoc] at hrest
  obtain ⟨hf, hb⟩ := List.append_inj hrest full.1.symm
  exact ⟨hf.symm, hv.trans arrives.valid, full.2, ⟨rest, hb⟩⟩

theorem receiveData_one {s : TcpSocket} {b : UInt8} {rest : List UInt8}
    (arrives : s.Delivers (b :: rest)) :
    (s.receiveData 1).1 = [b] ∧ (s.receiveData 1).2.Delivers rest ∧
      (s.receiveData 1).2.received = s.received ++ [b] := by
  have one : s.Delivers ([b] ++ rest) := arrives
  obtain ⟨hb, hd⟩ := receiveData_delivers one
  obtain ⟨-, -, -, hr, -⟩ := s.receiveData_spec 1
  change (s.receiveData 1).1 = [b] at hb
  rw [hb] at hr
  exact ⟨hb, hd, hr⟩

end TcpSocket

end CppMyth
