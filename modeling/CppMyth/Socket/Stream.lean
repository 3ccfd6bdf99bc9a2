import CppMyth.Socket
import CppMyth.Library.Transition

/-! Reads from one connection. ReceiveData and BlockingRead share the buffer of the socket, and
whatever their mix and lengths they hand out the peer's bytes as one stream. -/
namespace CppMyth

open Library

namespace TcpSocket

inductive ReadCall where
  | receiveData (n : Nat)
  | blockingRead (answer : Recv) (n : Nat)
  deriving DecidableEq, Repr

def reads : Machine TcpSocket ReadCall (List UInt8) where
  step
    | s, .receiveData n => s.receiveData n
    | s, .blockingRead answer n => s.blockingRead answer n

theorem blockingRead_spec (s : TcpSocket) (answer : Recv) (n : Nat) :
    (s.blockingRead answer n).1.length ≤ n ∧
    s.pending = (s.blockingRead answer n).1 ++ (s.blockingRead answer n).2.pending ∧
    (s.blockingRead answer n).2.valid = s.valid ∧
    (s.blockingRead answer n).2.polls = s.polls := by
  unfold blockingRead
  by_cases asked : s.valid = true ∧ 0 < n
  · rw [if_pos asked]
    by_cases stored : s.buffer ≠ []
    · rw [if_pos stored]
      refine ⟨by simp, ?_, rfl, rfl⟩
      simp only [pending]
      rw [← List.append_assoc, List.take_append_drop]
    · rw [if_neg stored]
      have empty : s.buffer = [] := not_not.mp stored
      cases answer with
      | failed code => exact ⟨Nat.zero_le n, rfl, rfl, rfl⟩
      | took k => exact ⟨by simp [recv], recv_pending s k n empty, rfl, rfl⟩
  · rw [if_neg asked]
    exact ⟨Nat.zero_le n, rfl, rfl, rfl⟩

/-- Why a ReceiveData from `s` that ended in `t` gave less than it was asked for. -/
inductive CutShort (s t : TcpSocket) : Prop
  | timedOut (i : Nat) (poll : s.polls i = .timeout) (errno : t.errno = .ETIMEDOUT)
  | failed (i code : Nat) (poll : s.polls i = .failed code ∨ s.polls i = .broken code)
      (errno : t.errno = .last code)
  | hungUp (i : Nat) (poll : s.polls i = .hangup) (errno : t.errno = .ENOTCONN)
  | ended (i k : Nat) (poll : s.polls i = .ready k) (all : t.pending = [])

theorem CutShort.shift {s s' t t' : TcpSocket} (j : Nat) (short : CutShort s' t')
    (polls : s'.polls = fun i => s.polls (i + j)) (errno : t.errno = t'.errno)
    (pending : t.pending = t'.pending) : CutShort s t := by
  cases short with
  | timedOut i poll timed => exact .timedOut (i + j) (by rw [← poll, polls]) (errno.trans timed)
  | failed i code poll failed =>
    exact .failed (i + j) code (by rw [polls] at poll; exact poll) (errno.trans failed)
  | hungUp i poll gone => exact .hungUp (i + j) (by rw [← poll, polls]) (errno.trans gone)
  | ended i k poll all => exact .ended (i + j) k (by rw [← poll, polls]) (pending.trans all)

theorem recv_empty {s : TcpSocket} {k size : Nat} (positive : 0 < size)
    (empty : (s.recv k size).1 = []) : s.stream = [] := by
  cases h : s.stream with
  | nil => rfl
  | cons b rest =>
    have some : 0 < ((s.recv k size).1).length := by
      simp only [recv, h, List.length_take, List.length_cons]
      omega
    rw [empty] at some
    exact absurd some (Nat.lt_irrefl 0)

theorem receiveLoop_short (fuel : Nat) (s : TcpSocket) (n : Nat) (got : List UInt8)
    (enough : n ≤ fuel) (empty : s.buffer = [] ∨ n = 0) (answers : ∀ i, s.polls i ≠ .nothing)
    (short : (receiveLoop fuel s n got).1.length < got.length + n) :
    CutShort s (receiveLoop fuel s n got).2 := by
  induction fuel generalizing s n got with
  | zero =>
    obtain rfl : n = 0 := by omega
    exact absurd short (Nat.lt_irrefl _)
  | succ fuel ih =>
    by_cases done : n = 0
    · subst done
      rw [receiveLoop_zero] at short
      exact absurd short (Nat.lt_irrefl _)
    · have empty := empty.resolve_right done
      unfold receiveLoop at short ⊢
      rw [if_neg done] at short ⊢
      cases first : s.polls 0 with
      | timeout => exact .timedOut 0 first rfl
      | failed code => exact .failed 0 code (.inl first) rfl
      | hangup => exact .hungUp 0 first rfl
      | nothing => exact absurd first (answers 0)
      | broken code => exact .failed 0 code (.inr first) rfl
      | ready k =>
        simp only [first] at short ⊢
        generalize hsize : (if n < socketBufferSize then socketBufferSize else n) = size
          at short ⊢
        have positive : 0 < size := by
          rw [← hsize, socketBufferSize]
          split <;> omega
        by_cases eof : (s.polled.recv k size).1 = []
        · rw [if_pos eof]
          have done : s.stream = [] := recv_empty positive eof
          exact .ended 0 k first (by simp [pending, recv, polled, empty, done])
        · rw [if_neg eof] at short ⊢
          have some := List.length_pos_iff.mpr eof
          have next := ih { (s.polled.recv k size).2 with
              buffer := (s.polled.recv k size).1.drop n } (n - (s.polled.recv k size).1.length)
            (got ++ (s.polled.recv k size).1.take n) (by omega)
            (by
              rcases Nat.le_total n (s.polled.recv k size).1.length with h | h
              · exact .inr (by omega)
              · exact .inl (List.drop_eq_nil_of_le h))
            (fun i => answers (i + 1))
            (by
              simp only [List.length_append, List.length_take] at short ⊢
              omega)
          exact next.shift 1 rfl rfl rfl

theorem receiveData_short {s : TcpSocket} {n : Nat} (valid : s.valid = true)
    (answers : ∀ i, s.polls i ≠ .nothing) (short : (s.receiveData n).1.length < n) :
    CutShort s (s.receiveData n).2 := by
  unfold receiveData at short ⊢
  rw [if_pos valid] at short ⊢
  by_cases stored : s.buffer ≠ [] ∧ n ≤ s.buffer.length
  · simp only [if_pos stored, List.length_take] at short
    omega
  · simp only [if_neg stored] at short ⊢
    have loop := receiveLoop_short (n - (s.buffer.take n).length)
      { s with errno := .none, buffer := [] } (n - (s.buffer.take n).length) (s.buffer.take n)
      (Nat.le_refl _) (.inl rfl) answers (by
        simp only [List.length_take] at short ⊢
        omega)
    exact loop.shift 0 rfl rfl rfl

theorem receiveLoop_polls {P : Poll → Prop} (fuel : Nat) (s : TcpSocket) (n : Nat)
    (got : List UInt8) (all : ∀ i, P (s.polls i)) :
    ∀ i, P ((receiveLoop fuel s n got).2.polls i) := by
  induction fuel generalizing s n got with
  | zero => exact all
  | succ fuel ih =>
    unfold receiveLoop
    split
    · exact all
    · have next : ∀ i, P (s.polled.polls i) := fun i => all (i + 1)
      cases s.polls 0 with
      | ready k =>
        simp only
        generalize (if n < socketBufferSize then socketBufferSize else n) = size
        by_cases eof : (s.polled.recv k size).1 = []
        · rw [if_pos eof]
          exact next
        · rw [if_neg eof]
          exact ih _ _ _ next
      | _ => exact next

theorem receiveData_polls {P : Poll → Prop} (s : TcpSocket) (n : Nat)
    (all : ∀ i, P (s.polls i)) : ∀ i, P ((s.receiveData n).2.polls i) := by
  by_cases valid : s.valid = true
  · rw [receiveData, if_pos valid]
    by_cases stored : s.buffer ≠ [] ∧ n ≤ s.buffer.length
    · simp only [if_pos stored]
      exact all
    · simp only [if_neg stored]
      exact receiveLoop_polls _ _ _ _ all
  · rw [receiveData, if_neg valid]
    exact all

theorem reads_pending (s : TcpSocket) (call : ReadCall) :
    s.pending = (reads.step s call).1 ++ (reads.step s call).2.pending := by
  cases call with
  | receiveData n => exact (s.receiveData_spec n).2.1
  | blockingRead answer n => exact (s.blockingRead_spec answer n).2.1

theorem reads_answers {s : TcpSocket} (call : ReadCall)
    (inv : s.valid = true ∧ ∀ i, s.polls i ≠ .nothing) :
    (reads.step s call).2.valid = true ∧ ∀ i, (reads.step s call).2.polls i ≠ .nothing := by
  cases call with
  | receiveData n =>
    have valid := (s.receiveData_spec n).2.2.1
    exact ⟨valid.trans inv.1, receiveData_polls (P := fun p => p ≠ .nothing) s n inv.2⟩
  | blockingRead answer n =>
    obtain ⟨-, -, hv, hp⟩ := s.blockingRead_spec answer n
    refine ⟨hv.trans inv.1, ?_⟩
    intro i
    change (s.blockingRead answer n).2.polls i ≠ .nothing
    rw [hp]
    exact inv.2 i

/-- A poll that returns without the time out reports input, or that the connection is gone. -/
theorem reads_follow_stream (stream : List UInt8) (polls : Nat → Poll) (sends : Nat → Bool)
    (answers : ∀ i, polls i ≠ .nothing) (calls : List ReadCall) :
    stream = (reads.observations (connected stream polls sends) calls).flatten ++
        (reads.final (connected stream polls sends) calls).pending ∧
    ∀ front n back, calls = front ++ .receiveData n :: back →
      let s := reads.final (connected stream polls sends) front
      (s.receiveData n).1.length ≤ n ∧
        ((s.receiveData n).1.length < n → CutShort s (s.receiveData n).2) := by
  constructor
  · exact reads.observed_front reads_pending (connected stream polls sends) calls
  · intro front n back _ s
    have inv := reads.final_invariant (fun t call => reads_answers (s := t) call)
      (s := connected stream polls sends) ⟨rfl, answers⟩ front
    exact ⟨(s.receiveData_spec n).1, receiveData_short inv.1 inv.2⟩

theorem reads_follow_stream_split :
    let s := connected [1, 2, 3, 4] (fun i => if i < 2 then .ready 2 else .timeout) fun _ => true
    let calls : List ReadCall := [.receiveData 1, .blockingRead (.took 0) 9, .receiveData 5]
    reads.observations s calls = [[1], [2, 3], [4]] ∧
      [1, 2, 3, 4] = (reads.observations s calls).flatten ++ (reads.final s calls).pending ∧
      CutShort (reads.final s (calls.take 2)) (reads.final s calls) := by
  have run := reads_follow_stream [1, 2, 3, 4] (fun i => if i < 2 then .ready 2 else .timeout)
    (fun _ => true) (fun i => by split <;> simp)
    [.receiveData 1, .blockingRead (.took 0) 9, .receiveData 5]
  have last := run.2 [.receiveData 1, .blockingRead (.took 0) 9] 5 [] rfl
  exact ⟨by decide, run.1, last.2 (by decide)⟩

end TcpSocket

end CppMyth
