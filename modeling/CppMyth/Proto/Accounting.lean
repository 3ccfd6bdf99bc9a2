import CppMyth.Proto.Playback

/-! The accounting of a transfer over whole runs. What is requested and not read yet is on the
transfer socket, byte for byte, unless an answer is dropped or a flush is short. -/
namespace CppMyth.Playback
open Library

/-- The bytes that the backend agreed to send in an answer that is not read. -/
def owed (w : Playback) : Nat :=
  match w.backend.response with
  | some rlen => rlen.toNat
  | none => 0

/-- The bytes that the client's counters say are still to come. Inside a call an answer that
is not read yet is not counted in `fileRequest`. -/
def due (w : Playback) : Int :=
  match w.call with
  | none => w.transfer.fileRequest - w.transfer.filePosition
  | some _ => w.transfer.fileRequest + w.owed - w.transfer.filePosition

/-- What is seen of each event: a call that returns, the bytes due and the bytes that the
backend sent and the client has not taken. -/
structure Observed where
  outcome : Option Outcome
  due : Int
  untaken : Nat

def machine (file : Int → UInt8) : Machine Playback PlaybackEvent Observed where
  step w e :=
    let after := w.event file e
    (⟨after.1, after.2.due, after.2.backend.stream.length⟩, after.2)

/-- The counters are right, and a call returns the bytes of the file from the position that the
last call before it reported. A seek that succeeds reports its result. -/
def accept (file : Int → UInt8) (position : Int) (seen : Observed) : Option Int :=
  if seen.due = seen.untaken then
    match seen.outcome with
    | none => some position
    | some (.block bytes after) =>
      if bytes = segment file position bytes.length ∧ after = position + bytes.length then
        some after
      else none
    | some (.blockFailed after) => some after
    | some (.sought result after) => if result < 0 ∨ after = result then some after else none
  else none

/-- No agreed byte is lost: an answer that fails to arrive, one that the error exit drops and
one that comes when nobody reads it agree to nothing, and Flush receives all it asks for. -/
def Lossless (w : Playback) : PlaybackEvent → Prop
  | .serve rlen =>
    ∀ n, w.backend.asked = some n → rlen ≤ n → rlen ≤ 0 ∨ w.controlSocket = true
  | .poll (.ready _ (.readable arrives)) =>
    ∀ b, w.call = some b → b.ok = true → b.request = true → arrives = true ∨ w.owed = 0
  | .recover _ _ => ∀ b, w.call = some b → b.ok = false → b.request = true → w.owed = 0
  | .seek offset whence (.answered _ received) =>
    w.call = none → w.transfer.seekCheck offset whence = none → w.transfer.isOpen = true →
      w.controlSocket = true → w.transfer.unread ≤ received
  | _ => True

structure Quiet (w : Playback) : Prop where
  response : w.backend.response = none
  asked : w.controlSocket = true → w.backend.asked = none

/-- The bytes on the transfer socket are the next ones of the file, as many as are due, and the
backend stands behind them. -/
structure Accounted (file : Int → UInt8) (w : Playback) : Prop where
  stream : w.backend.stream = segment file w.transfer.filePosition w.backend.stream.length
  untaken : w.transfer.fileRequest + w.owed - w.transfer.filePosition = w.backend.stream.length
  backend : w.controlSocket = true → w.backend.position = w.transfer.fileRequest + w.owed
  single : w.backend.asked ≠ none → w.backend.response = none

/-- What a call that has not returned knows, when the caller's position is `position`. -/
structure InBlock (file : Int → UInt8) (position : Int) (w : Playback) (b : Block) : Prop where
  filePosition : b.filePosition = w.transfer.filePosition
  fileRequest : b.fileRequest = w.transfer.fileRequest
  buffer : b.buffer = segment file position b.buffer.length
  read : b.filePosition = position + b.buffer.length
  quiet : b.request = false → w.Quiet

/-- The state of a run in which the last call reported `position`. -/
def Related (file : Int → UInt8) (w : Playback) (position : Int) : Prop :=
  Accounted file w ∧
    match w.call with
    | none => w.Quiet ∧ position = w.transfer.filePosition
    | some b => InBlock file position w b

theorem Quiet.owed_eq {w : Playback} (quiet : w.Quiet) : w.owed = 0 := by
  simp [owed, quiet.response]

theorem Related.due_eq {file : Int → UInt8} {w : Playback} {position : Int}
    (related : Related file w position) : w.due = w.backend.stream.length := by
  obtain ⟨accounted, phase⟩ := related
  have untaken := accounted.untaken
  unfold due
  cases called : w.call with
  | some b => exact untaken
  | none =>
    simp only [called] at phase ⊢
    have owed := phase.1.owed_eq
    omega

theorem Accounted.settled {file : Int → UInt8} {w w' : Playback} (accounted : Accounted file w)
    (filePosition : w'.transfer.filePosition = w.transfer.filePosition)
    (fileRequest : w'.transfer.fileRequest = w.transfer.fileRequest + w.owed)
    (stream : w'.backend.stream = w.backend.stream)
    (backend : w'.backend.position = w.backend.position)
    (response : w'.backend.response = none)
    (control : w'.controlSocket = true → w.controlSocket = true) : Accounted file w' := by
  have owed : w'.owed = 0 := by simp [Playback.owed, response]
  have untaken := accounted.untaken
  refine ⟨?_, ?_, fun h => ?_, fun _ => response⟩
  · rw [stream, filePosition]
    exact accounted.stream
  · rw [owed, fileRequest, filePosition, stream]
    omega
  · rw [backend, accounted.backend (control h), fileRequest, owed]
    omega

theorem hangException_quiet {w : Playback} : w.hangException.Quiet :=
  ⟨rfl, fun h => by simp [hangException] at h⟩

theorem hangException_accounted {file : Int → UInt8} {w : Playback} (accounted : Accounted file w)
    (owed : w.owed = 0) (position : Int) :
    Accounted file (hangException { w with backend.position := position }) where
  stream := accounted.stream
  untaken := by
    have untaken := accounted.untaken
    rw [owed] at untaken
    exact untaken
  backend h := by simp [hangException] at h
  single _ := rfl

theorem InBlock.of_flags {file : Int → UInt8} {position : Int} {w : Playback} {b b' : Block}
    (inside : InBlock file position w b) (filePosition : b'.filePosition = b.filePosition)
    (fileRequest : b'.fileRequest = b.fileRequest) (buffer : b'.buffer = b.buffer)
    (request : b'.request = b.request) : InBlock file position w b' := by
  refine ⟨filePosition.trans inside.filePosition, fileRequest.trans inside.fileRequest, ?_, ?_, ?_⟩
  · rw [buffer]
    exact inside.buffer
  · rw [filePosition, buffer]
    exact inside.read
  · rw [request]
    exact inside.quiet

def take (w : Playback) (b : Block) (taken : List UInt8) : Playback :=
  { w with
    transfer.filePosition := b.filePosition + taken.length
    backend.stream := w.backend.stream.drop taken.length }

theorem take_accounted {file : Int → UInt8} {position : Int} {w : Playback} {b : Block}
    (accounted : Accounted file w) (inside : InBlock file position w b) {taken : List UInt8}
    (front : taken <+: w.backend.stream) :
    Accounted file (w.take b taken) ∧ ∀ b' : Block,
      b'.filePosition = b.filePosition + taken.length → b'.fileRequest = b.fileRequest →
      b'.buffer = b.buffer ++ taken → b'.request = b.request →
      InBlock file position (w.take b taken) b' := by
  have fits : taken.length ≤ w.backend.stream.length := front.length_le
  have next : taken = segment file w.transfer.filePosition taken.length := by
    have cut := List.prefix_iff_eq_take.mp front
    rw [accounted.stream, take_segment file _ fits] at cut
    exact cut
  have untaken := accounted.untaken
  have moved := inside.filePosition
  constructor
  · refine ⟨?_, ?_, accounted.backend, accounted.single⟩
    · simp only [take, List.length_drop]
      rw [moved, ← drop_segment file _ fits, ← accounted.stream]
    · simp only [take, owed, List.length_drop] at untaken ⊢
      omega
  · intro b' hp hf hb hr
    refine ⟨hp, hf.trans inside.fileRequest, ?_, ?_, fun h => ?_⟩
    · have read := inside.read
      rw [hb, List.length_append, segment_add, ← inside.buffer, ← read, moved, ← next]
    · rw [hp, hb, inside.read, List.length_append, Nat.cast_add, Int.add_assoc]
    · have quiet := inside.quiet (hr ▸ h)
      exact ⟨quiet.response, quiet.asked⟩

theorem checkData_accounted {file : Int → UInt8} {position : Int} {w : Playback} {b : Block}
    (accounted : Accounted file w) (inside : InBlock file position w b) (data : DataEvent) :
    Accounted file (w.checkData b data).1 ∧
      InBlock file position (w.checkData b data).1 (w.checkData b data).2 ∧
      (w.checkData b data).2.request = b.request ∧
      (w.checkData b data).1.backend.response = w.backend.response := by
  cases data with
  | none => exact ⟨accounted, inside, rfl, rfl⟩
  | broken => exact ⟨accounted, inside.of_flags rfl rfl rfl rfl, rfl, rfl⟩
  | failed =>
    simp only [checkData]
    split
    · exact ⟨accounted, inside.of_flags rfl rfl rfl rfl, rfl, rfl⟩
    · exact ⟨accounted, inside, rfl, rfl⟩
  | bytes k =>
    simp only [checkData]
    generalize htaken : w.backend.stream.take
      (if b.polled then min k (b.n - b.buffer.length) else 0) = taken
    have front : taken <+: w.backend.stream := htaken ▸ List.take_prefix _ _
    obtain ⟨after, block⟩ := take_accounted accounted inside front
    by_cases empty : taken = []
    · rw [if_pos empty]
      exact ⟨accounted, inside, rfl, rfl⟩
    · rw [if_neg empty]
      split
      · exact ⟨after, block _ rfl rfl rfl rfl, rfl, rfl⟩
      · exact ⟨after, block _ rfl rfl rfl rfl, rfl, rfl⟩

theorem feedback_cases (w : Playback) (arrives : Bool) :
    (∃ rlen, w.backend.response = some rlen ∧ w.transferRequestBlockFeedback75 arrives =
      (if rlen < 0 then -1 else rlen, { w with backend.response := none })) ∨
    (w.transferRequestBlockFeedback75 arrives = (-1, w.hangException) ∧
      (arrives = true → w.owed = 0)) := by
  cases answer : w.backend.response with
  | none =>
    refine .inr ⟨?_, fun _ => by simp [owed, answer]⟩
    cases arrives <;> simp [transferRequestBlockFeedback75, answer]
  | some rlen =>
    cases arrives with
    | true => exact .inl ⟨rlen, rfl, by simp [transferRequestBlockFeedback75, answer]⟩
    | false => exact .inr ⟨by simp [transferRequestBlockFeedback75], by simp⟩

theorem feedback_accounted {file : Int → UInt8} {w : Playback} (accounted : Accounted file w)
    (arrives : Bool) (lossless : arrives = true ∨ w.owed = 0) :
    ∃ rlen w', w.transferRequestBlockFeedback75 arrives = (rlen, w') ∧ w'.Quiet ∧
      w'.transfer = w.transfer ∧ (rlen ≤ 0 → Accounted file w') ∧
      (0 ≤ rlen → ∀ w'' : Playback, w''.backend = w'.backend →
        w''.controlSocket = w'.controlSocket →
        w''.transfer = { w.transfer with fileRequest := w.transfer.fileRequest + rlen } →
        Accounted file w'') := by
  rcases feedback_cases w arrives with ⟨rlen, answer, result⟩ | ⟨result, nothing⟩
  · have served : w.backend.asked = none := by
      by_contra pending
      exact absurd (accounted.single pending) (by simp [answer])
    have owed : w.owed = rlen.toNat := by simp [owed, answer]
    refine ⟨_, _, result, ⟨rfl, fun _ => served⟩, rfl, fun refused => ?_,
      fun agreed w'' hb hc ht => ?_⟩
    · refine accounted.settled rfl ?_ rfl rfl rfl id
      have empty : rlen.toNat = 0 := by split at refused <;> omega
      rw [owed, empty]
      exact (Int.add_zero _).symm
    · have positive : ¬ rlen < 0 := by
        intro negative
        rw [if_pos negative] at agreed
        omega
      rw [if_neg positive] at ht
      refine accounted.settled ?_ ?_ ?_ ?_ ?_ (fun h => hc ▸ h)
      · rw [ht]
      · rw [ht, owed]
        simp only
        omega
      all_goals rw [hb]
  · have owed : w.owed = 0 := lossless.elim nothing id
    exact ⟨_, _, result, hangException_quiet, rfl,
      fun _ => hangException_accounted accounted owed w.backend.position, fun agreed => by omega⟩

theorem checkResponse_accounted {file : Int → UInt8} {position : Int} {w : Playback} {b : Block}
    (accounted : Accounted file w) (inside : InBlock file position w b) (control : ControlEvent)
    (lossless : ∀ arrives, control = .readable arrives → b.request = true →
      arrives = true ∨ w.owed = 0) :
    Accounted file (w.checkResponse b control).2.1 ∧
      InBlock file position (w.checkResponse b control).2.1 (w.checkResponse b control).2.2 ∧
      ((w.checkResponse b control).1 = true → (w.checkResponse b control).2.2.request = false) := by
  cases control with
  | none => exact ⟨accounted, inside, by simp [checkResponse]⟩
  | broken =>
    simp only [checkResponse]
    refine ⟨accounted, ?_, by simp⟩
    split
    · exact inside.of_flags rfl rfl rfl rfl
    · exact inside
  | readable arrives =>
    simp only [checkResponse]
    by_cases request : b.request = true
    · obtain ⟨rlen, w', result, quiet, transfer, refused, agreed⟩ :=
        feedback_accounted accounted arrives (lossless arrives rfl request)
      have left (ok : Bool) : InBlock file position { w' with latch := w'.latch - 1 }
          { b with request := false, ok } :=
        ⟨by simp [transfer, inside.filePosition], by simp [transfer, inside.fileRequest],
          inside.buffer, inside.read, fun _ => ⟨quiet.response, quiet.asked⟩⟩
      have kept : Accounted file w' → Accounted file { w' with latch := w'.latch - 1 } :=
        fun h => ⟨h.stream, h.untaken, h.backend, h.single⟩
      simp only [request, not_true_eq_false, if_false, result]
      by_cases negative : rlen < 0
      · rw [if_pos negative]
        exact ⟨kept (refused (by omega)), left false, by simp⟩
      · rw [if_neg negative]
        by_cases ended : rlen = 0 ∧ ¬ b.data
        · rw [if_pos ended]
          exact ⟨kept (refused (by omega)), left b.ok, by simp⟩
        · rw [if_neg ended]
          refine ⟨agreed (by omega) _ rfl rfl ?_, ?_, by simp⟩
          · simp only [transfer, inside.fileRequest]
          · exact ⟨by simp [transfer, inside.filePosition], rfl, inside.buffer, inside.read,
              fun _ => ⟨quiet.response, quiet.asked⟩⟩
    · rw [if_pos request]
      exact ⟨accounted, inside, by simp⟩

theorem Accounted.of_call {file : Int → UInt8} {w : Playback} (accounted : Accounted file w)
    (call : Option Block) : Accounted file { w with call } :=
  ⟨accounted.stream, accounted.untaken, accounted.backend, accounted.single⟩

theorem InBlock.of_call {file : Int → UInt8} {position : Int} {w : Playback} {b : Block}
    (inside : InBlock file position w b) (call : Option Block) :
    InBlock file position { w with call } b :=
  ⟨inside.filePosition, inside.fileRequest, inside.buffer, inside.read,
    fun h => ⟨(inside.quiet h).response, (inside.quiet h).asked⟩⟩

/-- A step is accepted and its state is related to the position it reports. -/
def Follows (file : Int → UInt8) (position : Int) (result : Option Outcome × Playback) : Prop :=
  ∃ after, accept file position ⟨result.1, result.2.due, result.2.backend.stream.length⟩ =
    some after ∧ Related file result.2 after

theorem Related.follows {file : Int → UInt8} {w : Playback} {position after : Int}
    {outcome : Option Outcome} (related : Related file w after)
    (fits : match outcome with
      | none => after = position
      | some (.block bytes reported) => bytes = segment file position bytes.length ∧
          reported = position + bytes.length ∧ after = reported
      | some (.blockFailed reported) => after = reported
      | some (.sought result reported) => (result < 0 ∨ reported = result) ∧ after = reported) :
    Follows file position (outcome, w) := by
  refine ⟨after, ?_, related⟩
  unfold accept
  rw [if_pos related.due_eq]
  cases outcome with
  | none => exact congrArg some fits.symm
  | some result =>
    cases result with
    | block bytes reported =>
      obtain ⟨same, moved, rfl⟩ := fits
      simp only
      rw [if_pos ⟨same, moved⟩]
    | blockFailed reported => exact congrArg some fits.symm
    | sought result reported =>
      obtain ⟨success, rfl⟩ := fits
      simp only
      rw [if_pos success]

theorem continueBlock_follows {file : Int → UInt8} {position : Int} {w : Playback} {b : Block}
    {left : Bool} (accounted : Accounted file w) (inside : InBlock file position w b)
    (served : left = true → b.request = false) :
    Follows file position (continueBlock left w b) := by
  unfold continueBlock
  by_cases again : ¬ b.ok ∨ (¬ left ∧ (b.request ∨ b.data ∨ b.buffer = []))
  · rw [if_pos again]
    have related : Related file { w with call := some b } position :=
      ⟨accounted.of_call _, inside.of_call _⟩
    exact related.follows rfl
  · rw [if_neg again]
    have request : b.request = false := by
      simp only [not_or, not_and_or, not_not] at again
      rcases again.2 with h | h
      · exact served h
      · simpa using h.1
    have quiet := inside.quiet request
    have related : Related file { w with call := none } w.transfer.filePosition :=
      ⟨accounted.of_call _, ⟨quiet.response, quiet.asked⟩, rfl⟩
    exact related.follows ⟨inside.buffer, by rw [← inside.filePosition, inside.read], rfl⟩

theorem transferRequestBlock75_accounted {file : Int → UInt8} {w : Playback}
    (accounted : Accounted file w) (quiet : w.Quiet) (n : Nat) (sent : Bool) :
    Accounted file (w.transferRequestBlock75 n sent).2 ∧
      (w.transferRequestBlock75 n sent).2.transfer = w.transfer := by
  unfold transferRequestBlock75
  by_cases closed : ¬ w.transfer.isOpen
  · rw [if_pos closed]
    exact ⟨accounted, rfl⟩
  rw [if_neg closed]
  by_cases unsent : ¬ sent
  · rw [if_pos unsent]
    exact ⟨hangException_accounted accounted quiet.owed_eq w.backend.position, rfl⟩
  · rw [if_neg unsent]
    exact ⟨⟨accounted.stream, accounted.untaken, accounted.backend, fun _ => quiet.response⟩, rfl⟩

theorem startBlock_follows {file : Int → UInt8} {w : Playback} (accounted : Accounted file w)
    (quiet : w.Quiet) (idle : w.call = none) (n : Nat) (sent : Bool) :
    Follows file w.transfer.filePosition (w.startBlock n sent) := by
  have same : Related file w w.transfer.filePosition := by
    refine ⟨accounted, ?_⟩
    rw [idle]
    exact ⟨quiet, rfl⟩
  unfold startBlock
  by_cases empty : n = 0
  · rw [if_pos empty]
    exact same.follows (by simp)
  rw [if_neg empty]
  by_cases invalid : ¬ w.transferSocket ∨ ¬ w.controlSocket
  · rw [if_pos invalid]
    exact same.follows rfl
  rw [if_neg invalid]
  generalize (if n > transferRcvBuf then transferRcvBuf else n) = size
  simp only
  split
  · -- the request is sent, or the error exit follows
    have held : Accounted file { w with latch := w.latch + 1 } :=
      ⟨accounted.stream, accounted.untaken, accounted.backend, accounted.single⟩
    obtain ⟨asked, transfer⟩ := transferRequestBlock75_accounted held
      ⟨quiet.response, quiet.asked⟩ size sent
    refine Related.follows ⟨asked.of_call _, ?_⟩ rfl
    exact ⟨by simp [transfer], by simp [transfer], rfl, by simp, by simp⟩
  · refine Related.follows ⟨accounted.of_call _, ?_⟩ rfl
    exact ⟨rfl, rfl, rfl, by simp, fun _ => ⟨quiet.response, quiet.asked⟩⟩

theorem pollStep_follows {file : Int → UInt8} {position : Int} {w : Playback} {b : Block}
    (accounted : Accounted file w) (inside : InBlock file position w b) (p : PollResult)
    (lossless : ∀ data arrives, p = .ready data (.readable arrives) → b.request = true →
      arrives = true ∨ w.owed = 0) :
    Follows file position
      (continueBlock (w.pollStep b p).1 (w.pollStep b p).2.1 (w.pollStep b p).2.2) := by
  cases p with
  | error =>
    exact continueBlock_follows accounted (inside.of_flags rfl rfl rfl rfl) (by simp [pollStep])
  | timeout =>
    simp only [pollStep]
    split
    · exact continueBlock_follows accounted (inside.of_flags rfl rfl rfl rfl) (by simp)
    · exact continueBlock_follows accounted (inside.of_flags rfl rfl rfl rfl) (by simp)
  | ready data control =>
    have cleared : InBlock file position w { b with data := false } :=
      inside.of_flags rfl rfl rfl rfl
    obtain ⟨taken, reading, request, response⟩ := checkData_accounted accounted cleared data
    have owed : (w.checkData { b with data := false } data).1.owed = w.owed := by
      simp only [Playback.owed, response]
    obtain ⟨answered, read, left⟩ := checkResponse_accounted taken reading control
      (fun arrives same requested => by
        rw [owed]
        exact lossless data arrives (by rw [same]) (request ▸ requested))
    exact continueBlock_follows answered read left

theorem seekCheck_result {t : ProtoTransfer} {offset result : Int} {whence : Whence}
    (check : t.seekCheck offset whence = some result) : result < 0 ∨ t.filePosition = result := by
  cases whence <;> simp only [ProtoTransfer.seekCheck] at check <;> split_ifs at check <;>
    cases check
  all_goals first | exact .inr rfl | exact .inl (by decide)

theorem transferSeek_accounted {file : Int → UInt8} {w : Playback} (accounted : Accounted file w)
    (quiet : w.Quiet) (offset : Int) (whence : Whence) (answer : SeekAnswer)
    (lossless : ∀ position received, answer = .answered position received →
      w.transfer.seekCheck offset whence = none → w.transfer.isOpen = true →
      w.controlSocket = true → w.transfer.unread ≤ received) :
    Accounted file (w.transferSeek offset whence answer).2 ∧
      (w.transferSeek offset whence answer).2.Quiet ∧
      (w.transferSeek offset whence answer).2.call = w.call ∧
      ((w.transferSeek offset whence answer).1 < 0 ∨
        (w.transferSeek offset whence answer).2.transfer.filePosition =
          (w.transferSeek offset whence answer).1) := by
  have failed (position : Int) :
      Accounted file (hangException { w with backend.position := position }) ∧
      (hangException { w with backend.position := position }).Quiet ∧ w.call = w.call ∧
      ((-1 : Int) < 0 ∨ w.transfer.filePosition = -1) :=
    ⟨hangException_accounted accounted quiet.owed_eq position, hangException_quiet, rfl,
      .inl (by decide)⟩
  unfold transferSeek
  cases check : w.transfer.seekCheck offset whence with
  | some result => exact ⟨accounted, quiet, rfl, seekCheck_result check⟩
  | none =>
    by_cases closed : ¬ w.transfer.isOpen
    · simp only [if_pos closed]
      exact ⟨accounted, quiet, trivial, .inl (by decide)⟩
    by_cases hung : ¬ w.controlSocket
    · simp only [if_neg closed, if_pos hung]
      exact failed w.backend.position
    simp only [if_neg closed, if_neg hung]
    cases answer with
    | unsent => exact failed w.backend.position
    | lost position => exact failed position
    | answered position received =>
      have room := lossless position received rfl check (by simpa using closed)
        (by simpa using hung)
      have untaken := accounted.untaken
      have emptied : w.backend.stream.drop (min received w.transfer.unread) = [] := by
        rw [quiet.owed_eq] at untaken
        apply List.drop_eq_nil_of_le
        unfold ProtoTransfer.unread at room ⊢
        omega
      refine ⟨⟨?_, ?_, fun _ => ?_, fun _ => quiet.response⟩,
        ⟨quiet.response, quiet.asked⟩, rfl, .inr rfl⟩
      · simp only [emptied, List.length_nil, segment_zero]
      · simp [emptied, ProtoTransfer.reset, owed, quiet.response]
      · simp [ProtoTransfer.reset, owed, quiet.response]

theorem dropResponse_kept (w : Playback) (b : Block) (arrives : Bool) :
    (w.dropResponse b arrives).transfer = w.transfer ∧
      (w.dropResponse b arrives).backend.stream = w.backend.stream := by
  unfold dropResponse
  by_cases request : b.request
  · rw [if_pos request]
    split <;> exact ⟨rfl, rfl⟩
  · rw [if_neg request]
    exact ⟨rfl, rfl⟩

/-- A response that is dropped must not have agreed to anything. -/
theorem dropResponse_accounted {file : Int → UInt8} {position : Int} {w : Playback} {b : Block}
    (accounted : Accounted file w) (inside : InBlock file position w b)
    (lossless : b.request = true → w.owed = 0) (arrives : Bool) :
    Accounted file (w.dropResponse b arrives) ∧ (w.dropResponse b arrives).Quiet := by
  unfold dropResponse
  by_cases request : b.request
  · have owed := lossless request
    have counted : w.transfer.fileRequest = w.transfer.fileRequest + w.owed := by omega
    rw [if_pos request]
    split
    · rename_i rlen answer
      have served : w.backend.asked = none := by
        by_contra pending
        exact absurd (accounted.single pending) (by simp [answer])
      exact ⟨accounted.settled rfl counted rfl rfl rfl id, ⟨rfl, fun _ => served⟩⟩
    · exact ⟨accounted.settled rfl counted rfl rfl rfl (fun h => by simp [hangException] at h),
        ⟨rfl, fun h => by simp [hangException] at h⟩⟩
  · rw [if_neg request]
    exact ⟨accounted, inside.quiet (by simpa using request)⟩

/-- The error exit seeks to where the transfer already stands, so it moves nothing. -/
theorem recover_seek {file : Int → UInt8} {position : Int} {w : Playback} {b : Block}
    (inside : InBlock file position w b) (arrives : Bool) (answer : SeekAnswer) :
    (w.dropResponse b arrives).transferSeek b.filePosition .SET answer =
      (b.filePosition, w.dropResponse b arrives) := by
  have stays : (w.dropResponse b arrives).transfer = w.transfer := (dropResponse_kept w b arrives).1
  simp [transferSeek, ProtoTransfer.seekCheck, stays, inside.filePosition]

theorem recover_follows {file : Int → UInt8} {position : Int} {w : Playback} {b : Block}
    (accounted : Accounted file w) (inside : InBlock file position w b)
    (lossless : b.request = true → w.owed = 0) (arrives : Bool) (answer : SeekAnswer) :
    Follows file position (w.recover b arrives answer) := by
  obtain ⟨after, quiet⟩ := dropResponse_accounted accounted inside lossless arrives
  have transfer := (dropResponse_kept w b arrives).1
  simp only [recover, recover_seek inside arrives answer]
  by_cases negative : b.filePosition < 0
  · rw [if_pos negative]
    refine Related.follows ⟨(hangException_accounted after quiet.owed_eq
      (w.dropResponse b arrives).backend.position).of_call none, ?_⟩ rfl
    exact ⟨⟨rfl, hangException_quiet.asked⟩, rfl⟩
  · rw [if_neg negative]
    refine Related.follows ⟨after.of_call none, ?_⟩ rfl
    exact ⟨⟨quiet.response, quiet.asked⟩, rfl⟩

theorem agree_owed {file : Int → UInt8} {w : Playback} {rlen : Int}
    (read : rlen.toNat = 0 ∨ w.controlSocket = true) : (w.agree file rlen).owed = rlen.toNat := by
  unfold owed agree
  by_cases control : w.controlSocket
  · simp [control]
  · simp [control, read.resolve_right control]

theorem agree_accounted {file : Int → UInt8} {w : Playback} {rlen : Int}
    (accounted : Accounted file w) (pending : w.backend.response = none)
    (read : rlen.toNat = 0 ∨ w.controlSocket = true) : Accounted file (w.agree file rlen) := by
  have owed : w.owed = 0 := by simp [Playback.owed, pending]
  have untaken := accounted.untaken
  have behind := accounted.backend
  rw [owed] at untaken behind
  have next : w.backend.stream ++ segment file w.backend.position rlen.toNat =
      segment file w.transfer.filePosition (w.backend.stream.length + rlen.toNat) := by
    rcases read with nothing | control
    · rw [nothing, segment_zero, List.append_nil, Nat.add_zero, ← accounted.stream]
    · have follows : w.backend.position =
          w.transfer.filePosition + w.backend.stream.length := by
        have position := behind control
        omega
      rw [segment_add, ← accounted.stream, follows]
  refine ⟨?_, ?_, fun control => ?_, fun asked => absurd rfl asked⟩
  · simp only [agree, List.length_append, length_segment]
    exact next
  · rw [agree_owed read]
    simp only [agree, List.length_append, length_segment]
    omega
  · have position := behind control
    rw [agree_owed read]
    simp only [agree]
    omega

theorem serve_related {file : Int → UInt8} {position : Int} {w : Playback}
    (related : Related file w position) (rlen : Int)
    (lossless : ∀ n, w.backend.asked = some n → rlen ≤ n → rlen ≤ 0 ∨ w.controlSocket = true) :
    Related file (w.serve file rlen) position := by
  obtain ⟨accounted, phase⟩ := related
  unfold serve
  cases asked : w.backend.asked with
  | none => exact ⟨accounted, phase⟩
  | some n =>
    simp only
    split
    · rename_i within
      have read : rlen.toNat = 0 ∨ w.controlSocket = true :=
        (lossless n asked within).imp Int.toNat_of_nonpos id
      refine ⟨agree_accounted accounted (accounted.single (by simp [asked])) read, ?_⟩
      -- on an open connection somebody reads the answer
      have closed (quiet : w.Quiet) : (w.agree file rlen).Quiet := by
        have hung : ¬ w.controlSocket = true := fun control => by
          have served := quiet.asked control
          simp [asked] at served
        exact ⟨by simp [agree, hung], fun _ => rfl⟩
      have same : (w.agree file rlen).call = w.call := rfl
      rw [same]
      cases called : w.call with
      | none =>
        rw [called] at phase
        exact ⟨closed phase.1, phase.2⟩
      | some b =>
        rw [called] at phase
        exact ⟨phase.filePosition, phase.fileRequest, phase.buffer, phase.read,
          fun request => closed (phase.quiet request)⟩
    · exact ⟨accounted, phase⟩

theorem event_follows {file : Int → UInt8} {position : Int} {w : Playback}
    (related : Related file w position) (e : PlaybackEvent) (lossless : w.Lossless e) :
    Follows file position (w.event file e) := by
  obtain ⟨accounted, phase⟩ := related
  cases e with
  | serve rlen => exact (serve_related ⟨accounted, phase⟩ rlen lossless).follows rfl
  | requestBlock n sent =>
    simp only [event]
    cases called : w.call with
    | none =>
      rw [called] at phase
      rw [phase.2]
      exact startBlock_follows accounted phase.1 called n sent
    | some b => exact Related.follows ⟨accounted, phase⟩ rfl
  | seek offset whence answer =>
    simp only [event]
    cases called : w.call with
    | none =>
      rw [called] at phase
      obtain ⟨after, quiet, call, reported⟩ := transferSeek_accounted accounted phase.1 offset
        whence answer (fun position received same => by
          subst same
          exact lossless called)
      refine Related.follows ⟨after, ?_⟩ ⟨reported, rfl⟩
      rw [call, called]
      exact ⟨quiet, rfl⟩
    | some b => exact Related.follows ⟨accounted, phase⟩ rfl
  | poll p =>
    simp only [event]
    cases called : w.call with
    | none => exact Related.follows ⟨accounted, phase⟩ rfl
    | some b =>
      simp only
      split
      · rename_i ok
        rw [called] at phase
        exact pollStep_follows accounted phase p fun data arrives same request => by
          subst same
          exact lossless b called ok request
      · exact Related.follows ⟨accounted, phase⟩ rfl
  | recover arrives answer =>
    simp only [event]
    cases called : w.call with
    | none => exact Related.follows ⟨accounted, phase⟩ rfl
    | some b =>
      simp only
      split
      · exact Related.follows ⟨accounted, phase⟩ rfl
      · rename_i failed
        rw [called] at phase
        exact recover_follows accounted phase
          (fun request => lossless b called (by simpa using failed) request) arrives answer

theorem accept_none {file : Int → UInt8} {position due : Int} {untaken : Nat}
    {outcome : Option Outcome} (wrong : due ≠ untaken) :
    accept file position ⟨outcome, due, untaken⟩ = none := by
  unfold accept
  rw [if_neg wrong]

theorem agree_lossy {file : Int → UInt8} {position : Int} {w : Playback} {rlen : Int}
    (related : Related file w position) (pending : w.backend.response = none)
    (closed : w.controlSocket = false) (some_bytes : 0 < rlen) :
    (w.agree file rlen).due ≠ (w.agree file rlen).backend.stream.length := by
  have before := related.due_eq
  have same : (w.agree file rlen).due = w.due := by
    unfold due owed
    simp [agree, closed, pending]
  rw [same, before]
  simp only [agree, List.length_append, length_segment]
  omega

theorem checkResponse_lost {w : Playback} {b : Block} (request : b.request = true) :
    w.checkResponse b (.readable false) = (false, { w.hangException with latch := w.latch - 1 },
      { b with request := false, ok := false }) := by
  simp [checkResponse, request, transferRequestBlockFeedback75, hangException]

theorem continueBlock_failed {left : Bool} {w : Playback} {b : Block} (failed : b.ok = false) :
    continueBlock left w b = (none, { w with call := some b }) :=
  if_pos (.inl (by simp [failed]))

/-- A feedback that does not arrive closes the connection and leaves its bytes uncounted. -/
theorem pollStep_lossy {file : Int → UInt8} {position : Int} {w : Playback} {b : Block}
    (accounted : Accounted file w) (inside : InBlock file position w b) (data : DataEvent)
    (request : b.request = true) (owed : w.owed ≠ 0) {polled : Bool × Playback × Block}
    (step : w.pollStep b (.ready data (.readable false)) = polled) :
    (continueBlock polled.1 polled.2.1 polled.2.2).2.due ≠
      (continueBlock polled.1 polled.2.1 polled.2.2).2.backend.stream.length := by
  have cleared : InBlock file position w { b with data := false } :=
    inside.of_flags rfl rfl rfl rfl
  obtain ⟨taken, -, same, response⟩ := checkData_accounted accounted cleared data
  rw [pollStep, checkResponse_lost (same.trans request)] at step
  subst step
  have owed' : (w.checkData { b with data := false } data).1.owed ≠ 0 := by
    simpa only [Playback.owed, response] using owed
  have untaken := taken.untaken
  rw [continueBlock_failed rfl]
  simp only [hangException, due, Playback.owed]
  omega

theorem recover_lossy {file : Int → UInt8} {position : Int} {w : Playback} {b : Block}
    (accounted : Accounted file w) (inside : InBlock file position w b)
    (owed : w.owed ≠ 0) (arrives : Bool) (answer : SeekAnswer) :
    (w.recover b arrives answer).2.due ≠ (w.recover b arrives answer).2.backend.stream.length := by
  have dropped := dropResponse_kept w b arrives
  have untaken := accounted.untaken
  simp only [recover, recover_seek inside arrives answer]
  by_cases negative : b.filePosition < 0
  · simp only [if_pos negative, due, hangException, dropped.1, dropped.2]
    omega
  · simp only [if_neg negative, due, dropped.1, dropped.2]
    omega

/-- What Flush does not receive stays on the transfer socket, before the bytes that follow. -/
theorem transferSeek_lossy {file : Int → UInt8} {w : Playback} (accounted : Accounted file w)
    (quiet : w.Quiet) (idle : w.call = none) {offset : Int} {whence : Whence} (position : Int)
    {received : Nat} (asks : w.transfer.seekCheck offset whence = none)
    (isOpen : w.transfer.isOpen = true) (control : w.controlSocket = true)
    (short : received < w.transfer.unread) :
    (w.transferSeek offset whence (.answered position received)).2.due ≠
      (w.transferSeek offset whence (.answered position received)).2.backend.stream.length := by
  have untaken := accounted.untaken
  rw [quiet.owed_eq] at untaken
  unfold ProtoTransfer.unread at short
  simp only [transferSeek, asks, isOpen, control, not_true_eq_false, if_false, due, idle,
    ProtoTransfer.reset, ProtoTransfer.unread, List.length_drop]
  omega

theorem event_rejected {file : Int → UInt8} {position : Int} {w : Playback}
    (related : Related file w position) (e : PlaybackEvent) (lossy : ¬ w.Lossless e) :
    accept file position ((machine file).step w e).1 = none := by
  apply accept_none
  obtain ⟨accounted, phase⟩ := related
  cases e with
  | serve rlen =>
    simp only [Lossless, not_forall, not_or, Int.not_le, Bool.not_eq_true] at lossy
    obtain ⟨n, asked, within, some_bytes, closed⟩ := lossy
    simp only [event, serve, asked, if_pos within]
    exact agree_lossy ⟨accounted, phase⟩ (accounted.single (by simp [asked])) closed some_bytes
  | requestBlock n sent => exact absurd trivial lossy
  | seek offset whence answer =>
    cases answer with
    | unsent => exact absurd trivial lossy
    | lost moved => exact absurd trivial lossy
    | answered moved received =>
      simp only [Lossless, not_forall, Nat.not_le] at lossy
      obtain ⟨idle, asks, isOpen, control, short⟩ := lossy
      rw [idle] at phase
      simp only [event, idle]
      exact transferSeek_lossy accounted phase.1 idle moved asks isOpen control short
  | poll p =>
    cases p with
    | error => exact absurd trivial lossy
    | timeout => exact absurd trivial lossy
    | ready data control =>
      cases control with
      | none => exact absurd trivial lossy
      | broken => exact absurd trivial lossy
      | readable arrives =>
        simp only [Lossless, not_forall, not_or, Bool.not_eq_true] at lossy
        obtain ⟨b, called, ok, request, rfl, owed⟩ := lossy
        rw [called] at phase
        simp only [event, called, if_pos ok]
        exact pollStep_lossy accounted phase data request owed rfl
  | recover arrives answer =>
    simp only [Lossless, not_forall] at lossy
    obtain ⟨b, called, failed, -, owed⟩ := lossy
    rw [called] at phase
    simp only [event, called, failed, Bool.false_eq_true, if_false]
    exact recover_lossy accounted phase owed arrives answer

theorem opened_related (file : Int → UInt8) (t : ProtoTransfer) : Related file (opened t) 0 :=
  ⟨⟨rfl, rfl, fun _ => rfl, fun asked => absurd rfl asked⟩, ⟨rfl, fun _ => rfl⟩, rfl⟩

/-- The counters stay right and only bytes of the file at the reported positions are returned,
exactly as long as no agreed byte is lost. -/
theorem accounted_iff_lossless (file : Int → UInt8) (t : ProtoTransfer)
    (events : List PlaybackEvent) :
    Machine.Accepts (accept file) 0 ((machine file).observations (opened t) events) ↔
      (machine file).Guarded Lossless (opened t) events :=
  (machine file).accepts_iff_guarded (R := Related file)
    (fun _ _ e related lossless => event_follows related e lossless)
    (fun _ _ e related lossy => event_rejected related e lossy) (opened_related file t) events

/-- A file of ten bytes, each its own position. -/
def tenBytes (position : Int) : UInt8 := UInt8.ofNat position.toNat

def tenTransfer : ProtoTransfer := { pathName := [], storageGroupName := [], fileSize := 10 }

/-- A request times out and its answer comes when the error exit drops it. -/
def staleRun : List PlaybackEvent :=
  [.requestBlock 4 true, .poll .timeout, .serve 4, .recover true .unsent,
    .seek 8 .SET (.answered 8 0), .requestBlock 2 true, .serve 2,
    .poll (.ready (.bytes 2) (.readable true))]

theorem not_always_accounted : ¬ ∀ (file : Int → UInt8) (t : ProtoTransfer)
    (events : List PlaybackEvent),
    Machine.Accepts (accept file) 0 ((machine file).observations (opened t) events) := by
  intro claim
  exact absurd (claim tenBytes tenTransfer staleRun) (by decide)

/-- After the seek to position 8 the first two bytes of the file are returned. -/
example : ((machine tenBytes).observations (opened tenTransfer) staleRun).filterMap
    (fun seen => seen.outcome) =
      [.blockFailed 0, .sought 8 8, .block [0, 1] 10] := by decide

end CppMyth.Playback
