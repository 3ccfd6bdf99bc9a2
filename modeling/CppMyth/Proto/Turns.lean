import CppMyth.Proto.MessageLatch

/-! The loop of TransferRequestBlock, turn by turn: what each turn gets done, and the number of
turns until the loop is left. -/
namespace CppMyth.Playback
open Library

/-- poll returns a positive count only for a descriptor it listens to: the transfer socket while
it is polled for data, the control socket while the request is out. -/
def Reports (b : Block) (data : DataEvent) (control : ControlEvent) : Prop :=
  data = .broken ∨ (b.polled = true ∧ data ≠ .none) ∨ (b.request = true ∧ control ≠ .none)
  deriving Decidable

/-- The call that this event is a turn of, if it is one. -/
def turn (w : Playback) : PlaybackEvent → Option Block
  | .poll (.ready data control) => w.call.filter fun b => b.ok ∧ Reports b data control
  | .poll _ => w.call.filter fun b => b.ok
  | _ => none

/-- What recv takes from the transfer socket. -/
def received (w : Playback) (b : Block) (k : Nat) : List UInt8 :=
  w.backend.stream.take (if b.polled then min k (b.n - b.buffer.length) else 0)

/-- The peer has closed: the transfer socket is reported readable and recv returns 0. -/
def EndOfStream (w : Playback) (b : Block) : PlaybackEvent → Prop
  | .poll (.ready (.bytes k) _) => b.polled = true ∧ w.received b k = []
  | _ => False

/-- The call has left its loop, or the turn delivered bytes, consumed the response, or found
nothing to read, so that the next poll waits. -/
def Advances (b : Block) (e : PlaybackEvent) (after : Option Block) : Prop :=
  match after with
  | none => True
  | some b' => b'.ok = false ∨ b.buffer.length < b'.buffer.length ∨
      (b.request = true ∧ b'.request = false) ∨
      (e = .poll .timeout ∧ b.data = true ∧ b'.data = false)

/-- A turn advances, and the end of the stream is an error when nothing was delivered. -/
def Progresses (file : Int → UInt8) (w : Playback) (e : PlaybackEvent) : Prop :=
  ∀ b, w.turn e = some b → Advances b e (w.event file e).2.call ∧
    (w.EndOfStream b e → ∀ position, (w.event file e).1 ≠ some (.block [] position))

/-- At the end of the stream either something was read and no request is out, or the control
socket has something to say, and not that the block is empty when nothing was read. -/
def EndIsSeen (w : Playback) (e : PlaybackEvent) : Prop :=
  ∀ b, w.turn e = some b → w.EndOfStream b e →
    match e with
    | .poll (.ready _ control) =>
      if b.request then
        control ≠ .none ∧
          ¬ (b.buffer = [] ∧ control = .readable true ∧ w.backend.response = some 0)
      else b.buffer ≠ []
    | _ => True

theorem turn_some {w : Playback} {b : Block} {e : PlaybackEvent} (turns : w.turn e = some b) :
    w.call = some b ∧ b.ok = true ∧
      (e = .poll .error ∨ e = .poll .timeout ∨
        ∃ data control, e = .poll (.ready data control) ∧ Reports b data control) := by
  cases e with
  | poll p =>
    cases p with
    | error =>
      obtain ⟨called, ok⟩ := Option.filter_eq_some_iff.mp turns
      exact ⟨called, by simpa using ok, .inl rfl⟩
    | timeout =>
      obtain ⟨called, ok⟩ := Option.filter_eq_some_iff.mp turns
      exact ⟨called, by simpa using ok, .inr (.inl rfl)⟩
    | ready data control =>
      obtain ⟨called, holds⟩ := Option.filter_eq_some_iff.mp turns
      have met : b.ok = true ∧ Reports b data control := by simpa using holds
      exact ⟨called, met.1, .inr (.inr ⟨data, control, rfl, met.2⟩)⟩
  | serve rlen => cases turns
  | requestBlock n sent => cases turns
  | seek offset whence answer => cases turns
  | recover arrives answer => cases turns

theorem event_poll (file : Int → UInt8) {w : Playback} {b : Block} (called : w.call = some b)
    (ok : b.ok = true) (p : PollResult) : w.event file (.poll p) =
      continueBlock (w.pollStep b p).1 (w.pollStep b p).2.1 (w.pollStep b p).2.2 := by
  simp only [event, called, if_pos ok]

theorem continueBlock_call (left : Bool) (w : Playback) (b : Block) :
    (continueBlock left w b).2.call = some b ∨ (continueBlock left w b).2.call = none := by
  unfold continueBlock
  split
  · exact .inl rfl
  · exact .inr rfl

/-- What a turn has done shows in the block it hands to the test of the loop. -/
theorem advances_of {b : Block} {e : PlaybackEvent} (left : Bool) (w : Playback) {b' : Block}
    (done : Advances b e (some b')) : Advances b e (continueBlock left w b').2.call := by
  rcases continueBlock_call left w b' with stays | returns
  · rw [stays]
    exact done
  · rw [returns]
    trivial

theorem checkData_bytes (w : Playback) (b : Block) (k : Nat) :
    (w.received b k = [] ∧ w.checkData b (.bytes k) = (w, b)) ∨
      (w.received b k ≠ [] ∧ (w.checkData b (.bytes k)).2.ok = b.ok ∧
        (w.checkData b (.bytes k)).2.buffer = b.buffer ++ w.received b k) := by
  have same : w.received b k = w.backend.stream.take
    (if b.polled then min k (b.n - b.buffer.length) else 0) := rfl
  simp only [checkData]
  rw [← same]
  generalize w.received b k = taken
  cases taken with
  | nil => exact .inl ⟨rfl, rfl⟩
  | cons byte rest =>
    refine .inr ⟨by simp, ?_⟩
    rw [if_neg (by simp)]
    split <;> exact ⟨rfl, rfl⟩

theorem checkResponse_kept (w : Playback) (b : Block) (control : ControlEvent) :
    (w.checkResponse b control).2.2.buffer = b.buffer ∧
      (w.checkResponse b control).2.2.n = b.n ∧
      (w.checkResponse b control).2.2.data = b.data ∧
      (b.ok = false → (w.checkResponse b control).2.2.ok = false) := by
  cases control with
  | none => exact ⟨rfl, rfl, rfl, id⟩
  | broken =>
    simp only [checkResponse]
    split
    · exact ⟨rfl, rfl, rfl, fun _ => rfl⟩
    · exact ⟨rfl, rfl, rfl, id⟩
  | readable arrives =>
    simp only [checkResponse]
    split
    · exact ⟨rfl, rfl, rfl, id⟩
    · split
      · exact ⟨rfl, rfl, rfl, fun _ => rfl⟩
      · split <;> exact ⟨rfl, rfl, rfl, id⟩

/-- Whatever the control socket reports of a request that is out ends the request or the loop. -/
theorem checkResponse_consumes {w : Playback} {b : Block} {control : ControlEvent}
    (request : b.request = true) (reported : control ≠ .none) :
    (w.checkResponse b control).2.2.ok = false ∨
      (w.checkResponse b control).2.2.request = false := by
  cases control with
  | none => exact absurd rfl reported
  | broken => exact .inl (by simp only [checkResponse, if_pos request])
  | readable arrives =>
    rcases checkResponse_flags w b (.readable arrives) with ⟨-, -, cleared, -⟩ | ⟨kept, -⟩
    · exact .inr cleared
    · exact absurd ⟨⟨arrives, rfl⟩, request⟩ kept

theorem ready_advances {w : Playback} {b : Block} {data : DataEvent} {control : ControlEvent}
    (reports : Reports b data control)
    (open_end : ¬ w.EndOfStream b (.poll (.ready data control))) :
    Advances b (.poll (.ready data control))
      (some (w.pollStep b (.ready data control)).2.2) := by
  have flags := checkData_flags w { b with data := false } data
  have kept := checkResponse_kept (w.checkData { b with data := false } data).1
    (w.checkData { b with data := false } data).2 control
  have consumed (request : b.request = true) (reported : control ≠ .none) :
      Advances b (.poll (.ready data control))
        (some (w.pollStep b (.ready data control)).2.2) := by
    rcases checkResponse_consumes (flags.1.trans request) reported with failed | cleared
    · exact .inl failed
    · exact .inr (.inr (.inl ⟨request, cleared⟩))
  have failed (fails : (w.checkData { b with data := false } data).2.ok = false) :
      Advances b (.poll (.ready data control))
        (some (w.pollStep b (.ready data control)).2.2) := .inl (kept.2.2.2 fails)
  cases data with
  | none =>
    rcases reports with broken | ⟨-, reported⟩ | ⟨request, reported⟩
    · cases broken
    · exact absurd rfl reported
    · exact consumed request reported
  | broken => exact failed rfl
  | failed =>
    rcases reports with broken | ⟨polled, -⟩ | ⟨request, reported⟩
    · cases broken
    · exact failed (by simp only [checkData, if_pos polled])
    · exact consumed request reported
  | bytes k =>
    rcases checkData_bytes w { b with data := false } k with ⟨empty, -⟩ | ⟨some_bytes, -, grown⟩
    · rcases reports with broken | ⟨polled, -⟩ | ⟨request, reported⟩
      · cases broken
      · exact absurd ⟨polled, empty⟩ open_end
      · exact consumed request reported
    · refine .inr (.inl ?_)
      have longer := List.length_pos_iff.mpr some_bytes
      simp only [pollStep, kept.1, grown, List.length_append]
      omega

theorem checkResponse_leaves {w : Playback} {b : Block} {control : ControlEvent} :
    (w.checkResponse b control).1 = true ↔ b.request = true ∧ b.data = false ∧
      control = .readable true ∧ w.backend.response = some 0 := by
  cases control with
  | none => simp [checkResponse]
  | broken => simp [checkResponse]
  | readable arrives =>
    cases request : b.request with
    | false => simp [checkResponse, request]
    | true =>
      simp only [checkResponse, request, not_true_eq_false, if_false]
      cases arrives with
      | false => simp [transferRequestBlockFeedback75]
      | true =>
        cases response : w.backend.response with
        | none => simp [transferRequestBlockFeedback75, response]
        | some rlen =>
          simp only [transferRequestBlockFeedback75, response]
          by_cases negative : rlen < 0
          · simp [negative]
            omega
          · cases data : b.data with
            | true => simp [negative]
            | false =>
              rw [if_neg negative, if_neg negative]
              by_cases zero : rlen = 0 <;> simp [zero]

theorem checkResponse_left_ok {w : Playback} {b : Block} {control : ControlEvent}
    (left : (w.checkResponse b control).1 = true) : (w.checkResponse b control).2.2.ok = b.ok := by
  obtain ⟨request, data, rfl, response⟩ := checkResponse_leaves.mp left
  simp [checkResponse, transferRequestBlockFeedback75, request, data, response]

theorem continueBlock_empty {left : Bool} {w : Playback} {b : Block} {position : Int}
    (returned : (continueBlock left w b).1 = some (.block [] position)) :
    left = true ∧ b.buffer = [] := by
  unfold continueBlock at returned
  split at returned
  · cases returned
  · rename_i ends
    have nothing : b.buffer = [] := (Outcome.block.inj (Option.some.inj returned)).1
    refine ⟨?_, nothing⟩
    cases left with
    | true => rfl
    | false => exact absurd (.inr ⟨Bool.false_ne_true, .inr (.inr nothing)⟩) ends

/-- A block that only loses its data flag is where it was. -/
theorem unchanged_stuck {b : Block} (ok : b.ok = true) (k : Nat) (control : ControlEvent) :
    ¬ Advances b (.poll (.ready (.bytes k) control)) (some { b with data := false }) := by
  rintro (failed | longer | ⟨asked, cleared⟩ | ⟨timeout, -⟩)
  · exact absurd (ok.symm.trans failed) (by simp)
  · exact absurd longer (Nat.lt_irrefl _)
  · exact absurd (asked.symm.trans cleared) (by simp)
  · cases timeout

/-- Nobody reads the control socket, so only the test of the loop decides. -/
theorem unasked_advances_iff {w : Playback} {b : Block} {control : ControlEvent}
    (ok : b.ok = true) (request : b.request = false) (k : Nat) :
    (Advances b (.poll (.ready (.bytes k) control))
        (continueBlock false w { b with data := false }).2.call ∧
      ∀ position, (continueBlock false w { b with data := false }).1 ≠
        some (.block [] position)) ↔ b.buffer ≠ [] := by
  constructor
  · rintro ⟨advances, -⟩ nothing
    have stays : (continueBlock false w { b with data := false }).2.call =
        some { b with data := false } := by
      simp [continueBlock, nothing]
    rw [stays] at advances
    exact unchanged_stuck ok k control advances
  · intro some_bytes
    have returns : (continueBlock false w { b with data := false }).2.call = none := by
      simp [continueBlock, ok, request, some_bytes]
    refine ⟨by rw [returns]; trivial, fun position returned => ?_⟩
    exact some_bytes (continueBlock_empty returned).2

/-- The call goes on with the response, if one is reported and it is not that of the end. -/
theorem asked_advances_iff {w : Playback} {b : Block} {control : ControlEvent}
    (ok : b.ok = true) (request : b.request = true) (k : Nat) {polled : Bool × Playback × Block}
    (step : w.checkResponse { b with data := false } control = polled) :
    (Advances b (.poll (.ready (.bytes k) control))
        (continueBlock polled.1 polled.2.1 polled.2.2).2.call ∧
      ∀ position, (continueBlock polled.1 polled.2.1 polled.2.2).1 ≠ some (.block [] position)) ↔
      control ≠ .none ∧
        ¬ (b.buffer = [] ∧ control = .readable true ∧ w.backend.response = some 0) := by
  constructor
  · rintro ⟨advances, returned⟩
    constructor
    · rintro rfl
      subst step
      have stays : (continueBlock false w { b with data := false }).2.call =
          some { b with data := false } := by
        simp [continueBlock, request]
      have advances : Advances b _ (continueBlock false w { b with data := false }).2.call :=
        advances
      rw [stays] at advances
      exact unchanged_stuck ok k .none advances
    · rintro ⟨nothing, readable, response⟩
      have left : (w.checkResponse { b with data := false } control).1 = true :=
        checkResponse_leaves.mpr ⟨request, rfl, readable, response⟩
      have still := checkResponse_left_ok left
      have kept := (checkResponse_kept w { b with data := false } control).1
      rw [step] at left still kept
      apply returned polled.2.1.transfer.filePosition
      simp [continueBlock, left, still, ok, kept, nothing]
  · rintro ⟨reported, seen⟩
    subst step
    constructor
    · apply advances_of
      rcases checkResponse_consumes (b := { b with data := false }) request reported with
        failed | cleared
      · exact .inl failed
      · exact .inr (.inr (.inl ⟨request, cleared⟩))
    · intro position returned
      obtain ⟨left, nothing⟩ := continueBlock_empty returned
      obtain ⟨-, -, readable, response⟩ := checkResponse_leaves.mp left
      rw [(checkResponse_kept w { b with data := false } control).1] at nothing
      exact seen ⟨nothing, readable, response⟩

theorem ended_advances_iff {w : Playback} {b : Block} {control : ControlEvent}
    (ok : b.ok = true) (k : Nat) {polled : Bool × Playback × Block}
    (step : w.checkResponse { b with data := false } control = polled) :
    (Advances b (.poll (.ready (.bytes k) control))
        (continueBlock polled.1 polled.2.1 polled.2.2).2.call ∧
      ∀ position, (continueBlock polled.1 polled.2.1 polled.2.2).1 ≠ some (.block [] position)) ↔
      if b.request then
        control ≠ .none ∧
          ¬ (b.buffer = [] ∧ control = .readable true ∧ w.backend.response = some 0)
      else b.buffer ≠ [] := by
  cases request : b.request with
  | false =>
    have same : w.checkResponse { b with data := false } control =
        (false, w, { b with data := false }) := by
      cases control <;> simp [checkResponse, request]
    rw [same] at step
    subst step
    rw [if_neg Bool.false_ne_true]
    exact unasked_advances_iff ok request k
  | true =>
    rw [if_pos rfl]
    exact asked_advances_iff ok request k step

theorem progresses_iff (file : Int → UInt8) (w : Playback) (e : PlaybackEvent) :
    Progresses file w e ↔ EndIsSeen w e := by
  apply forall_congr'
  intro b
  apply imp_congr_right
  intro turns
  obtain ⟨called, ok, rfl | rfl | ⟨data, control, rfl, reports⟩⟩ := turn_some turns
  · have advances : Advances b (.poll .error) (w.event file (.poll .error)).2.call := by
      rw [event_poll file called ok]
      exact advances_of _ _ (.inl rfl)
    exact iff_of_true ⟨advances, False.elim⟩ False.elim
  · have advances : Advances b (.poll .timeout) (w.event file (.poll .timeout)).2.call := by
      rw [event_poll file called ok]
      apply advances_of
      cases data : b.data with
      | true =>
        simp only [pollStep, data, if_true]
        exact .inr (.inr (.inr ⟨rfl, data, rfl⟩))
      | false =>
        simp only [pollStep, data, Bool.false_eq_true, if_false]
        exact .inl rfl
    exact iff_of_true ⟨advances, False.elim⟩ False.elim
  · by_cases ended : w.EndOfStream b (.poll (.ready data control))
    · rw [event_poll file called ok]
      cases data with
      | bytes k =>
        have step : w.pollStep b (.ready (.bytes k) control) =
            w.checkResponse { b with data := false } control := by
          rcases checkData_bytes w { b with data := false } k with ⟨-, same⟩ | ⟨some_bytes, -⟩
          · simp only [pollStep, same]
          · exact absurd ended.2 some_bytes
        rw [step]
        have exact_turn := ended_advances_iff ok k
          (Eq.refl (w.checkResponse { b with data := false } control))
        constructor
        · rintro ⟨advances, returned⟩ -
          exact exact_turn.mp ⟨advances, returned ended⟩
        · intro seen
          exact ⟨(exact_turn.mpr (seen ended)).1, fun _ => (exact_turn.mpr (seen ended)).2⟩
      | none => exact ended.elim
      | failed => exact ended.elim
      | broken => exact ended.elim
    · have advances : Advances b (.poll (.ready data control))
          (w.event file (.poll (.ready data control))).2.call := by
        rw [event_poll file called ok]
        exact advances_of _ _ (ready_advances reports ended)
      exact iff_of_true ⟨advances, fun h => absurd h ended⟩ (fun h => absurd h ended)

/-- What a call can still do: bytes to read, an answer to wait for, a poll that does not wait. -/
def work (b : Block) : Nat :=
  2 * (b.n - b.buffer.length) + (if b.request then 1 else 0) + (if b.data then 1 else 0)

def turns (file : Int → UInt8) (w : Playback) : List PlaybackEvent → Nat
  | [] => 0
  | e :: rest => (if (w.turn e).isSome then 1 else 0) + turns file (w.event file e).2 rest

/-- The loop of the call is not left during the run. -/
def StaysInLoop (file : Int → UInt8) (w : Playback) (events : List PlaybackEvent) : Prop :=
  ∀ front, front <+: events →
    ∃ b, ((machine file).final w front).call = some b ∧ b.ok = true

/-- What a turn that leaves no error does to the block. -/
structure Extends (b b' : Block) : Prop where
  n : b'.n = b.n
  request : b'.request = true → b.request = true
  buffer : b.buffer.length ≤ b'.buffer.length
  room : b.buffer.length < b'.buffer.length → b.buffer.length < b.n
  data : b'.data = true → b.buffer.length < b'.buffer.length

theorem checkData_extends (w : Playback) (b : Block) (data : DataEvent) :
    Extends b (w.checkData { b with data := false } data).2 := by
  have same (b' : Block) (n : b'.n = b.n) (request : b'.request = b.request)
      (buffer : b'.buffer = b.buffer) (clear : b'.data = false) : Extends b b' := by
    refine ⟨n, fun asked => request.symm.trans asked, ?_, ?_, ?_⟩
    · rw [buffer]
    · rw [buffer]
      exact fun longer => absurd longer (Nat.lt_irrefl _)
    · rw [clear]
      exact fun set => absurd set Bool.false_ne_true
  cases data with
  | none => exact same _ rfl rfl rfl rfl
  | broken => exact same _ rfl rfl rfl rfl
  | failed =>
    simp only [checkData]
    split <;> exact same _ rfl rfl rfl rfl
  | bytes k =>
    simp only [checkData]
    generalize cut : w.backend.stream.take _ = taken
    cases taken with
    | nil => exact same _ rfl rfl rfl rfl
    | cons byte rest =>
      have room : b.buffer.length < b.n := by
        by_contra full
        have none : b.n - b.buffer.length = 0 := by omega
        simp [none] at cut
      rw [if_neg (by simp)]
      split
      all_goals
        refine ⟨rfl, id, ?_, fun _ => room, fun _ => ?_⟩
        · simp
        · simp

theorem pollStep_extends {w : Playback} {b : Block} {p : PollResult}
    (ok : (w.pollStep b p).2.2.ok = true) : Extends b (w.pollStep b p).2.2 := by
  cases p with
  | error => cases ok
  | timeout =>
    cases data : b.data with
    | true =>
      simp only [pollStep, data, if_true]
      exact ⟨rfl, id, Nat.le_refl _, fun longer => absurd longer (Nat.lt_irrefl _), by simp⟩
    | false =>
      simp only [pollStep, data, Bool.false_eq_true, if_false] at ok
  | ready data control =>
    have step := checkData_extends w b data
    obtain ⟨buffer, n, flag, -⟩ := checkResponse_kept
      (w.checkData { b with data := false } data).1
      (w.checkData { b with data := false } data).2 control
    refine ⟨n.trans step.n, fun asked => step.request ?_, ?_, ?_, fun set => ?_⟩
    · rcases checkResponse_flags (w.checkData { b with data := false } data).1
        (w.checkData { b with data := false } data).2 control with
        ⟨-, -, cleared, -⟩ | ⟨-, -, same, -⟩
      · exact absurd (cleared.symm.trans asked) Bool.false_ne_true
      · exact same.symm.trans asked
    · simp only [pollStep, buffer]
      exact step.buffer
    · simp only [pollStep, buffer]
      exact step.room
    · simp only [pollStep, buffer]
      exact step.data (flag.symm.trans set)

theorem Extends.asked_le {b b' : Block} (extend : Extends b b') :
    (if b'.request then 1 else 0) ≤ if b.request then 1 else 0 := by
  cases asked : b'.request with
  | false => exact Nat.zero_le _
  | true => rw [extend.request asked]

theorem Extends.work_lt_of_longer {b b' : Block} (extend : Extends b b')
    (longer : b.buffer.length < b'.buffer.length) : work b' < work b := by
  have asked := extend.asked_le
  have room := extend.room longer
  have data : (if b'.data then 1 else 0) ≤ 1 := by split <;> omega
  unfold work
  rw [extend.n]
  omega

theorem Extends.work_of_not_longer {b b' : Block} (extend : Extends b b')
    (longer : ¬ b.buffer.length < b'.buffer.length) :
    work b' = 2 * (b.n - b.buffer.length) + (if b'.request then 1 else 0) := by
  have same := Nat.le_antisymm (Nat.le_of_not_lt longer) extend.buffer
  have clear : ¬ b'.data = true := fun set => longer (extend.data set)
  rw [work, extend.n, same, if_neg clear, Nat.add_zero]

theorem Extends.work_le {b b' : Block} (extend : Extends b b') : work b' ≤ work b := by
  by_cases longer : b.buffer.length < b'.buffer.length
  · exact Nat.le_of_lt (extend.work_lt_of_longer longer)
  · rw [extend.work_of_not_longer longer]
    have asked := extend.asked_le
    unfold work
    omega

theorem Extends.work_lt {b b' : Block} {e : PlaybackEvent} (extend : Extends b b')
    (ok : b'.ok = true) (advances : Advances b e (some b')) : work b' < work b := by
  by_cases longer : b.buffer.length < b'.buffer.length
  · exact extend.work_lt_of_longer longer
  · rw [extend.work_of_not_longer longer]
    have asked := extend.asked_le
    unfold work
    rcases advances with failed | more | ⟨before, cleared⟩ | ⟨-, set, -⟩
    · exact absurd (ok.symm.trans failed) (by simp)
    · exact absurd more longer
    · rw [before, cleared, if_pos rfl, if_neg Bool.false_ne_true]
      omega
    · rw [if_pos set]
      omega

theorem event_work {file : Int → UInt8} {w : Playback} {b b' : Block} (called : w.call = some b)
    (ok : b.ok = true) {e : PlaybackEvent} (after : (w.event file e).2.call = some b')
    (still : b'.ok = true) (progresses : Progresses file w e) :
    (if (w.turn e).isSome then 1 else 0) + work b' ≤ work b := by
  have quiet (none : w.turn e = none) (same : (w.event file e).2.call = w.call) :
      (if (w.turn e).isSome then 1 else 0) + work b' ≤ work b := by
    rw [none, if_neg (by simp)]
    obtain rfl : b = b' := Option.some.inj (called.symm.trans (same.symm.trans after))
    omega
  cases e with
  | poll p =>
    have extend : Extends b b' := by
      rw [event_poll file called ok] at after
      rcases continueBlock_call (w.pollStep b p).1 (w.pollStep b p).2.1 (w.pollStep b p).2.2 with
        stays | returns
      · obtain rfl : (w.pollStep b p).2.2 = b' := Option.some.inj (stays.symm.trans after)
        exact pollStep_extends still
      · exact absurd (returns.symm.trans after) (by simp)
    cases turns : w.turn (.poll p) with
    | none =>
      have kept := extend.work_le
      rw [if_neg (by simp)]
      omega
    | some c =>
      obtain rfl : b = c := Option.some.inj (called.symm.trans (turn_some turns).1)
      have advances := (progresses b turns).1
      rw [after] at advances
      have less := extend.work_lt still advances
      rw [if_pos (by simp)]
      omega
  | serve rlen =>
    apply quiet rfl
    simp only [event, serve]
    split
    · rfl
    · split <;> rfl
  | requestBlock n sent => exact quiet rfl (by simp only [event, called])
  | seek offset whence answer => exact quiet rfl (by simp only [event, called])
  | recover arrives answer => exact quiet rfl (by simp only [event, called, if_pos ok])

theorem turns_le_work {file : Int → UInt8} {w : Playback} {b : Block} {events : List PlaybackEvent}
    (called : w.call = some b) (progress : (machine file).Guarded (Progresses file) w events)
    (stays : StaysInLoop file w events) : turns file w events ≤ work b := by
  induction events generalizing w b with
  | nil => exact Nat.zero_le _
  | cons e rest ih =>
    have ok : b.ok = true := by
      obtain ⟨c, same, ok⟩ := stays [] (List.nil_prefix)
      obtain rfl : b = c := Option.some.inj (called.symm.trans same)
      exact ok
    obtain ⟨b', after, still⟩ := stays [e] ⟨rest, rfl⟩
    have less := event_work called ok after still progress.1
    have tail : turns file (w.event file e).2 rest ≤ work b' := by
      apply ih after progress.2
      exact fun front is_front => stays (e :: front) (List.cons_prefix_cons.mpr ⟨rfl, is_front⟩)
    simp only [turns]
    omega

/-- Every turn of a run gets something done, and fails at the end of the stream when it has
nothing, exactly when the end of the stream is seen; then a call has at most two turns for each
byte it asks for, and two more. -/
theorem progress_iff_end_seen (file : Int → UInt8) (w : Playback) (events : List PlaybackEvent) :
    ((machine file).Guarded (Progresses file) w events ↔
        (machine file).Guarded EndIsSeen w events) ∧
      ((machine file).Guarded EndIsSeen w events → ∀ b, w.call = some b →
        StaysInLoop file w events → turns file w events ≤ 2 * b.n + 2) := by
  have same : (machine file).Guarded (Progresses file) w events ↔
      (machine file).Guarded EndIsSeen w events := by
    induction events generalizing w with
    | nil => exact Iff.rfl
    | cons e rest ih => exact and_congr (progresses_iff file w e) (ih _)
  refine ⟨same, fun seen b called stays => ?_⟩
  have bound := turns_le_work called (same.mpr seen) stays
  have request : (if b.request then 1 else 0) ≤ 1 := by split <;> omega
  have data : (if b.data then 1 else 0) ≤ 1 := by split <;> omega
  unfold work at bound
  omega

/-- A closed transfer socket is polled again and again, and nothing changes. -/
theorem closed_unchanged (file : Int → UInt8) {w : Playback} {b : Block} (called : w.call = some b)
    (ok : b.ok = true) (data : b.data = false) (waits : b.request = true ∨ b.buffer = []) :
    w.event file (.poll (.ready (.bytes 0) .none)) = (none, w) := by
  have same : ({ b with data := false } : Block) = b := by rw [← data]
  have nothing : w.received b 0 = [] := by simp [received]
  have step : w.pollStep b (.ready (.bytes 0) .none) = (false, w, b) := by
    simp only [pollStep, same, checkResponse]
    rcases checkData_bytes w b 0 with ⟨-, unchanged⟩ | ⟨some_bytes, -⟩
    · rw [unchanged]
    · exact absurd nothing some_bytes
  rw [event_poll file called ok, step]
  unfold continueBlock
  rw [if_pos (.inr ⟨Bool.false_ne_true, waits.imp id .inr⟩), ← called]

theorem closed_forever (file : Int → UInt8) {w : Playback} {b : Block} (called : w.call = some b)
    (ok : b.ok = true) (data : b.data = false) (waits : b.request = true ∨ b.buffer = [])
    (k : Nat) :
    (machine file).final w (List.replicate k (.poll (.ready (.bytes 0) .none))) = w := by
  induction k with
  | zero => rfl
  | succ k ih =>
    have still := closed_unchanged file called ok data waits
    rw [List.replicate_succ, Machine.final]
    simp only [machine, still]
    exact ih

/-- A block of the transfer is asked for, and the peer closes the transfer socket. -/
def blockAsked : Playback := (opened tenTransfer).event tenBytes (.requestBlock 4 true) |>.2

/-- The call polls the closed socket for ever, and no turn of it gets anything done. -/
theorem polls_forever :
    (∀ k, ((machine tenBytes).final blockAsked
      (List.replicate k (.poll (.ready (.bytes 0) .none)))).call.isSome = true) ∧
    ¬ ∀ (file : Int → UInt8) (w : Playback) (events : List PlaybackEvent),
      (machine file).Guarded (Progresses file) w events := by
  constructor
  · intro k
    rw [closed_forever tenBytes (w := blockAsked) rfl rfl rfl (.inl rfl) k]
    rfl
  · intro claim
    have progress := (claim tenBytes blockAsked [.poll (.ready (.bytes 0) .none)]).1
    have seen := (progresses_iff _ _ _).mp progress _ rfl ⟨rfl, rfl⟩
    exact absurd seen (by decide)

end CppMyth.Playback
