import CppMyth.Proto.Accounting

/-! The message latch in TransferRequestBlock. It is taken before the request, released by the
feedback in the loop or by the error exit, and the flag `request` says that it is held. The
latch is recursive: TransferSeek75 and the Close of HangException lock it in their own scope. -/
namespace CppMyth
open Library

/-- Who holds the latch: the call, or a WriteLock for its scope. -/
inductive Hold where
  | call | scope
  deriving DecidableEq

inductive LatchOp where
  | lock (hold : Hold)
  | unlock (hold : Hold)
  deriving DecidableEq

/-- The holds that are not given back, the last one first: there are never more than two, and
one is given back before those under it. -/
def LatchOp.accept (holds : List Hold) : List LatchOp → Option (List Hold)
  | [] => some holds
  | .lock hold :: rest => if holds.length < 2 then accept (hold :: holds) rest else none
  | .unlock hold :: rest =>
    match holds with
    | [] => none
    | last :: below => if last = hold then accept below rest else none

/-- One holder: it locks what it does not hold and unlocks what it holds. -/
def LatchOp.acceptOnce (held : Bool) : List LatchOp → Option Bool
  | [] => some held
  | .lock _ :: rest => if held then none else acceptOnce true rest
  | .unlock _ :: rest => if held then acceptOnce false rest else none

namespace Playback

/-- The flag `request` of the call that has not returned. -/
def requested (w : Playback) : Bool :=
  match w.call with
  | none => false
  | some b => b.request

def held (w : Playback) : Int := if w.requested then 1 else 0

/-- The holds of the call, between two events. -/
def holds (w : Playback) : List Hold := if w.requested then [.call] else []

/-- HangException closes the connection, and Close locks the latch. -/
def hangOps : List LatchOp := [.lock .scope, .unlock .scope]

/-- TransferSeek75 holds the latch from the check of the offset on, and a seek that is not
answered hangs up in it. -/
def seekOps (w : Playback) (offset : Int) (whence : Whence) (answer : SeekAnswer) :
    List LatchOp :=
  match w.transfer.seekCheck offset whence with
  | some _ => []
  | none =>
    let sent := if ¬ w.transfer.isOpen then []
      else if ¬ w.controlSocket then hangOps
      else match answer with
        | .unsent | .lost _ => hangOps
        | .answered _ _ => []
    .lock .scope :: sent ++ [.unlock .scope]

/-- A response that cannot be read hangs up, and the call gives the latch back. -/
def responseOps (w : Playback) (arrives : Bool) : List LatchOp :=
  (match arrives, w.backend.response with
    | true, some _ => []
    | _, _ => hangOps) ++ [.unlock .call]

/-- What the client does with the latch, in the order of the source. -/
def latchOps (w : Playback) : PlaybackEvent → List LatchOp
  | .serve _ => []
  | .requestBlock n sent =>
    match w.call with
    | none =>
      if (w.startBlock n sent).2.requested then
        .lock .call :: if w.transfer.isOpen ∧ ¬ sent then hangOps else []
      else []
    | some _ => []
  | .seek offset whence answer =>
    match w.call with
    | none => w.seekOps offset whence answer
    | some _ => []
  | .poll p =>
    match w.call, p with
    | some b, .ready _ (.readable arrives) =>
      if b.ok ∧ b.request then w.responseOps arrives else []
    | _, _ => []
  | .recover arrives answer =>
    match w.call with
    | none => []
    | some b =>
      if b.ok then []
      else
        let dropped := w.dropResponse b arrives
        (if b.request then w.responseOps arrives else []) ++
          dropped.seekOps b.filePosition .SET answer ++
          if (dropped.transferSeek b.filePosition .SET answer).1 < 0 then hangOps else []

def latchMachine (file : Int → UInt8) : Machine Playback PlaybackEvent (List LatchOp) where
  step w e := (w.latchOps e, (w.event file e).2)

/-- A turn leaves the loop by the break or by the test of the loop. -/
def Leaves (polled : Bool × Playback × Block) : Prop :=
  polled.1 = true ∨
    ¬ (polled.2.2.ok ∧ (polled.2.2.request ∨ polled.2.2.data ∨ polled.2.2.buffer = []))

/-- The loop is not left with the latch held, except to the error exit. -/
def ReleasedAtExit (w : Playback) : PlaybackEvent → Prop
  | .poll p => ∀ b, w.call = some b → b.ok = true → Leaves (w.pollStep b p) →
      ¬ ((w.pollStep b p).2.2.ok = true ∧ (w.pollStep b p).2.2.request = true)
  | _ => True

@[simp] theorem held_some {w : Playback} {b : Block} (called : w.call = some b) :
    w.held = if b.request then 1 else 0 := by
  simp [held, requested, called]

@[simp] theorem held_none {w : Playback} (idle : w.call = none) : w.held = 0 := by
  simp [held, requested, idle]

theorem checkData_flags (w : Playback) (b : Block) (data : DataEvent) :
    (w.checkData b data).2.request = b.request ∧
      (w.checkData b data).1.latch = w.latch ∧ (w.checkData b data).1.call = w.call := by
  cases data with
  | none => exact ⟨rfl, rfl, rfl⟩
  | broken => exact ⟨rfl, rfl, rfl⟩
  | failed =>
    simp only [checkData]
    split <;> exact ⟨rfl, rfl, rfl⟩
  | bytes k =>
    simp only [checkData]
    generalize w.backend.stream.take _ = taken
    split
    · exact ⟨rfl, rfl, rfl⟩
    · split <;> exact ⟨rfl, rfl, rfl⟩

theorem feedback_latch (w : Playback) (arrives : Bool) :
    (w.transferRequestBlockFeedback75 arrives).2.latch = w.latch := by
  rcases feedback_cases w arrives with ⟨rlen, -, result⟩ | ⟨result, -⟩
  · rw [result]
  · rw [result]
    rfl

/-- The feedback branch clears the flag and releases the latch; the other branches keep both. -/
theorem checkResponse_flags (w : Playback) (b : Block) (control : ControlEvent) :
    ((∃ arrives, control = .readable arrives) ∧ b.request = true ∧
        (w.checkResponse b control).2.2.request = false ∧
        (w.checkResponse b control).2.1.latch = w.latch - 1) ∨
      (¬ ((∃ arrives, control = .readable arrives) ∧ b.request = true) ∧
        (w.checkResponse b control).1 = false ∧
        (w.checkResponse b control).2.2.request = b.request ∧
        (w.checkResponse b control).2.1.latch = w.latch) := by
  cases control with
  | none => exact .inr ⟨by simp, rfl, rfl, rfl⟩
  | broken =>
    refine .inr ⟨by simp, rfl, ?_, rfl⟩
    simp only [checkResponse]
    split <;> rfl
  | readable arrives =>
    cases request : b.request with
    | false => exact .inr ⟨by simp, by simp [checkResponse, request]⟩
    | true =>
      refine .inl ⟨⟨arrives, rfl⟩, rfl, ?_⟩
      simp only [checkResponse, request, not_true_eq_false, if_false]
      split
      · exact ⟨rfl, by simp [feedback_latch]⟩
      · split
        · exact ⟨rfl, by simp [feedback_latch]⟩
        · exact ⟨rfl, by simp [feedback_latch]⟩

theorem accept_append (holds : List Hold) (front back : List LatchOp) :
    LatchOp.accept holds (front ++ back) =
      (LatchOp.accept holds front).bind (LatchOp.accept · back) := by
  induction front generalizing holds with
  | nil => rfl
  | cons op rest ih =>
    cases op with
    | lock hold =>
      simp only [List.cons_append, LatchOp.accept]
      split
      · exact ih _
      · rfl
    | unlock hold =>
      cases holds with
      | nil => rfl
      | cons last below =>
        simp only [List.cons_append, LatchOp.accept]
        split
        · exact ih _
        · rfl

/-- A scope leaves the holds as they were. -/
theorem hangOps_accepted {holds : List Hold} (room : holds.length < 2) :
    LatchOp.accept holds hangOps = some holds := by
  simp [hangOps, LatchOp.accept, room]

/-- What one event does to the latch: it is accepted from the holds before it, and what the
latch counts apart from the holds of the call stays. -/
structure Balanced (w : Playback) (ops : List LatchOp) (w' : Playback) : Prop where
  accepted : LatchOp.accept w.holds ops = some w'.holds
  entry : w'.latch - w'.held = w.latch - w.held

theorem Balanced.of_same {w w' : Playback} (latch : w'.latch = w.latch)
    (requested : w'.requested = w.requested) : Balanced w [] w' := by
  constructor
  · rw [holds, holds, requested]
    rfl
  · rw [held, held, latch, requested]

theorem Balanced.of_lock {w w' : Playback} {ops : List LatchOp} (before : w.requested = false)
    (after : w'.requested = true) (latch : w'.latch = w.latch + 1)
    (inside : LatchOp.accept [.call] ops = some [.call]) :
    Balanced w (.lock .call :: ops) w' := by
  constructor
  · rw [holds, holds, before, after]
    exact inside
  · rw [held, held, before, after, latch, if_pos rfl, if_neg Bool.false_ne_true]
    omega

theorem Balanced.of_unlock {w w' : Playback} {ops : List LatchOp} (before : w.requested = true)
    (after : w'.requested = false) (latch : w'.latch = w.latch - 1)
    (inside : LatchOp.accept [.call] ops = some []) : Balanced w ops w' := by
  constructor
  · rw [holds, holds, before, after]
    exact inside
  · rw [held, held, before, after, latch, if_pos rfl, if_neg Bool.false_ne_true]
    omega

theorem seekOps_accepted (w : Playback) (offset : Int) (whence : Whence) (answer : SeekAnswer) :
    LatchOp.accept [] (w.seekOps offset whence answer) = some [] := by
  unfold seekOps
  cases w.transfer.seekCheck offset whence with
  | some result => rfl
  | none =>
    simp only
    split
    · rfl
    · split
      · rfl
      · cases answer <;> rfl

theorem responseOps_accepted (w : Playback) (arrives : Bool) :
    LatchOp.accept [.call] (w.responseOps arrives) = some [] := by
  unfold responseOps
  split <;> rfl

theorem transferSeek_flags (w : Playback) (offset : Int) (whence : Whence) (answer : SeekAnswer) :
    (w.transferSeek offset whence answer).2.latch = w.latch ∧
      (w.transferSeek offset whence answer).2.call = w.call := by
  unfold transferSeek
  cases w.transfer.seekCheck offset whence with
  | some result => exact ⟨rfl, rfl⟩
  | none =>
    simp only
    split
    · exact ⟨rfl, rfl⟩
    · split
      · exact ⟨rfl, rfl⟩
      · cases answer <;> exact ⟨rfl, rfl⟩

theorem dropResponse_flags (w : Playback) (b : Block) (arrives : Bool) :
    (w.dropResponse b arrives).latch = w.latch - (if b.request then 1 else 0) ∧
      (w.dropResponse b arrives).transfer = w.transfer := by
  unfold dropResponse
  cases b.request with
  | false => exact ⟨(Int.sub_zero _).symm, rfl⟩
  | true =>
    simp only [if_true]
    split <;> exact ⟨rfl, rfl⟩

theorem requestBlock_latch (w : Playback) (n : Nat) (sent : Bool) :
    (w.transferRequestBlock75 n sent).2.latch = w.latch := by
  unfold transferRequestBlock75
  split
  · rfl
  · split <;> rfl

/-- A call that is begun has locked the latch when it asked for a block. -/
theorem startBlock_cases (w : Playback) (n : Nat) (sent : Bool) :
    (∃ outcome, w.startBlock n sent = (some outcome, w)) ∨
      (∃ b : Block, b.request = false ∧ w.startBlock n sent = (none, { w with call := some b })) ∨
      ∃ (b : Block) (w' : Playback), b.request = true ∧ w'.latch = w.latch + 1 ∧
        w.startBlock n sent = (none, { w' with call := some b }) := by
  unfold startBlock
  split
  · exact .inl ⟨_, rfl⟩
  · split
    · exact .inl ⟨_, rfl⟩
    · simp only
      generalize (if n > transferRcvBuf then transferRcvBuf else n) = n
      split
      · exact .inr (.inr ⟨_, _, rfl, requestBlock_latch _ n sent, rfl⟩)
      · exact .inr (.inl ⟨_, rfl, rfl⟩)

theorem pollStep_flags (w : Playback) (b : Block) (p : PollResult) :
    ((∃ data arrives, p = .ready data (.readable arrives)) ∧ b.request = true ∧
        (w.pollStep b p).2.2.request = false ∧ (w.pollStep b p).2.1.latch = w.latch - 1) ∨
      (¬ ((∃ data arrives, p = .ready data (.readable arrives)) ∧ b.request = true) ∧
        (w.pollStep b p).1 = false ∧ (w.pollStep b p).2.2.request = b.request ∧
        (w.pollStep b p).2.1.latch = w.latch) := by
  cases p with
  | error => exact .inr ⟨by simp, rfl, rfl, rfl⟩
  | timeout =>
    refine .inr ⟨by simp, ?_⟩
    simp only [pollStep]
    split <;> exact ⟨rfl, rfl, rfl⟩
  | ready data control =>
    obtain ⟨request, latch, -⟩ := checkData_flags w { b with data := false } data
    simp only [pollStep]
    rcases checkResponse_flags (w.checkData { b with data := false } data).1
        (w.checkData { b with data := false } data).2 control with
      ⟨⟨arrives, rfl⟩, asked, cleared, released⟩ | ⟨kept, stays, flag, same⟩
    · exact .inl ⟨⟨data, arrives, rfl⟩, request.symm.trans asked, cleared, by rw [released, latch]⟩
    · refine .inr ⟨?_, stays, flag.trans request, same.trans latch⟩
      rintro ⟨⟨_, arrives, readable⟩, asked⟩
      exact kept ⟨⟨arrives, (PollResult.ready.inj readable).2⟩, request.trans asked⟩

theorem pollStep_released (w : Playback) (b : Block) (p : PollResult)
    (leaves : Leaves (w.pollStep b p)) :
    ¬ ((w.pollStep b p).2.2.ok = true ∧ (w.pollStep b p).2.2.request = true) := by
  rintro ⟨ok, request⟩
  rcases pollStep_flags w b p with ⟨-, -, cleared, -⟩ | ⟨-, stays, -, -⟩
  · exact absurd (request.symm.trans cleared) (by simp)
  · rcases leaves with left | ended
    · exact absurd (left.symm.trans stays) (by simp)
    · exact ended ⟨ok, .inl request⟩

theorem continueBlock_held {left : Bool} {w : Playback} {b : Block}
    (released : Leaves (left, w, b) → ¬ (b.ok = true ∧ b.request = true)) :
    (continueBlock left w b).2.requested = b.request ∧
      (continueBlock left w b).2.latch = w.latch := by
  unfold continueBlock
  split
  · exact ⟨rfl, rfl⟩
  · rename_i returns
    refine ⟨?_, rfl⟩
    rw [not_or, not_not, not_and_or, not_not] at returns
    have leaves : Leaves (left, w, b) := by
      rcases returns.2 with left | ended
      · exact .inl left
      · exact .inr fun stays => ended stays.2
    have cleared := released leaves
    simp only [returns.1, true_and] at cleared
    exact (Bool.eq_false_of_not_eq_true cleared).symm

theorem startBlock_balanced {w : Playback} (idle : w.requested = false) (n : Nat) (sent : Bool) :
    Balanced w
      (if (w.startBlock n sent).2.requested then
        .lock .call :: if w.transfer.isOpen ∧ ¬ sent then hangOps else []
      else []) (w.startBlock n sent).2 := by
  rcases startBlock_cases w n sent with ⟨outcome, same⟩ | ⟨b, clear, same⟩ |
    ⟨b, w', request, locked, same⟩
  · rw [same, if_neg (by simp [idle])]
    exact .of_same rfl rfl
  · have after : requested { w with call := some b } = false := clear
    rw [same, if_neg (by simp [after])]
    exact .of_same rfl (after.trans idle.symm)
  · have after : requested { w' with call := some b } = true := request
    rw [same, if_pos after]
    refine .of_lock idle after locked ?_
    split <;> rfl

/-- Only a turn that reads the response releases the latch. -/
theorem latchOps_poll {w : Playback} {b : Block} (called : w.call = some b) {p : PollResult}
    (kept : ¬ ((∃ data arrives, p = .ready data (.readable arrives)) ∧
      b.ok = true ∧ b.request = true)) : w.latchOps (.poll p) = [] := by
  cases p with
  | error => simp only [latchOps, called]
  | timeout => simp only [latchOps, called]
  | ready data control =>
    cases control with
    | none => simp only [latchOps, called]
    | broken => simp only [latchOps, called]
    | readable arrives =>
      simp only [latchOps, called]
      exact if_neg fun reads => kept ⟨⟨data, arrives, rfl⟩, reads⟩

theorem poll_balanced {w : Playback} {b : Block} (called : w.call = some b) (ok : b.ok = true)
    (p : PollResult) {polled : Bool × Playback × Block} (step : w.pollStep b p = polled) :
    Balanced w (w.latchOps (.poll p)) (continueBlock polled.1 polled.2.1 polled.2.2).2 := by
  subst step
  have before : w.requested = b.request := by simp only [requested, called]
  obtain ⟨request, latch⟩ := continueBlock_held (pollStep_released w b p)
  rcases pollStep_flags w b p with ⟨⟨data, arrives, rfl⟩, asked, cleared, released⟩ |
    ⟨kept, -, flag, same⟩
  · have unlocks :
        w.latchOps (.poll (.ready data (.readable arrives))) = w.responseOps arrives := by
      simp only [latchOps, called, ok, asked, and_self, if_true]
    rw [unlocks]
    exact .of_unlock (before.trans asked) (request.trans cleared) (latch.trans released)
      (responseOps_accepted w arrives)
  · rw [latchOps_poll called fun ⟨readable, reads⟩ => kept ⟨readable, reads.2⟩]
    exact .of_same (latch.trans same) ((request.trans flag).trans before.symm)

theorem recover_balanced {w : Playback} {b : Block} (called : w.call = some b)
    (arrives : Bool) (answer : SeekAnswer) :
    Balanced w
      ((if b.request then w.responseOps arrives else []) ++
        (w.dropResponse b arrives).seekOps b.filePosition .SET answer ++
        if ((w.dropResponse b arrives).transferSeek b.filePosition .SET answer).1 < 0 then hangOps
          else [])
      (w.recover b arrives answer).2 := by
  obtain ⟨dropped, -⟩ := dropResponse_flags w b arrives
  obtain ⟨sought, -⟩ := transferSeek_flags (w.dropResponse b arrives) b.filePosition .SET answer
  have latch : (w.recover b arrives answer).2.latch = w.latch - (if b.request then 1 else 0) := by
    simp only [recover]
    split
    · exact sought.trans dropped
    · exact sought.trans dropped
  constructor
  · have response : LatchOp.accept w.holds (if b.request then w.responseOps arrives else []) =
        some [] := by
      simp only [holds, requested, called]
      cases b.request with
      | false => rfl
      | true => exact responseOps_accepted w arrives
    have seek := seekOps_accepted (w.dropResponse b arrives) b.filePosition .SET answer
    rw [accept_append, accept_append, response, Option.bind_some, seek, Option.bind_some]
    split
    · exact hangOps_accepted Nat.two_pos
    · rfl
  · rw [latch, held_some called, held_none rfl]
    omega

theorem event_balanced (file : Int → UInt8) (w : Playback) (e : PlaybackEvent) :
    Balanced w (w.latchOps e) (w.event file e).2 := by
  cases e with
  | serve rlen =>
    simp only [latchOps, event, serve]
    split
    · exact .of_same rfl rfl
    · split <;> exact .of_same rfl rfl
  | requestBlock n sent =>
    cases called : w.call with
    | none =>
      simp only [latchOps, event, called]
      exact startBlock_balanced (by simp [requested, called]) n sent
    | some b =>
      simp only [latchOps, event, called]
      exact .of_same rfl rfl
  | seek offset whence answer =>
    cases called : w.call with
    | none =>
      obtain ⟨latch, same⟩ := transferSeek_flags w offset whence answer
      have idle (w' : Playback) (same : w'.call = w.call) : w'.requested = false := by
        simp [requested, same, called]
      simp only [latchOps, event, called]
      constructor
      · rw [holds, holds, idle w rfl, idle _ same]
        exact seekOps_accepted w offset whence answer
      · rw [latch, held, held, idle w rfl, idle _ same]
    | some b =>
      simp only [latchOps, event, called]
      exact .of_same rfl rfl
  | poll p =>
    cases called : w.call with
    | none =>
      simp only [latchOps, event, called]
      exact .of_same rfl rfl
    | some b =>
      simp only [event, called]
      cases ok : b.ok with
      | true => exact poll_balanced called ok p rfl
      | false =>
        have unread : ¬ ((∃ data arrives, p = .ready data (.readable arrives)) ∧
            b.ok = true ∧ b.request = true) := by
          rintro ⟨-, still, -⟩
          exact absurd (ok.symm.trans still) (by simp)
        rw [latchOps_poll called unread]
        exact .of_same rfl rfl
  | recover arrives answer =>
    cases called : w.call with
    | none =>
      simp only [latchOps, event, called]
      exact .of_same rfl rfl
    | some b =>
      simp only [latchOps, event, called]
      cases ok : b.ok with
      | true => exact .of_same rfl rfl
      | false => exact recover_balanced called arrives answer

theorem event_released (w : Playback) (e : PlaybackEvent) : w.ReleasedAtExit e := by
  cases e with
  | poll p => exact fun b _ _ leaves => pollStep_released w b p leaves
  | serve rlen => trivial
  | requestBlock n sent => trivial
  | seek offset whence answer => trivial
  | recover arrives answer => trivial

theorem run_accepted (file : Int → UInt8) (w : Playback) (events : List PlaybackEvent) :
    LatchOp.accept w.holds ((latchMachine file).observations w events).flatten =
      some ((latchMachine file).final w events).holds := by
  induction events generalizing w with
  | nil => rfl
  | cons e rest ih =>
    have first : LatchOp.accept w.holds ((latchMachine file).step w e).1 =
        some ((latchMachine file).step w e).2.holds := (event_balanced file w e).accepted
    rw [Machine.observations, List.flatten_cons, accept_append, first, Option.bind_some]
    exact ih _

/-- In every run the call holds the latch while its flag is set and at no other time; it locks
it before the request and gives it back when the response is read or dropped. What locks the
latch meanwhile gives it back in its own scope. When no call is out the count is what it was. -/
theorem latch_balanced (file : Int → UInt8) (w : Playback) (events : List PlaybackEvent) :
    LatchOp.accept w.holds ((latchMachine file).observations w events).flatten =
        some ((latchMachine file).final w events).holds ∧
      ((latchMachine file).final w events).latch =
        w.latch - w.held + ((latchMachine file).final w events).held ∧
      (latchMachine file).Guarded ReleasedAtExit w events := by
  have released : (latchMachine file).Guarded ReleasedAtExit w events := by
    induction events generalizing w with
    | nil => trivial
    | cons e rest ih => exact ⟨event_released w e, ih _⟩
  refine ⟨run_accepted file w events, ?_, released⟩
  have entry := (latchMachine file).final_invariant
    (I := fun s => s.latch - s.held = w.latch - w.held)
    (fun s e same => (event_balanced file s e).entry.trans same) rfl events
  omega

/-- A request that cannot be sent hangs up while the call holds the latch. -/
theorem not_always_once :
    ¬ ∀ (file : Int → UInt8) (w : Playback) (events : List PlaybackEvent),
      LatchOp.acceptOnce w.requested ((latchMachine file).observations w events).flatten =
        some ((latchMachine file).final w events).requested := by
  intro claim
  exact absurd (claim tenBytes (opened tenTransfer) [.requestBlock 4 false]) (by decide)

end Playback

end CppMyth
