import CppMyth.LiveTV.Switch

/-! The look-ahead of `_read`. The position of the file is taken once, before the first wait,
and an empty file is not asked for at all: what the backend has written is compared with the
file it belongs to while the call does not come to the end of another file. -/
namespace CppMyth
open Library

/-- The read position compared is the file's own, and a timeout leaves no byte behind. -/
def LookAhead.Sound (o : LookAhead) : Prop :=
  (∀ c, o.compared = some c → c.1 = c.2) ∧ ∀ e, o.timedOut = some e → e.1 ≤ e.2

/-- The backend opens the file and announces bytes. -/
def Announced.Filled (announced : Announced) : Prop :=
  ∃ fileId fileSize, announced = .accepted fileId fileSize ∧ 0 < fileSize

/-- The file is open with bytes, or is opened with some. -/
def ProtoTransfer.Filled (t : ProtoTransfer) (announced : Announced) : Prop :=
  t.isOpen = true ∧ 0 < t.fileSize ∨ t.isOpen = false ∧ announced.Filled

namespace LiveTVPlayback

variable {D : Type}

end LiveTVPlayback

namespace Reading

variable {D : Type}

end Reading

namespace LiveTVPlayback

variable {D : Type} {s : LiveTVPlayback D}

/-- The file of `s` is still watched, at its position and with no byte less, or another file
follows. -/
def Remains (s s' : LiveTVPlayback D) : Prop :=
  ∀ u', s'.current = some u' → s'.chain.currentSequence < s'.chain.lastSequence ∨
    s'.chain.currentSequence = s.chain.currentSequence ∧
      s'.chain.lastSequence = s.chain.lastSequence ∧
      ∃ u, s.current = some u ∧ u'.filePosition = u.filePosition ∧ u.fileSize ≤ u'.fileSize

theorem Remains.same {s' : LiveTVPlayback D}
    (sequence : s'.chain.currentSequence = s.chain.currentSequence)
    (last : s'.chain.lastSequence = s.chain.lastSequence) (current : s'.current = s.current) :
    Remains s s' :=
  fun u found => .inr ⟨sequence, last, u, current.symm.trans found, rfl, Int.le_refl _⟩

theorem Remains.grown {a : Nat} {newsize : Int} (more : (s.transfers a).fileSize < newsize) :
    Remains s (s.setTransfer a { s.transfers a with fileSize := newsize }) := by
  intro u found
  refine .inr ⟨rfl, rfl, ?_⟩
  unfold LiveTVPlayback.current at found ⊢
  cases transfer : s.chain.currentTransfer with
  | none =>
    have none : (s.setTransfer a { s.transfers a with
        fileSize := newsize }).chain.currentTransfer = none := transfer
    rw [none] at found
    cases found
  | some b =>
    have watched : (s.setTransfer a { s.transfers a with
        fileSize := newsize }).chain.currentTransfer = some b := transfer
    rw [watched] at found
    refine ⟨s.transfers b, rfl, ?_⟩
    rw [← Option.some.inj found]
    by_cases hit : b = a
    · subst hit
      simp only [setTransfer, Function.update_self, true_and]
      exact Int.le_of_lt more
    · simp [setTransfer, Function.update_of_ne hit]

end LiveTVPlayback

namespace Reading

variable {D : Type}

theorem expire_back {r : Reading D} (waits : r.frame.phase = .wait) {s : LiveTVPlayback D}
    {u : ProtoTransfer} (current : s.current = some u) (written : Int) (timeUp : Bool) :
    (r.frame.expire timeUp).phase = .back (.bytes []) ↔
      s.late written timeUp = some (written, u.filePosition) := by
  unfold ReadFrame.expire LiveTVPlayback.late
  cases timeUp with
  | false => simp [waits]
  | true => simp [current, ReadFrame.back]

/-- The wait returns 0 when it times out, and only then. -/
theorem wait_back {r : Reading D} (waits : r.frame.phase = .wait) (t : Turn D) {u : ProtoTransfer}
    (current : (r.wait t).2.playback.current = some u) :
    (r.wait t).2.frame.phase = .back (.bytes []) ↔
      (r.wait t).1.timedOut = some (t.filePosition, u.filePosition) := by
  revert current
  simp only [wait]
  generalize decide (r.playback.chain.currentSequence = r.playback.chain.lastSequence) = ahead
  have named : ({ r with frame.ahead := ahead } : Reading D).frame.phase = .wait := waits
  split
  · split
    · simp only [lookAhead]
      split
      · split <;> simp
      · intro current
        exact expire_back named current t.filePosition t.timeUp
    · split
      · simp only [pollChain]
        split
        · simp
        · split
          · simp
          · intro current
            exact expire_back named current t.filePosition t.timeUp
      · intro current
        exact expire_back named current t.filePosition t.timeUp
  · intro _
    simp only [switchNext]
    split
    · simp [ReadFrame.back]
    · split <;> simp

end Reading

end CppMyth
