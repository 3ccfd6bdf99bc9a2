import CppMyth.Builtin

/-! The state of a file transfer, `mythprototransfer.cpp`, and the arithmetic of its seek.
Positions and sizes are integers: a sum that leaves the range of `int64_t` is outside the
file, and so is what the machine makes of it. -/
namespace CppMyth

/-- `WHENCE_t` -/
inductive Whence where
  | SET | CUR | END
  deriving DecidableEq, Repr

structure ProtoTransfer where
  pathName : List UInt8
  storageGroupName : List UInt8
  isOpen : Bool := false
  fileId : UInt32 := 0
  fileSize : Int := 0
  filePosition : Int := 0
  fileRequest : Int := 0
  deriving DecidableEq

/-- How the backend takes the connection and the announcement of a transfer. -/
inductive Announced where
  | unreachable
  | refused
  | accepted (fileId : UInt32) (fileSize : Int)

namespace ProtoTransfer

def close (t : ProtoTransfer) : ProtoTransfer :=
  { t with isOpen := false, filePosition := 0, fileRequest := 0, fileId := 0 }

/-- `Open`. The announcement resets the counters before it is sent. -/
def openTransfer (t : ProtoTransfer) (announced : Announced) : Bool × ProtoTransfer :=
  if t.isOpen then (true, t)
  else
    match announced with
    | .unreachable => (false, t)
    | .refused => (false, close { t with fileSize := 0 })
    | .accepted fileId fileSize =>
      (true, { t with isOpen := true, fileId, fileSize, filePosition := 0, fileRequest := 0 })

def getRemaining (t : ProtoTransfer) : Int := t.fileSize - t.filePosition

def unread (t : ProtoTransfer) : Nat := (t.fileRequest - t.filePosition).toNat

/-- The offset check of TransferSeek75: what it returns without asking the backend. -/
def seekCheck (t : ProtoTransfer) (offset : Int) : Whence → Option Int
  | .CUR =>
    if offset = 0 then some t.filePosition
    else
      let position := t.filePosition + offset
      if position < 0 ∨ position > t.fileSize then some (-1) else none
  | .SET =>
    if offset = t.filePosition then some t.filePosition
    else if offset < 0 ∨ offset > t.fileSize then some (-1)
    else none
  | .END =>
    let position := t.fileSize - offset
    if position < 0 ∨ position > t.fileSize then some (-1) else none

/-- The counters after the backend moved: Flush, SetRequested and SetPosition. -/
def reset (t : ProtoTransfer) (position : Int) : ProtoTransfer :=
  { t with fileRequest := position, filePosition := position }

/-- TransferSeek75. `reply` is the position read from the answer, if there is one. -/
def transferSeek (t : ProtoTransfer) (offset : Int) (whence : Whence) (reply : Option Int) :
    Int × ProtoTransfer :=
  match t.seekCheck offset whence with
  | some result => (result, t)
  | none =>
    if ¬ t.isOpen then (-1, t)
    else
      match reply with
      | none => (-1, t)
      | some position => (position, t.reset position)

/-- The position that a seek asks the backend for. -/
def target (t : ProtoTransfer) (offset : Int) : Whence → Int
  | .SET => offset
  | .CUR => t.filePosition + offset
  | .END => t.fileSize - offset

@[simp] theorem close_pathName (t : ProtoTransfer) : t.close.pathName = t.pathName := rfl

@[simp] theorem openTransfer_pathName (t : ProtoTransfer) (announced : Announced) :
    (t.openTransfer announced).2.pathName = t.pathName := by
  unfold openTransfer
  split
  · rfl
  · cases announced <;> rfl

@[simp] theorem transferSeek_pathName (t : ProtoTransfer) (offset : Int) (whence : Whence)
    (reply : Option Int) : (t.transferSeek offset whence reply).2.pathName = t.pathName := by
  unfold transferSeek
  cases t.seekCheck offset whence with
  | some result => rfl
  | none =>
    by_cases closed : ¬ t.isOpen
    · simp only [if_pos closed]
    · cases reply <;> simp only [if_neg closed, reset]

/-- A seek to the position `q` of the file: it is there already, or it moves where the backend
says. -/
def moveTo (t : ProtoTransfer) (q : Int) (reply : Option Int) : Int × ProtoTransfer :=
  if q = t.filePosition then (q, t)
  else if t.isOpen = true ∧ 0 ≤ q ∧ q ≤ t.fileSize then
    match reply with
    | none => (-1, t)
    | some r => (r, t.reset r)
  else (-1, t)

/-- Past the check whether it is there, a seek is checked for the range and the connection. -/
theorem moveTo_away {t : ProtoTransfer} {q : Int} (away : q ≠ t.filePosition) {offset : Int}
    {whence : Whence} (check : t.seekCheck offset whence =
      if q < 0 ∨ q > t.fileSize then some (-1) else none) (reply : Option Int) :
    t.transferSeek offset whence reply = t.moveTo q reply := by
  simp only [transferSeek, check, moveTo, if_neg away]
  by_cases out : q < 0 ∨ q > t.fileSize
  · have refused : ¬ (t.isOpen = true ∧ 0 ≤ q ∧ q ≤ t.fileSize) := by omega
    simp only [if_pos out, if_neg refused]
  · have inside : 0 ≤ q ∧ q ≤ t.fileSize := by omega
    simp only [if_neg out]
    cases isOpen : t.isOpen with
    | false => simp
    | true => cases reply <;> simp [inside]

theorem transferSeek_set (t : ProtoTransfer) (q : Int) (reply : Option Int) :
    t.transferSeek q .SET reply = t.moveTo q reply := by
  by_cases here : q = t.filePosition
  · simp [transferSeek, seekCheck, moveTo, here]
  · have check : t.seekCheck q .SET = if q < 0 ∨ q > t.fileSize then some (-1) else none :=
      if_neg here
    exact moveTo_away here check reply

theorem transferSeek_cur (t : ProtoTransfer) (q : Int) (reply : Option Int) :
    t.transferSeek (q - t.filePosition) .CUR reply = t.moveTo q reply := by
  by_cases here : q = t.filePosition
  · simp [transferSeek, seekCheck, moveTo, here]
  · have moves : q - t.filePosition ≠ 0 := by omega
    have position : t.filePosition + (q - t.filePosition) = q := by omega
    refine moveTo_away here ?_ reply
    rw [seekCheck, if_neg moves, position]

/-- When the backend accepts the seek, the file is at the position afterwards. -/
theorem moveTo_accepted {t : ProtoTransfer} (isOpen : t.isOpen = true) {q : Int} (nonneg : 0 ≤ q)
    (within : q ≤ t.fileSize) :
    (t.moveTo q (some q)).1 = q ∧ (t.moveTo q (some q)).2.filePosition = q := by
  unfold moveTo
  split
  · rename_i here
    exact ⟨rfl, here.symm⟩
  · rw [if_pos ⟨isOpen, nonneg, within⟩]
    exact ⟨rfl, rfl⟩

end ProtoTransfer

end CppMyth
