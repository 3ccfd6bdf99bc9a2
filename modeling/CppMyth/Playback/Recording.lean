import CppMyth.Types
import CppMyth.Playback.Stream

/-! A recording as a stream, `mythrecordingplayback.cpp`: one transfer behind the buffer. -/
namespace CppMyth
open Library

structure RecordingPlayback (D : Type) where
  transfer : Option ProtoTransfer := none
  recording : Option (Program D) := none
  readAhead : Bool := false

/-- The calls that open and close the transfer, and the event EVENT_UPDATE_FILE_SIZE. -/
inductive RecordingCall (D : Type) where
  | openTransfer (isOpen : Bool) (recording : Option (Program D)) (announced : Announced)
  | closeTransfer
  | updateFileSize (subject : List (List UInt8))

namespace RecordingPlayback

variable {D : Type}

def closeTransfer (s : RecordingPlayback D) : RecordingPlayback D :=
  { s with recording := none, transfer := none }

/-- OpenTransfer; `isOpen` says that the control connection is. -/
def openTransfer (s : RecordingPlayback D) (isOpen : Bool) (recording : Option (Program D))
    (announced : Announced) : Bool × RecordingPlayback D :=
  if ¬ isOpen then (false, s)
  else
    let s := s.closeTransfer
    match recording with
    | none => (false, s)
    | some recording =>
      let transfer : ProtoTransfer :=
        { pathName := recording.fileName, storageGroupName := recording.recording.storageGroup }
      let opened := transfer.openTransfer announced
      if opened.1 then
        (true, { s with
          transfer := some opened.2
          recording := some { recording with fileSize := Int64.ofInt opened.2.fileSize } })
      else (false, s)

/-- The new size in a message UPDATE_FILE_SIZE about the recording. -/
def newSize (stringToTime : List UInt8 → Option Int64) (recording : Program D) :
    List (List UInt8) → Option Int
  -- Message contains chanid + starttime as recorded key
  | _ :: chanid :: startts :: size :: _ =>
    match (stringToUint32 chanid).toOption, stringToTime startts,
      (stringToInt64 size).toOption with
    | some chanid, some startts, some newsize =>
      if recording.channel.chanId ≠ chanid ∨ recording.recording.startTs ≠ startts then none
      else some newsize.toInt
    | _, _, _ => none
  -- Message contains recordedid as key
  | [_, recordedid, size] =>
    match (stringToUint32 recordedid).toOption, (stringToInt64 size).toOption with
    | some recordedid, some newsize =>
      if recording.recording.recordedId ≠ recordedid then none else some newsize.toInt
    | _, _ => none
  | _ => none

def updateFileSize (stringToTime : List UInt8 → Option Int64) (s : RecordingPlayback D)
    (subject : List (List UInt8)) : RecordingPlayback D :=
  match s.recording, s.transfer with
  | some recording, some transfer =>
    match newSize stringToTime recording subject with
    | none => s
    | some newsize =>
      -- The file grows. Allow reading ahead
      { readAhead := true
        transfer := some { transfer with fileSize := newsize }
        recording := some { recording with fileSize := Int64.ofInt newsize } }
  | _, _ => s

def call (stringToTime : List UInt8 → Option Int64) (s : RecordingPlayback D) :
    RecordingCall D → Option Bool × RecordingPlayback D
  | .openTransfer isOpen recording announced =>
    let opened := s.openTransfer isOpen recording announced
    (some opened.1, opened.2)
  | .closeTransfer => (none, s.closeTransfer)
  | .updateFileSize subject => (none, s.updateFileSize stringToTime subject)

/-- Request block data from transfer socket -/
def requestBlock (s : RecordingPlayback D) (transfer : ProtoTransfer) (n : Nat)
    (answer : ProtoTransfer → BlockAnswer) : ReadResult × RecordingPlayback D :=
  let r := transfer.requestBlock n answer
  (r.1, { s with transfer := some r.2 })

/-- `_read` -/
def readTransfer (answer : ProtoTransfer → BlockAnswer) (s : RecordingPlayback D) (n : Nat) :
    ReadResult × RecordingPlayback D :=
  match s.transfer with
  | none => (.failed, s)
  | some transfer =>
    if ¬ s.readAhead then
      let rest := transfer.getRemaining -- Acceptable block size
      if rest > 0 then s.requestBlock transfer (if rest < n then rest.toNat else n) answer
      else (.bytes [], s)
    else s.requestBlock transfer n answer

/-- `_seek` -/
def seekTransfer (reply : Int → Option Int) (s : RecordingPlayback D) (offset : Int)
    (whence : Whence) : Int × RecordingPlayback D :=
  match s.transfer with
  | none => (-1, s)
  | some transfer =>
    let sought := transfer.transferSeek offset whence (reply (transfer.target offset whence))
    (sought.1, { s with transfer := some sought.2 })

def getSize (s : RecordingPlayback D) : Int :=
  match s.transfer with
  | some transfer => transfer.fileSize
  | none => 0

/-- It is the position of the first byte in the buffer. -/
def position (s : RecordingPlayback D) (unread : Nat) : Int :=
  match s.transfer with
  | some transfer => transfer.filePosition - unread
  | none => 0

theorem readTransfer_bounded (answer : ProtoTransfer → BlockAnswer) (s : RecordingPlayback D)
    (n : Nat) (data : List UInt8) (got : (s.readTransfer answer n).1 = .bytes data) :
    data.length ≤ n := by
  unfold readTransfer at got
  cases transfer : s.transfer with
  | none => simp [transfer] at got
  | some t =>
    simp only [transfer] at got
    split at got
    · split at got
      · have bound := t.requestBlock_bounded _ answer got
        split at bound <;> omega
      · obtain rfl := ReadResult.bytes.inj got
        exact Nat.zero_le n
    · exact t.requestBlock_bounded n answer got

/-- A recording behind the buffer. -/
def backing (stringToTime : List UInt8 → Option Int64) :
    Backing (RecordingPlayback D) (RecordingCall D) (ProtoTransfer → BlockAnswer)
      (Int → Option Int) where
  call := call stringToTime
  source answer := ⟨readTransfer answer, readTransfer_bounded answer⟩
  move reply _ s offset whence := s.seekTransfer reply offset whence
  getSize := getSize
  position := position

theorem chunks_valid : chunks.Valid := by
  constructor <;> decide

variable {stringToTime : List UInt8 → Option Int64}

def reached (stringToTime : List UInt8 → Option Int64)
    (ops : List (StreamOp (RecordingCall D) (ProtoTransfer → BlockAnswer) (Int → Option Int))) :
    Stream (RecordingPlayback D) :=
  (backing stringToTime).reached chunks {} ops

/-- The transfer of a recording is open as long as it is there. -/
def Opened (s : RecordingPlayback D) : Prop := ∀ t, s.transfer = some t → t.isOpen = true

theorem openTransfer_isOpen {t : ProtoTransfer} {announced : Announced}
    (opened : (t.openTransfer announced).1 = true) :
    (t.openTransfer announced).2.isOpen = true := by
  unfold ProtoTransfer.openTransfer at opened ⊢
  split at opened
  · rename_i isOpen
    rw [if_pos isOpen]
    exact isOpen
  · rename_i closed
    rw [if_neg closed]
    cases announced with
    | unreachable => cases opened
    | refused => cases opened
    | accepted fileId fileSize => rfl

theorem requestBlock_isOpen (t : ProtoTransfer) (n : Nat) (answer : ProtoTransfer → BlockAnswer) :
    (t.requestBlock n answer).2.isOpen = t.isOpen := by
  unfold ProtoTransfer.requestBlock
  split
  · rfl
  · split <;> rfl

theorem transferSeek_isOpen (t : ProtoTransfer) (offset : Int) (whence : Whence)
    (reply : Option Int) : (t.transferSeek offset whence reply).2.isOpen = t.isOpen := by
  unfold ProtoTransfer.transferSeek
  split
  · rfl
  · split
    · rfl
    · split <;> rfl

theorem Opened.call {s : RecordingPlayback D} (h : s.Opened)
    (stringToTime : List UInt8 → Option Int64) (c : RecordingCall D) :
    (s.call stringToTime c).2.Opened := by
  have closed : s.closeTransfer.Opened := fun t none => absurd none (by simp [closeTransfer])
  cases c with
  | closeTransfer => exact closed
  | openTransfer isOpen recording announced =>
    simp only [RecordingPlayback.call, openTransfer]
    split
    · exact h
    · cases recording with
      | none => exact closed
      | some recording =>
        simp only
        split
        · rename_i opened
          intro t held
          obtain rfl := Option.some.inj held
          exact openTransfer_isOpen opened
        · exact closed
  | updateFileSize subject =>
    simp only [RecordingPlayback.call, updateFileSize]
    split
    · rename_i recording transfer _ held
      split
      · exact h
      · intro t sized
        obtain rfl := Option.some.inj sized
        exact h transfer held
    · exact h

theorem Opened.readTransfer {s : RecordingPlayback D} (h : s.Opened)
    (answer : ProtoTransfer → BlockAnswer) (n : Nat) : (s.readTransfer answer n).2.Opened := by
  have block {t : ProtoTransfer} (held : s.transfer = some t) (n : Nat) :
      (s.requestBlock t n answer).2.Opened := by
    intro u moved
    obtain rfl := Option.some.inj moved
    exact (requestBlock_isOpen t n answer).trans (h t held)
  unfold RecordingPlayback.readTransfer
  cases held : s.transfer with
  | none => exact h
  | some t =>
    simp only
    split
    · split
      · exact block held _
      · exact h
    · exact block held n

theorem Opened.seekTransfer {s : RecordingPlayback D} (h : s.Opened) (reply : Int → Option Int)
    (offset : Int) (whence : Whence) : (s.seekTransfer reply offset whence).2.Opened := by
  unfold RecordingPlayback.seekTransfer
  cases held : s.transfer with
  | none => exact h
  | some t =>
    intro u moved
    obtain rfl := Option.some.inj moved
    exact (transferSeek_isOpen t offset whence _).trans (h t held)

theorem reached_opened (stringToTime : List UInt8 → Option Int64)
    (ops : List (StreamOp (RecordingCall D) (ProtoTransfer → BlockAnswer) (Int → Option Int))) :
    (reached stringToTime ops).playback.Opened := by
  have initial : ({} : RecordingPlayback D).Opened := fun t none => absurd none (by simp)
  refine (backing stringToTime).reached_invariant chunks_valid (I := Opened) ?_ ?_ ?_ initial ops
  · intro s c h
    exact h.call stringToTime c
  · intro answer s n h
    exact h.readTransfer answer n
  · intro reply unread s offset whence h
    exact h.seekTransfer reply offset whence

/-- The bytes ahead come off the position of a transfer, and there are not more than it read. -/
def Backed (s : Stream (RecordingPlayback D)) : Prop :=
  ∃ t, s.playback.transfer = some t ∧
    (s.buffer.unread.toNat = 0 ∨ (s.buffer.unread.toNat : Int) ≤ t.filePosition)

theorem seek_here (stringToTime : List UInt8 → Option Int64) (s : Stream (RecordingPlayback D))
    (reply : Int → Option Int) :
    ((backing stringToTime).seek s 0 .CUR reply).2 = s ∧
      (((backing stringToTime).seek s 0 .CUR reply).1 = (backing stringToTime).getPosition s ↔
        Backed s) := by
  obtain ⟨⟨transfer, recording, readAhead⟩, buffer⟩ := s
  rw [Backing.seek_here]
  cases transfer with
  | none =>
    have below : ¬ (buffer.unread.toNat : Int) ≤ -1 := by omega
    simp [backing, seekTransfer, Backing.getPosition, position, Backed, below]
  | some t =>
    have stays (r : Option Int) : t.transferSeek 0 .CUR r = (t.filePosition, t) := by
      simp [ProtoTransfer.transferSeek, ProtoTransfer.seekCheck]
    simp only [backing, seekTransfer, stays, Backing.getPosition, position, Backed, true_and,
      Option.some.injEq, exists_eq_left']
    split
    · simp_all
    · omega

/-- Where both seeks to `p` leave the stream. -/
def moved (s : Stream (RecordingPlayback D)) (t : ProtoTransfer) (p : Int) :
    Stream (RecordingPlayback D) :=
  ⟨{ s.playback with transfer := some (t.moveTo p (some p)).2 }, s.buffer.clear⟩

section

variable {s : Stream (RecordingPlayback D)} {a : ReadAhead} {t : ProtoTransfer}
  {reply : Int → Option Int}

theorem moved_position (stringToTime : List UInt8 → Option Int64)
    (h : Backing.Buffered chunks s a) (isOpen : t.isOpen = true) {p : Int} (nonneg : 0 ≤ p)
    (within : p ≤ t.fileSize) :
    (backing stringToTime).getPosition (moved s t p) = p := by
  have cleared : s.buffer.clear.unread.toNat = 0 := h.clear.unread chunks_valid.limit
  have position := (ProtoTransfer.moveTo_accepted isOpen nonneg within).2
  simpa [Backing.getPosition, backing, moved, RecordingPlayback.position, cleared] using position

theorem seek_set (stringToTime : List UInt8 → Option Int64) (h : Backing.Buffered chunks s a)
    (held : s.playback.transfer = some t)
    (isOpen : t.isOpen = true) (accepting : ∀ q, reply q = some q) {p : Int} (nonneg : 0 ≤ p)
    (within : p ≤ t.fileSize) :
    (backing stringToTime).seek s p .SET reply = (p, moved s t p) := by
  have result := (ProtoTransfer.moveTo_accepted isOpen nonneg within).1
  rw [(backing stringToTime).seek_away chunks_valid h (by simp)]
  simp only [backing, seekTransfer, held, ProtoTransfer.target, accepting, reduceCtorEq, if_false,
    ProtoTransfer.transferSeek_set, result, moved]

theorem seek_cur (stringToTime : List UInt8 → Option Int64) (h : Backing.Buffered chunks s a)
    (held : s.playback.transfer = some t)
    (isOpen : t.isOpen = true) (accepting : ∀ q, reply q = some q) {d p : Int} (away : d ≠ 0)
    (target : (backing stringToTime).getPosition s + d = p) (nonneg : 0 ≤ p)
    (within : p ≤ t.fileSize) :
    (backing stringToTime).seek s d .CUR reply = (p, moved s t p) := by
  have result := (ProtoTransfer.moveTo_accepted isOpen nonneg within).1
  simp only [Backing.getPosition, h.unread chunks_valid.limit, backing, position, held] at target
  have offset : d - a.bytes.length = p - t.filePosition := by omega
  have goal : t.target (p - t.filePosition) .CUR = p := by
    simp only [ProtoTransfer.target]
    omega
  rw [(backing stringToTime).seek_away chunks_valid h (by simp [away])]
  simp only [backing, seekTransfer, held, if_true, offset, goal, accepting,
    ProtoTransfer.transferSeek_cur, result, moved]

theorem lands_iff (h : Backing.Buffered chunks s a) (opened : s.playback.Opened)
    (accepting : ∀ q, reply q = some q) {d : Int}
    (nonneg : 0 ≤ (backing stringToTime).getPosition s + d)
    (within : (backing stringToTime).getPosition s + d ≤ s.playback.getSize) :
    (backing stringToTime).Lands s d reply ↔ (d = 0 → Backed s) := by
  obtain ⟨same, backed⟩ := seek_here stringToTime s reply
  cases held : s.playback.transfer with
  | none =>
    have stays : d = 0 := by
      simp only [Backing.getPosition, backing, position, held, getSize] at nonneg within
      omega
    subst stays
    have lost : ¬ Backed s := by
      rintro ⟨t, some_, -⟩
      exact absurd (held.symm.trans some_) (by simp)
    simp only [Backing.Lands, Int.add_zero, backed, lost, false_and, forall_const]
  | some t =>
    have isOpen := opened t held
    have inside : (backing stringToTime).getPosition s + d ≤ t.fileSize := by
      simpa only [getSize, held] using within
    have set_ := seek_set stringToTime h held isOpen accepting nonneg inside
    have position := moved_position stringToTime h isOpen nonneg inside
    by_cases away : d = 0
    · subst away
      rw [Int.add_zero] at set_ position
      simp only [Backing.Lands, Int.add_zero, set_, position, same, backed, and_true, forall_const]
    · have cur := seek_cur stringToTime h held isOpen accepting away rfl nonneg
        inside
      simp only [Backing.Lands, cur, set_, position, and_self, away, false_implies]

end

/-- What a refused seek may be, if the stream is to stay as it was: one that stays where it is,
or one with empty buffers, which the backend has not answered with another position. -/
def Harmless (s : Stream (RecordingPlayback D)) (offset : Int) (whence : Whence)
    (reply : Int → Option Int) : Prop :=
  (whence = .CUR ∧ offset = 0) ∨ s.buffer.unread.toNat = 0 ∧
    ∀ t, s.playback.transfer = some t → t.Spared offset whence (reply (t.target offset whence))

theorem readTransfer_silent :
    (backing (D := D) stringToTime).Silent fun _ => ⟨[], false, 0⟩ := by
  intro s n data some_
  have block (t : ProtoTransfer) (n : Nat) :
      (s.requestBlock t n fun _ => ⟨[], false, 0⟩).1 ≠ .bytes data := by
    simp only [requestBlock, ProtoTransfer.requestBlock]
    split
    · simpa using some_.symm
    · split <;> simp
  simp only [backing, readTransfer]
  cases s.transfer with
  | none => simp
  | some t =>
    simp only
    split
    · split
      · exact block t _
      · simpa using some_.symm
    · exact block t n

theorem readTransfer_telling {s : RecordingPlayback D} {t u : ProtoTransfer}
    (held : s.transfer = some u) (isOpen : u.isOpen = true) (rest : 0 < u.getRemaining) {n : Nat}
    (some_ : 0 < n) :
    (s.readTransfer (ProtoTransfer.telling t) n).1 = .bytes [if u = t then 1 else 0] := by
  simp only [readTransfer, held, requestBlock, gt_iff_lt, rest, if_true]
  split
  · exact ProtoTransfer.requestBlock_telling isOpen (by split <;> omega)
  · exact ProtoTransfer.requestBlock_telling isOpen some_

/-- A refused seek leaves the stream as it was if and only if it is harmless. -/
theorem refused_iff {s : Stream (RecordingPlayback D)} {a : ReadAhead}
    (h : Backing.Buffered chunks s a) {offset : Int} {whence : Whence} {reply : Int → Option Int}
    (refused : ((backing stringToTime).seek s offset whence reply).1 = -1) :
    (backing stringToTime).AsItWas chunks s ((backing stringToTime).seek s offset whence reply).2 ↔
      Harmless s offset whence reply := by
  have unread := h.unread chunks_valid.limit
  by_cases here : whence = .CUR ∧ offset = 0
  · obtain ⟨rfl, rfl⟩ := here
    rw [(seek_here stringToTime s reply).1]
    exact iff_of_true (fun _ => rfl) (.inl ⟨rfl, rfl⟩)
  · simp only [Harmless, here, false_or, unread]
    constructor
    · intro same
      have empty : a.bytes = [] := same.nothing_ahead chunks_valid h here readTransfer_silent
      rw [Backing.seek_empty _ chunks_valid h empty here] at same refused
      refine ⟨by simp [empty], fun t held => ?_⟩
      simp only [backing, seekTransfer, held] at same refused
      have failed : (t.transferSeek offset whence (reply (t.target offset whence))).1 < 0 := by
        omega
      rw [← ProtoTransfer.transferSeek_spared failed]
      by_contra moved
      obtain ⟨isOpen, size, r, negative, after⟩ := ProtoTransfer.transferSeek_moved failed moved
      rw [after] at same moved
      have stays : t.filePosition = r := by
        have seen := same.getPosition
        simpa [Backing.getPosition, backing, position, held, unread, empty, ProtoTransfer.reset,
          h.clear.unread chunks_valid.limit] using seen.symm
      obtain ⟨bytes, chunk⟩ := a
      simp only at empty
      subst empty
      have rest : 0 < t.getRemaining := by
        unfold ProtoTransfer.getRemaining
        omega
      have first := readTransfer_telling (t := t) held isOpen rest h.positive
      have second := readTransfer_telling (t := t) (n := chunk)
        (s := { s.playback with transfer := some (t.reset r) }) rfl isOpen (stays ▸ rest) h.positive
      have told := same.fetched chunks_valid h h.clear (ProtoTransfer.telling t) first second
      simp [moved] at told
    · rintro ⟨none, spared⟩
      have empty : a.bytes = [] := List.eq_nil_of_length_eq_zero none
      rw [Backing.seek_empty _ chunks_valid h empty here] at refused ⊢
      have kept : (s.playback.seekTransfer reply offset whence).2 = s.playback := by
        unfold seekTransfer
        cases held : s.playback.transfer with
        | none => rfl
        | some t =>
          have failed : (t.transferSeek offset whence (reply (t.target offset whence))).1 < 0 := by
            simp only [backing, seekTransfer, held] at refused
            omega
          simp only [(ProtoTransfer.transferSeek_spared failed).mpr (spared t held), ← held]
      simp only [backing, kept]
      exact Backing.asItWas_cleared _ chunks_valid h empty

end RecordingPlayback

end CppMyth
