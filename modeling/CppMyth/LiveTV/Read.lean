import CppMyth.LiveTV.Seek
import CppMyth.Playback.Stream

/-! `_read` of `mythlivetvplayback.cpp`: it waits at the end of the last file until the backend
has more, and moves on at the end of any other one. The chain's latch is free between its
turns, so other threads may work on the chain there. -/
namespace CppMyth
open Library

/-- The operations on the chain itself; the counters of a transfer are moved by reads and
seeks, which are modelled by themselves. -/
abbrev ChainCall (D : Type) :=
  { op : ChainOp D // ∀ a isOpen fileSize filePosition fileRequest,
    op ≠ .progress a isOpen fileSize filePosition fileRequest }

/-- What one turn of `_read` meets: the backend's position in the file it records, the answers
to a chain update, to the opening of a file and to the seek to its start, whether the time
is up, and what a request for a block meets. -/
structure Turn (D : Type) where
  filePosition : Int
  update : Answers D
  announced : Announced
  position : Option Int
  timeUp : Bool
  block : ProtoTransfer → BlockAnswer

inductive ReadEvent (D : Type) where
  | turn (t : Turn D)
  | other (op : ChainCall D)

/-- Where `_read` is: before the look at the remaining bytes, in the inner loop, at its requests,
behind the dereference of a null pointer, or back. -/
inductive ReadPhase where
  | head | wait
  | request (n tries : Nat)
  | undefined
  | back (result : ReadResult)
  deriving DecidableEq

/-- The local variables of `_read`. -/
structure ReadFrame where
  n : Nat
  fp : Int
  ahead : Bool := false
  phase : ReadPhase := .head
  deriving DecidableEq

/-- What a turn shows of the look-ahead: the two positions of a comparison are `fp`, which is
compared with the backend's, and that of the current transfer; a timeout shows the backend's
position and that of the current transfer. -/
structure LookAhead where
  compared : Option (Int × Int) := none
  timedOut : Option (Int × Int) := none
  deriving DecidableEq

namespace ReadFrame

def back (f : ReadFrame) (result : ReadResult) : ReadFrame := { f with phase := .back result }

/-- The test of the time that is left. -/
def expire (f : ReadFrame) (timeUp : Bool) : ReadFrame :=
  if timeUp then f.back (.bytes []) else f

/-- What the call returns, when it is back. -/
def result (f : ReadFrame) : ReadResult :=
  match f.phase with
  | .back result => result
  | _ => .waiting

end ReadFrame

/-- A call of `_read` under way. -/
structure Reading (D : Type) where
  frame : ReadFrame
  playback : LiveTVPlayback D

namespace LiveTVPlayback

variable {D : Type}

/-- The counters of the current transfer. -/
def current (s : LiveTVPlayback D) : Option ProtoTransfer := s.chain.currentTransfer.map s.transfers

/-- The position of the backend and that of the current transfer, when the time is up. -/
def late (s : LiveTVPlayback D) (written : Int) (timeUp : Bool) : Option (Int × Int) :=
  if timeUp then s.current.map fun t => (written, t.filePosition) else none

end LiveTVPlayback

namespace Reading

variable {D : Type}

def head (r : Reading D) : Reading D :=
  match r.playback.current with
  | none => { r with frame.phase := .undefined }
  | some t =>
    -- Get the acceptable block size to read
    let rs := t.getRemaining
    if rs = 0 then { r with frame.phase := .wait }
    else if rs < 0 then { r with frame := r.frame.back (.bytes []) } -- file size not up to date
    else { r with frame.phase := .request (if rs < r.frame.n then rs.toNat else r.frame.n) 0 }

/-- The transfer isn't empty: poll the new size. -/
def lookAhead (r : Reading D) (t : Turn D) : LookAhead × Reading D :=
  let compared := r.playback.current.map fun u => (r.frame.fp, u.filePosition)
  if t.filePosition > r.frame.fp then
    -- Set the new size, and retry
    match r.playback.chain.currentTransfer with
    | none => ({}, { r with frame.phase := .undefined })
    | some a =>
      ({ compared },
        { frame := { r.frame with phase := .head }
          playback := r.playback.setTransfer a
            { r.playback.transfers a with fileSize := t.filePosition } })
  else
    ({ compared, timedOut := r.playback.late t.filePosition t.timeUp },
      { r with frame := r.frame.expire t.timeUp })

/-- HandleChainUpdate and SwitchChainLast. -/
def polled (s : LiveTVPlayback D) (t : Turn D) : LiveTVPlayback D :=
  ((s.handleChainUpdate t.update).switchChainLast t.announced t.position).2

/-- The transfer is empty: poll the chain to bypass a dummy file. -/
def pollChain (r : Reading D) (t : Turn D) : LookAhead × Reading D :=
  let s := polled r.playback t
  match s.current with
  | none => ({}, ⟨{ r.frame with phase := .undefined }, s⟩)
  | some u =>
    if u.fileSize > 0 then ({}, ⟨{ r.frame with phase := .head }, s⟩)
    else ({ timedOut := s.late t.filePosition t.timeUp }, ⟨r.frame.expire t.timeUp, s⟩)

/-- Switch next file transfer is required to continue. -/
def switchNext (r : Reading D) (t : Turn D) : Reading D :=
  let switched := r.playback.switchChain (r.playback.chain.currentSequence + 1) t.announced
  let s := switched.2
  if ¬ switched.1 then ⟨r.frame.back .failed, s⟩
  else
    match s.chain.currentTransfer with
    | none => ⟨{ r.frame with phase := .undefined }, s⟩
    | some a =>
      ⟨{ r.frame with phase := .head },
        if (s.transfers a).filePosition ≠ 0 then
          s.setTransfer a ((s.transfers a).transferSeek 0 .SET t.position).2
        else s⟩

def wait (r : Reading D) (t : Turn D) : LookAhead × Reading D :=
  -- Read ahead if the transfer is the last in the chain
  let ahead := decide (r.playback.chain.currentSequence = r.playback.chain.lastSequence)
  let r := { r with frame.ahead := ahead }
  if ahead then
    if r.frame.fp > 0 then r.lookAhead t
    else if r.frame.fp = 0 then r.pollChain t
    else
      ({ timedOut := r.playback.late t.filePosition t.timeUp },
        { r with frame := r.frame.expire t.timeUp })
  else ({}, r.switchNext t)

/-- One of the requests; they are repeated for a while at the end of the chain. -/
def request (r : Reading D) (n tries : Nat) (t : Turn D) : Reading D :=
  match r.playback.chain.currentTransfer with
  | none => { r with frame.phase := .undefined }
  | some a =>
    let b := (r.playback.transfers a).requestBlock n t.block
    let s := r.playback.setTransfer a b.2
    if ¬ r.frame.ahead ∨ b.1 ≠ .bytes [] then ⟨r.frame.back b.1, s⟩
    else if tries + 1 < 10 then ⟨{ r.frame with phase := .request n (tries + 1) }, s⟩
    else ⟨r.frame.back b.1, s⟩

def turn (r : Reading D) (t : Turn D) : LookAhead × Reading D :=
  match r.frame.phase with
  | .head => ({}, r.head)
  | .wait => r.wait t
  | .request n tries => ({}, r.request n tries t)
  | .undefined | .back _ => ({}, r)

def step (stringToTime : List UInt8 → Option Int64) (r : Reading D) :
    ReadEvent D → LookAhead × Reading D
  | .turn t => r.turn t
  | .other op => ({}, { r with playback := (r.playback.step stringToTime op.1).2 })

def machine (stringToTime : List UInt8 → Option Int64) :
    Machine (Reading D) (ReadEvent D) LookAhead := ⟨step stringToTime⟩

/-- `_read` over what happens while it runs, up to its return. -/
def run (stringToTime : List UInt8 → Option Int64) (r : Reading D) :
    List (ReadEvent D) → ReadResult × LiveTVPlayback D
  | [] => (r.frame.result, r.playback)
  | event :: rest =>
    match r.frame.phase with
    | .back result => (result, r.playback)
    | _ => run stringToTime (r.step stringToTime event).2 rest

def start (s : LiveTVPlayback D) (t : ProtoTransfer) (n : Nat) : Reading D :=
  ⟨{ n, fp := t.filePosition }, s⟩

end Reading

/-- `_read` -/
def LiveTVPlayback.readChain {D : Type} (stringToTime : List UInt8 → Option Int64)
    (events : List (ReadEvent D)) (s : LiveTVPlayback D) (n : Nat) :
    ReadResult × LiveTVPlayback D :=
  match s.current, s.recorder with
  | some t, some _ => (Reading.start s t n).run stringToTime events
  | _, _ => (.failed, s)

/-- No phase asks for more bytes than the caller did, or returns more. -/
def ReadFrame.Bounded (f : ReadFrame) : Prop :=
  match f.phase with
  | .request n _ => n ≤ f.n
  | .back (.bytes data) => data.length ≤ f.n
  | _ => True

namespace Reading

variable {D : Type}

/-- What a turn can do to the chain: nothing, or raise the size of the current transfer, poll
the chain, move on to the next file and to its start, or take a block. -/
inductive Touched (s : LiveTVPlayback D) : LiveTVPlayback D → Prop where
  | none : Touched s s
  | sized {a : Nat} {size : Int} (current : s.chain.currentTransfer = some a) :
    Touched s (s.setTransfer a { s.transfers a with fileSize := size })
  | polled (t : Turn D) : Touched s (polled s t)
  | next (announced : Announced) :
    Touched s (s.switchChain (s.chain.currentSequence + 1) announced).2
  | rewound {a : Nat} (announced : Announced) (position : Option Int)
    (switched : (s.switchChain (s.chain.currentSequence + 1) announced).1 = true)
    (current : (s.switchChain (s.chain.currentSequence + 1) announced).2.chain.currentTransfer =
      some a) :
    Touched s ((s.switchChain (s.chain.currentSequence + 1) announced).2.setTransfer a
      (((s.switchChain (s.chain.currentSequence + 1) announced).2.transfers a).transferSeek 0 .SET
        position).2)
  | block {a n : Nat} {answer : ProtoTransfer → BlockAnswer}
    (current : s.chain.currentTransfer = some a) :
    Touched s (s.setTransfer a ((s.transfers a).requestBlock n answer).2)

/-- What every turn does: it keeps the bounds of the call and touches the chain in one way. -/
structure Turned (r r' : Reading D) : Prop where
  fp : r'.frame.fp = r.frame.fp
  n : r'.frame.n = r.frame.n
  bounded : r.frame.Bounded → r'.frame.Bounded
  touched : Touched r.playback r'.playback

theorem expire_turned (r : Reading D) (timeUp : Bool) {s : LiveTVPlayback D}
    (touched : Touched r.playback s) : Turned r ⟨r.frame.expire timeUp, s⟩ := by
  unfold ReadFrame.expire
  split
  · exact ⟨rfl, rfl, fun _ => Nat.zero_le _, touched⟩
  · exact ⟨rfl, rfl, id, touched⟩

theorem head_turned (r : Reading D) : Turned r r.head := by
  unfold head
  cases r.playback.current with
  | none => exact ⟨rfl, rfl, fun _ => trivial, .none⟩
  | some t =>
    have least : (if t.getRemaining < r.frame.n then t.getRemaining.toNat else r.frame.n) ≤
        r.frame.n := by
      split <;> omega
    simp only
    split
    · exact ⟨rfl, rfl, fun _ => trivial, .none⟩
    · split
      · exact ⟨rfl, rfl, fun _ => Nat.zero_le _, .none⟩
      · exact ⟨rfl, rfl, fun _ => least, .none⟩

theorem lookAhead_turned (r : Reading D) (t : Turn D) : Turned r (r.lookAhead t).2 := by
  simp only [lookAhead]
  split
  · cases current : r.playback.chain.currentTransfer with
    | none => exact ⟨rfl, rfl, fun _ => trivial, .none⟩
    | some a => exact ⟨rfl, rfl, fun _ => trivial, .sized current⟩
  · exact expire_turned r t.timeUp .none

theorem pollChain_turned (r : Reading D) (t : Turn D) : Turned r (r.pollChain t).2 := by
  simp only [pollChain]
  cases (polled r.playback t).current with
  | none => exact ⟨rfl, rfl, fun _ => trivial, .polled t⟩
  | some u =>
    simp only
    split
    · exact ⟨rfl, rfl, fun _ => trivial, .polled t⟩
    · exact expire_turned r t.timeUp (.polled t)

theorem switchNext_turned (r : Reading D) (t : Turn D) : Turned r (r.switchNext t) := by
  simp only [switchNext]
  split
  · exact ⟨rfl, rfl, fun _ => trivial, .next t.announced⟩
  · rename_i switched
    split
    · exact ⟨rfl, rfl, fun _ => trivial, .next t.announced⟩
    · rename_i a current
      split
      · exact ⟨rfl, rfl, fun _ => trivial,
          .rewound t.announced t.position (not_not.mp switched) current⟩
      · exact ⟨rfl, rfl, fun _ => trivial, .next t.announced⟩

theorem wait_turned (r : Reading D) (t : Turn D) : Turned r (r.wait t).2 := by
  simp only [wait]
  -- the frame that knows whether it is at the last file is bound like that of `r`
  generalize decide (r.playback.chain.currentSequence = r.playback.chain.lastSequence) = ahead
  have named {r' : Reading D} (turned : Turned { r with frame.ahead := ahead } r') : Turned r r' :=
    ⟨turned.fp, turned.n, turned.bounded, turned.touched⟩
  split
  · split
    · exact named (lookAhead_turned _ t)
    · split
      · exact named (pollChain_turned _ t)
      · exact named (expire_turned _ t.timeUp .none)
  · exact named (switchNext_turned _ t)

theorem request_turned {r : Reading D} {n tries : Nat} (requests : r.frame.phase = .request n tries)
    (t : Turn D) : Turned r (r.request n tries t) := by
  unfold request
  cases current : r.playback.chain.currentTransfer with
  | none => exact ⟨rfl, rfl, fun _ => trivial, .none⟩
  | some a =>
    have block (r' : ReadFrame) (fp : r'.fp = r.frame.fp) (size : r'.n = r.frame.n)
        (bounded : r.frame.Bounded → r'.Bounded) :
        Turned r
          ⟨r', r.playback.setTransfer a ((r.playback.transfers a).requestBlock n t.block).2⟩ :=
      ⟨fp, size, bounded, .block current⟩
    have back : r.frame.Bounded →
        (r.frame.back ((r.playback.transfers a).requestBlock n t.block).1).Bounded := by
      intro bounded
      simp only [ReadFrame.Bounded, requests] at bounded
      unfold ReadFrame.Bounded ReadFrame.back
      cases got : ((r.playback.transfers a).requestBlock n t.block).1 with
      | waiting => trivial
      | failed => trivial
      | bytes data => exact Nat.le_trans (ProtoTransfer.requestBlock_bounded _ _ _ got) bounded
    simp only
    split
    · exact block _ rfl rfl back
    · split
      · refine block _ rfl rfl fun bounded => ?_
        simpa only [ReadFrame.Bounded, requests] using bounded
      · exact block _ rfl rfl back

theorem turn_turned (r : Reading D) (t : Turn D) : Turned r (r.turn t).2 := by
  unfold turn
  cases phase : r.frame.phase with
  | head => exact head_turned r
  | wait => exact wait_turned r t
  | request n tries => exact request_turned phase t
  | undefined => exact ⟨rfl, rfl, id, .none⟩
  | back result => exact ⟨rfl, rfl, id, .none⟩

end Reading

end CppMyth
