import CppMyth.Types
import CppMyth.Proto.Transfer
import CppMyth.Library.Transition

/-! The chain of files of a live TV playback, `mythlivetvplayback.cpp`. Each operation holds
the chain's latch from its first to its last access, so it is one step. Transfers are shared
objects; they are kept by address, and a null pointer is no address. -/
namespace CppMyth
open Library

/-- `m_recorder`, as far as the chain asks it. -/
structure ProtoRecorder where
  num : Int32
  playing : Bool
  deriving DecidableEq

/-- `m_chain` -/
structure Chain (D : Type) where
  UID : List UInt8 := []
  chained : List (Nat × Program D) := []
  currentTransfer : Option Nat := none
  currentSequence : Nat := 0
  lastSequence : Nat := 0
  watch : Bool := false
  switchOnCreate : Bool := false

/-- `created` is the first address that no transfer has had. -/
structure LiveTVPlayback (D : Type) where
  chain : Chain D := {}
  recorder : Option ProtoRecorder := none
  transfers : Nat → ProtoTransfer
  created : Nat := 0

/-- What the backend answers during one operation: the current recording, the announcement of
a transfer and the position after a seek. -/
structure Answers (D : Type) where
  currentRecording : Option (Program D)
  announced : Announced
  position : Option Int

namespace LiveTVPlayback

variable {D : Type}

def initial (memory : Nat → ProtoTransfer) : LiveTVPlayback D := { transfers := memory }

def setTransfer (s : LiveTVPlayback D) (a : Nat) (t : ProtoTransfer) : LiveTVPlayback D :=
  { s with transfers := Function.update s.transfers a t }

def initChain (s : LiveTVPlayback D) (hostName time : List UInt8) : LiveTVPlayback D :=
  { s with chain := { UID := hostName ++ ascii "-" ++ time, switchOnCreate := true } }

def clearChain (s : LiveTVPlayback D) : LiveTVPlayback D :=
  { s with chain := { UID := s.chain.UID } }

def isChained (s : LiveTVPlayback D) (program : Program D) : Bool :=
  s.chain.chained.any fun entry => (s.transfers entry.1).pathName == program.fileName

def switchChain (s : LiveTVPlayback D) (sequence : Nat) (announced : Announced) :
    Bool × LiveTVPlayback D :=
  -- Check for out of range
  if sequence < 1 ∨ sequence > s.chain.lastSequence then (false, s)
  else
    match s.chain.chained[sequence - 1]? with
    | none => (false, s)
    | some (a, _) =>
      -- If closed then try to open
      let opened := (s.transfers a).openTransfer announced
      let s := s.setTransfer a opened.2
      if ¬ opened.1 then (false, s)
      else (true, { s with
        chain.currentTransfer := some a
        chain.currentSequence := sequence })

def switchChainLast (s : LiveTVPlayback D) (announced : Announced) (position : Option Int) :
    Bool × LiveTVPlayback D :=
  let switched := s.switchChain s.chain.lastSequence announced
  match switched.1, switched.2.recorder, switched.2.chain.currentTransfer with
  | true, some _, some a =>
    let sought := (switched.2.transfers a).transferSeek 0 .SET position
    (sought.1 = 0, switched.2.setTransfer a sought.2)
  | _, _, _ => (false, switched.2)

/-- The `switchOnCreate` step of a chain update and of a size update. -/
def switchCreated (s : LiveTVPlayback D) (announced : Announced) (position : Option Int) :
    LiveTVPlayback D :=
  let switched := s.switchChainLast announced position
  if switched.1 then { switched.2 with chain.switchOnCreate := false } else switched.2

/-- Close the file before the last one where it is a dummy file. -/
def closeDummy (s : LiveTVPlayback D) : LiveTVPlayback D :=
  if s.chain.lastSequence > 1 then
    match s.chain.chained[s.chain.lastSequence - 2]? with
    | none => s
    | some (a, _) =>
      if (s.transfers a).fileSize = 0 then s.setTransfer a (s.transfers a).close else s
  else s

def addTransfer (s : LiveTVPlayback D) (prog : Program D) : LiveTVPlayback D :=
  let transfer : ProtoTransfer :=
    { pathName := prog.fileName, storageGroupName := prog.recording.storageGroup }
  { s with
    transfers := Function.update s.transfers s.created transfer
    created := s.created + 1
    chain.chained := s.chain.chained ++ [(s.created, prog)]
    chain.lastSequence := s.chain.chained.length + 1 }

def handleChainUpdate (s : LiveTVPlayback D) (answers : Answers D) : LiveTVPlayback D :=
  match s.recorder, answers.currentRecording with
  | some _, some prog =>
    if prog.fileName ≠ [] ∧ ¬ s.isChained prog then
      let added := (s.addTransfer prog).closeDummy
      let s :=
        if added.chain.switchOnCreate ∧ (added.transfers s.created).fileSize > 0 then
          added.switchCreated answers.announced answers.position
        else added
      { s with chain.watch := false }
    else s
  | _, _ => s

/-- The new size in a message UPDATE_FILE_SIZE about the program, if it is larger. -/
def newSize (stringToTime : List UInt8 → Option Int64) (transfer : ProtoTransfer)
    (program : Program D) : List (List UInt8) → Option Int
  -- Message contains chanid + starttime as recorded key
  | _ :: chanid :: startts :: size :: _ =>
    match (stringToUint32 chanid).toOption, stringToTime startts,
      (stringToInt64 size).toOption with
    | some chanid, some startts, some newsize =>
      if program.channel.chanId ≠ chanid ∨ program.recording.startTs ≠ startts ∨
        transfer.fileSize ≥ newsize.toInt then none
      else some newsize.toInt
    | _, _, _ => none
  -- Message contains recordedid as key
  | [_, recordedid, size] =>
    match (stringToUint32 recordedid).toOption, (stringToInt64 size).toOption with
    | some recordedid, some newsize =>
      if program.recording.recordedId ≠ recordedid ∨ transfer.fileSize ≥ newsize.toInt then none
      else some newsize.toInt
    | _, _ => none
  | _ => none

/-- The event EVENT_UPDATE_FILE_SIZE, with the tokens of its message. -/
def updateFileSize (stringToTime : List UInt8 → Option Int64) (s : LiveTVPlayback D)
    (subject : List (List UInt8)) (announced : Announced) (position : Option Int) :
    LiveTVPlayback D :=
  if s.recorder.any ProtoRecorder.playing ∧ s.chain.lastSequence > 0 then
    match s.chain.chained[s.chain.lastSequence - 1]? with
    | none => s
    | some (a, program) =>
      match newSize stringToTime (s.transfers a) program subject with
      | none => s
      | some newsize =>
        let s := s.setTransfer a { s.transfers a with fileSize := newsize }
        -- Is wait the filling before switching ?
        if s.chain.switchOnCreate then s.switchCreated announced position else s
  else s

/-- The event EVENT_LIVETV_WATCH. -/
def livetvWatch (s : LiveTVPlayback D) (subject : List (List UInt8)) : LiveTVPlayback D :=
  match s.recorder, subject with
  | some recorder, _ :: rnum :: flag :: _ =>
    if recorder.playing ∧ (stringToInt8 flag).toOption.isSome ∧
      (stringToInt32 rnum).toOption = some recorder.num then
      { s with chain.watch := true }
    else s
  | _, _ => s

end LiveTVPlayback

/-- The operations on the chain, and what else happens to its objects between them: the
recorder starts or is dropped, and reads and seeks move the counters of a transfer. -/
inductive ChainOp (D : Type) where
  | initChain (hostName time : List UInt8)
  | clearChain
  | handleChainUpdate (answers : Answers D)
  | switchChain (sequence : Nat) (announced : Announced)
  | switchChainLast (announced : Announced) (position : Option Int)
  | updateFileSize (subject : List (List UInt8)) (announced : Announced) (position : Option Int)
  | livetvWatch (subject : List (List UInt8))
  | spawnLiveTV (recorder : ProtoRecorder)
  | setRecorder (recorder : Option ProtoRecorder)
  | progress (a : Nat) (isOpen : Bool) (fileSize filePosition fileRequest : Int)

namespace LiveTVPlayback

variable {D : Type}

def step (stringToTime : List UInt8 → Option Int64) (s : LiveTVPlayback D) :
    ChainOp D → Option Bool × LiveTVPlayback D
  | .initChain hostName time => (none, s.initChain hostName time)
  | .clearChain => (none, s.clearChain)
  | .handleChainUpdate answers => (none, s.handleChainUpdate answers)
  | .switchChain sequence announced =>
    let switched := s.switchChain sequence announced
    (some switched.1, switched.2)
  | .switchChainLast announced position =>
    let switched := s.switchChainLast announced position
    (some switched.1, switched.2)
  | .updateFileSize subject announced position =>
    (none, s.updateFileSize stringToTime subject announced position)
  | .livetvWatch subject => (none, s.livetvWatch subject)
  | .spawnLiveTV recorder =>
    (none, { s with recorder := some recorder, chain.switchOnCreate := true, chain.watch := true })
  | .setRecorder recorder => (none, { s with recorder })
  | .progress a isOpen fileSize filePosition fileRequest =>
    (none, s.setTransfer a
      { s.transfers a with isOpen, fileSize, filePosition, fileRequest })

def machine (stringToTime : List UInt8 → Option Int64) :
    Machine (LiveTVPlayback D) (ChainOp D) (Option Bool) :=
  ⟨step stringToTime⟩

/-- The chain's four linked fields agree, and no file is in it twice. -/
structure Consistent (s : LiveTVPlayback D) : Prop where
  lastSequence : s.chain.lastSequence = s.chain.chained.length
  currentSequence : s.chain.currentSequence ≤ s.chain.lastSequence
  watching : 0 < s.chain.currentSequence →
    ∃ entry, s.chain.chained[s.chain.currentSequence - 1]? = some entry ∧
      s.chain.currentTransfer = some entry.1
  idle : s.chain.currentSequence = 0 → s.chain.currentTransfer = none
  distinct : (s.chain.chained.map fun entry => (s.transfers entry.1).pathName).Nodup

structure Invariant (s : LiveTVPlayback D) : Prop extends Consistent s where
  allocated : ∀ entry ∈ s.chain.chained, entry.1 < s.created

/-- What an operation that adds no file can do to the chain: nothing, or watch another of its
files. The names of the files stay. -/
structure Switched (s s' : LiveTVPlayback D) : Prop where
  pathName : ∀ a, (s'.transfers a).pathName = (s.transfers a).pathName
  created : s'.created = s.created
  chained : s'.chain.chained = s.chain.chained
  lastSequence : s'.chain.lastSequence = s.chain.lastSequence
  current : (s'.chain.currentSequence = s.chain.currentSequence ∧
      s'.chain.currentTransfer = s.chain.currentTransfer) ∨
    (0 < s'.chain.currentSequence ∧ s'.chain.currentSequence ≤ s.chain.lastSequence ∧
      ∃ entry, s.chain.chained[s'.chain.currentSequence - 1]? = some entry ∧
        s'.chain.currentTransfer = some entry.1)

theorem Switched.refl (s : LiveTVPlayback D) : Switched s s :=
  ⟨fun _ => rfl, rfl, rfl, rfl, .inl ⟨rfl, rfl⟩⟩

theorem Switched.of_links {s s' : LiveTVPlayback D} (transfers : s'.transfers = s.transfers)
    (created : s'.created = s.created) (chained : s'.chain.chained = s.chain.chained)
    (lastSequence : s'.chain.lastSequence = s.chain.lastSequence)
    (currentSequence : s'.chain.currentSequence = s.chain.currentSequence)
    (currentTransfer : s'.chain.currentTransfer = s.chain.currentTransfer) : Switched s s' :=
  ⟨fun a => by rw [transfers], created, chained, lastSequence,
    .inl ⟨currentSequence, currentTransfer⟩⟩

theorem Switched.trans {s t u : LiveTVPlayback D} (h : Switched s t) (k : Switched t u) :
    Switched s u where
  pathName a := (k.pathName a).trans (h.pathName a)
  created := k.created.trans h.created
  chained := k.chained.trans h.chained
  lastSequence := k.lastSequence.trans h.lastSequence
  current := by
    rcases k.current with ⟨sequence, transfer⟩ | moved
    · rw [sequence, transfer]
      exact h.current
    · rw [h.lastSequence, h.chained] at moved
      exact .inr moved

theorem Switched.invariant {s s' : LiveTVPlayback D} (switched : Switched s s')
    (inv : Invariant s) : Invariant s' where
  lastSequence := by rw [switched.lastSequence, switched.chained, inv.lastSequence]
  currentSequence := by
    rw [switched.lastSequence]
    rcases switched.current with ⟨sequence, -⟩ | ⟨-, bound, -⟩
    · exact sequence ▸ inv.currentSequence
    · exact bound
  watching positive := by
    rw [switched.chained]
    rcases switched.current with ⟨sequence, transfer⟩ | ⟨-, -, entry⟩
    · rw [sequence] at positive ⊢
      rw [transfer]
      exact inv.watching positive
    · exact entry
  idle zero := by
    rcases switched.current with ⟨sequence, transfer⟩ | ⟨positive, -⟩
    · rw [transfer]
      exact inv.idle (sequence ▸ zero)
    · omega
  distinct := by
    rw [switched.chained]
    simpa only [switched.pathName] using inv.distinct
  allocated := by
    rw [switched.chained, switched.created]
    exact inv.allocated

theorem setTransfer_switched (s : LiveTVPlayback D) (a : Nat) {t : ProtoTransfer}
    (same : t.pathName = (s.transfers a).pathName) : Switched s (s.setTransfer a t) := by
  refine ⟨fun b => ?_, rfl, rfl, rfl, .inl ⟨rfl, rfl⟩⟩
  by_cases hit : b = a
  · subst hit
    simpa [setTransfer] using same
  · simp [setTransfer, Function.update_of_ne hit]

theorem switchChain_switched (s : LiveTVPlayback D) (sequence : Nat) (announced : Announced) :
    Switched s (s.switchChain sequence announced).2 := by
  unfold switchChain
  by_cases range : sequence < 1 ∨ sequence > s.chain.lastSequence
  · rw [if_pos range]
    exact .refl s
  · rw [if_neg range]
    cases entry : s.chain.chained[sequence - 1]? with
    | none => exact .refl s
    | some found =>
      obtain ⟨a, program⟩ := found
      have opened := setTransfer_switched s a
        (ProtoTransfer.openTransfer_pathName (s.transfers a) announced)
      by_cases failed : ¬ ((s.transfers a).openTransfer announced).1
      · simp only [if_pos failed]
        exact opened
      · simp only [if_neg failed]
        exact ⟨opened.pathName, rfl, rfl, rfl,
          .inr ⟨by simp only; omega, by simp only; omega, (a, program), entry, rfl⟩⟩

theorem switchChainLast_switched (s : LiveTVPlayback D) (announced : Announced)
    (position : Option Int) : Switched s (s.switchChainLast announced position).2 := by
  have switched := switchChain_switched s s.chain.lastSequence announced
  simp only [switchChainLast]
  split
  · exact switched.trans (setTransfer_switched _ _ (by simp))
  · exact switched

theorem switchCreated_switched (s : LiveTVPlayback D) (announced : Announced)
    (position : Option Int) : Switched s (s.switchCreated announced position) := by
  have switched := switchChainLast_switched s announced position
  simp only [switchCreated]
  split
  · exact switched.trans (.of_links rfl rfl rfl rfl rfl rfl)
  · exact switched

theorem closeDummy_switched (s : LiveTVPlayback D) : Switched s s.closeDummy := by
  unfold closeDummy
  split
  · cases s.chain.chained[s.chain.lastSequence - 2]? with
    | none => exact .refl s
    | some entry =>
      simp only
      split
      · exact setTransfer_switched s entry.1 rfl
      · exact .refl s
  · exact .refl s

theorem updateFileSize_switched (stringToTime : List UInt8 → Option Int64)
    (s : LiveTVPlayback D) (subject : List (List UInt8)) (announced : Announced)
    (position : Option Int) :
    Switched s (s.updateFileSize stringToTime subject announced position) := by
  unfold updateFileSize
  split
  · cases s.chain.chained[s.chain.lastSequence - 1]? with
    | none => exact .refl s
    | some entry =>
      simp only
      cases newSize stringToTime (s.transfers entry.1) entry.2 subject with
      | none => exact .refl s
      | some newsize =>
        have sized := setTransfer_switched s entry.1
          (show ({ s.transfers entry.1 with fileSize := newsize } : ProtoTransfer).pathName =
            (s.transfers entry.1).pathName from rfl)
        simp only
        split
        · exact sized.trans (switchCreated_switched _ announced position)
        · exact sized
  · exact .refl s

theorem livetvWatch_switched (s : LiveTVPlayback D) (subject : List (List UInt8)) :
    Switched s (s.livetvWatch subject) := by
  unfold livetvWatch
  split
  · split <;> exact .of_links rfl rfl rfl rfl rfl rfl
  · exact .refl s

theorem addTransfer_invariant {s : LiveTVPlayback D} (inv : Invariant s) (prog : Program D)
    (absent : s.isChained prog = false) : Invariant (s.addTransfer prog) := by
  -- the names of the old entries are read at other addresses
  have kept : s.chain.chained.map (fun entry =>
      (Function.update s.transfers s.created
        { pathName := prog.fileName, storageGroupName := prog.recording.storageGroup }
        entry.1).pathName) =
      s.chain.chained.map fun entry => (s.transfers entry.1).pathName := by
    apply List.map_congr_left
    intro entry mem
    rw [Function.update_of_ne (Nat.ne_of_lt (inv.allocated entry mem))]
  have fresh : prog.fileName ∉ s.chain.chained.map fun entry => (s.transfers entry.1).pathName := by
    intro mem
    obtain ⟨entry, mem, same⟩ := List.mem_map.mp mem
    simp only [isChained, List.any_eq_false, beq_iff_eq] at absent
    exact absent entry mem same
  refine ⟨⟨?_, ?_, fun positive => ?_, inv.idle, ?_⟩, ?_⟩
  · simp [addTransfer]
  · have bound := inv.currentSequence
    rw [inv.lastSequence] at bound
    exact Nat.le_succ_of_le bound
  · obtain ⟨entry, found, transfer⟩ := inv.watching positive
    refine ⟨entry, ?_, transfer⟩
    exact List.getElem?_append_left (List.getElem?_eq_some_iff.mp found).1 ▸ found
  · simp only [addTransfer, List.map_append, kept, List.map_cons, List.map_nil,
      Function.update_self]
    exact List.Nodup.append inv.distinct (List.nodup_singleton _)
      (List.disjoint_singleton.mpr fresh)
  · intro entry mem
    rcases List.mem_append.mp mem with old | new
    · exact Nat.lt_succ_of_lt (inv.allocated entry old)
    · rw [List.mem_singleton.mp new]
      exact Nat.lt_succ_self s.created

theorem handleChainUpdate_invariant {s : LiveTVPlayback D} (inv : Invariant s)
    (answers : Answers D) : Invariant (s.handleChainUpdate answers) := by
  unfold handleChainUpdate
  split
  · rename_i prog _ _
    split
    · rename_i new
      have added := (closeDummy_switched _).invariant
        (addTransfer_invariant inv prog (by simpa using new.2))
      have unwatched (t : LiveTVPlayback D) : Switched t { t with chain.watch := false } :=
        .of_links rfl rfl rfl rfl rfl rfl
      apply (unwatched _).invariant
      split
      · exact (switchCreated_switched _ answers.announced answers.position).invariant added
      · exact added
    · exact inv
  · exact inv

theorem empty_invariant {s : LiveTVPlayback D} (chained : s.chain.chained = [])
    (lastSequence : s.chain.lastSequence = 0) (currentSequence : s.chain.currentSequence = 0)
    (currentTransfer : s.chain.currentTransfer = none) : Invariant s where
  lastSequence := by rw [lastSequence, chained, List.length_nil]
  currentSequence := by rw [currentSequence, lastSequence]
  watching positive := by omega
  idle _ := currentTransfer
  distinct := by rw [chained]; exact List.nodup_nil
  allocated := by rw [chained]; intro entry mem; simp at mem

theorem step_invariant (stringToTime : List UInt8 → Option Int64) (s : LiveTVPlayback D)
    (op : ChainOp D) (inv : Invariant s) : Invariant (s.step stringToTime op).2 := by
  cases op with
  | initChain hostName time => exact empty_invariant rfl rfl rfl rfl
  | clearChain => exact empty_invariant rfl rfl rfl rfl
  | handleChainUpdate answers => exact handleChainUpdate_invariant inv answers
  | switchChain sequence announced =>
    exact (switchChain_switched s sequence announced).invariant inv
  | switchChainLast announced position =>
    exact (switchChainLast_switched s announced position).invariant inv
  | updateFileSize subject announced position =>
    exact (updateFileSize_switched stringToTime s subject announced position).invariant inv
  | livetvWatch subject => exact (livetvWatch_switched s subject).invariant inv
  | spawnLiveTV recorder =>
    exact Switched.invariant (s := s) (.of_links rfl rfl rfl rfl rfl rfl) inv
  | setRecorder recorder =>
    exact Switched.invariant (s := s) (.of_links rfl rfl rfl rfl rfl rfl) inv
  | progress a isOpen fileSize filePosition fileRequest =>
    exact Switched.invariant (s := s) (setTransfer_switched s a rfl) inv

/-- Whatever the operations and the answers, the chain stays consistent. -/
theorem chain_consistent (stringToTime : List UInt8 → Option Int64) (memory : Nat → ProtoTransfer)
    (ops : List (ChainOp D)) :
    Consistent ((machine stringToTime).final (initial memory) ops) :=
  ((machine stringToTime).final_invariant (step_invariant stringToTime)
    (empty_invariant rfl rfl rfl rfl) ops).toConsistent

end LiveTVPlayback

end CppMyth
