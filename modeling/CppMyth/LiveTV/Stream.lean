import CppMyth.LiveTV.Read

/-! A live TV playback as a stream: what its runs keep, and where its seeks arrive. -/
namespace CppMyth
open Library

/-- A closed transfer has been reset. -/
def ProtoTransfer.Rested (t : ProtoTransfer) : Prop :=
  t.isOpen = false → t.filePosition = 0 ∧ t.fileRequest = 0 ∧ t.fileId = 0

namespace ProtoTransfer

variable {t : ProtoTransfer}

theorem Rested.open_ (isOpen : t.isOpen = true) : t.Rested :=
  fun closed => absurd (isOpen.symm.trans closed) (by simp)

theorem Rested.close (t : ProtoTransfer) : t.close.Rested := fun _ => ⟨rfl, rfl, rfl⟩

theorem Rested.sized (h : t.Rested) (fileSize : Int) :
    ({ t with fileSize } : ProtoTransfer).Rested := h

theorem Rested.openTransfer (h : t.Rested) (announced : Announced) :
    (t.openTransfer announced).2.Rested := by
  unfold ProtoTransfer.openTransfer
  split
  · exact h
  · cases announced with
    | unreachable => exact h
    | refused => exact .close _
    | accepted fileId fileSize => exact .open_ rfl

theorem Rested.transferSeek (h : t.Rested) (offset : Int) (whence : Whence) (reply : Option Int) :
    (t.transferSeek offset whence reply).2.Rested := by
  unfold ProtoTransfer.transferSeek
  cases t.seekCheck offset whence with
  | some result => exact h
  | none =>
    simp only
    split
    · exact h
    · rename_i isOpen
      cases reply with
      | none => exact h
      | some position => exact .open_ (not_not.mp isOpen)

theorem Rested.requestBlock (h : t.Rested) (n : Nat) (answer : ProtoTransfer → BlockAnswer) :
    (t.requestBlock n answer).2.Rested := by
  unfold ProtoTransfer.requestBlock
  split
  · exact h
  · split
    · exact h
    · rename_i isOpen
      exact .open_ (not_not.mp isOpen)

@[simp] theorem requestBlock_pathName (t : ProtoTransfer) (n : Nat)
    (answer : ProtoTransfer → BlockAnswer) : (t.requestBlock n answer).2.pathName = t.pathName := by
  unfold ProtoTransfer.requestBlock
  split
  · rfl
  · split <;> rfl

end ProtoTransfer

namespace LiveTVPlayback

variable {D : Type}

def Each (s : LiveTVPlayback D) (P : ProtoTransfer → Prop) : Prop :=
  ∀ entry ∈ s.chain.chained, P (s.transfers entry.1)

/-- Every closed file of the chain has been reset. -/
def Rested (s : LiveTVPlayback D) : Prop :=
  ∀ entry ∈ s.chain.chained, (s.transfers entry.1).Rested

/-- What holds of the chain in every state of a run. -/
structure Sound (s : LiveTVPlayback D) : Prop extends Invariant s where
  rested : s.Rested

section

variable {s : LiveTVPlayback D}

section Each

variable {P : ProtoTransfer → Prop}

theorem Each.setTransfer (h : s.Each P) {a : Nat} {t : ProtoTransfer}
    (keep : P (s.transfers a) → P t) : (s.setTransfer a t).Each P := by
  intro entry chained
  by_cases hit : entry.1 = a
  · have old := h entry chained
    rw [hit] at old ⊢
    simpa [LiveTVPlayback.setTransfer] using keep old
  · simpa [LiveTVPlayback.setTransfer, Function.update_of_ne hit] using h entry chained

theorem Each.switchChain (h : s.Each P) (sequence : Nat) {announced : Announced}
    (opens : ∀ t, P t → P (t.openTransfer announced).2) :
    (s.switchChain sequence announced).2.Each P := by
  unfold LiveTVPlayback.switchChain
  split
  · exact h
  · cases s.chain.chained[sequence - 1]? with
    | none => exact h
    | some entry =>
      have opened := h.setTransfer (a := entry.1) (opens _)
      simp only
      split
      · exact opened
      · exact opened

theorem Each.switchChainLast (h : s.Each P) {announced : Announced} {position : Option Int}
    (opens : ∀ t, P t → P (t.openTransfer announced).2)
    (seeks : ∀ t, P t → P (t.transferSeek 0 .SET position).2) :
    (s.switchChainLast announced position).2.Each P := by
  have switched := h.switchChain s.chain.lastSequence opens
  simp only [LiveTVPlayback.switchChainLast]
  split
  · exact switched.setTransfer (seeks _)
  · exact switched

theorem Each.addTransfer (h : s.Each P) (inv : Invariant s) {prog : Program D}
    (fresh : P { pathName := prog.fileName, storageGroupName := prog.recording.storageGroup }) :
    (s.addTransfer prog).Each P := by
  intro entry chained
  rcases List.mem_append.mp chained with old | new
  · have other := Nat.ne_of_lt (inv.allocated entry old)
    simpa [LiveTVPlayback.addTransfer, Function.update_of_ne other] using h entry old
  · rw [List.mem_singleton.mp new]
    simpa [LiveTVPlayback.addTransfer] using fresh

theorem Each.closeDummy (h : s.Each P) (closes : ∀ t, P t → P t.close) : s.closeDummy.Each P := by
  unfold LiveTVPlayback.closeDummy
  split
  · cases s.chain.chained[s.chain.lastSequence - 2]? with
    | none => exact h
    | some entry =>
      simp only
      split
      · exact h.setTransfer (closes _)
      · exact h
  · exact h

end Each

theorem Rested.setTransfer (h : s.Rested) {a : Nat} {t : ProtoTransfer}
    (keep : (s.transfers a).Rested → t.Rested) : (s.setTransfer a t).Rested :=
  Each.setTransfer h keep

theorem Rested.switchChain (h : s.Rested) (sequence : Nat) (announced : Announced) :
    (s.switchChain sequence announced).2.Rested :=
  Each.switchChain h sequence fun _ old => old.openTransfer announced

theorem Rested.switchChainLast (h : s.Rested) (announced : Announced) (position : Option Int) :
    (s.switchChainLast announced position).2.Rested :=
  Each.switchChainLast h (fun _ old => old.openTransfer announced)
    fun _ old => old.transferSeek 0 .SET position

theorem Rested.switchCreated (h : s.Rested) (announced : Announced) (position : Option Int) :
    (s.switchCreated announced position).Rested := by
  have switched := h.switchChainLast announced position
  simp only [LiveTVPlayback.switchCreated]
  split
  · exact switched
  · exact switched

theorem Rested.handleChainUpdate (h : s.Rested) (inv : Invariant s) (answers : Answers D) :
    (s.handleChainUpdate answers).Rested := by
  unfold LiveTVPlayback.handleChainUpdate
  split
  · rename_i prog _ _
    split
    · have fresh : ProtoTransfer.Rested { pathName := prog.fileName, storageGroupName :=
          prog.recording.storageGroup } := fun _ => ⟨rfl, rfl, rfl⟩
      have added : (s.addTransfer prog).closeDummy.Rested :=
        (Each.addTransfer h inv fresh).closeDummy fun t _ => .close t
      simp only
      split
      · exact added.switchCreated answers.announced answers.position
      · exact added
    · exact h
  · exact h

theorem Rested.updateFileSize (h : s.Rested) (stringToTime : List UInt8 → Option Int64)
    (subject : List (List UInt8)) (announced : Announced) (position : Option Int) :
    (s.updateFileSize stringToTime subject announced position).Rested := by
  unfold LiveTVPlayback.updateFileSize
  split
  · cases s.chain.chained[s.chain.lastSequence - 1]? with
    | none => exact h
    | some entry =>
      simp only
      cases newSize stringToTime (s.transfers entry.1) entry.2 subject with
      | none => exact h
      | some newsize =>
        have sized := h.setTransfer (a := entry.1)
          (t := { s.transfers entry.1 with fileSize := newsize }) fun old => old.sized newsize
        simp only
        split
        · exact sized.switchCreated announced position
        · exact sized
  · exact h

theorem Sound.switched {s' : LiveTVPlayback D} (h : Sound s) (switched : Switched s s')
    (rested : s'.Rested) : Sound s' :=
  ⟨switched.invariant h.toInvariant, rested⟩

theorem Sound.empty (chained : s.chain.chained = []) (lastSequence : s.chain.lastSequence = 0)
    (currentSequence : s.chain.currentSequence = 0)
    (currentTransfer : s.chain.currentTransfer = none) : Sound s :=
  ⟨empty_invariant chained lastSequence currentSequence currentTransfer,
    fun entry mem => absurd (chained ▸ mem) (by simp)⟩

theorem Sound.step (h : Sound s) (stringToTime : List UInt8 → Option Int64) (op : ChainCall D) :
    Sound (s.step stringToTime op.1).2 := by
  refine ⟨step_invariant stringToTime s op.1 h.toInvariant, ?_⟩
  obtain ⟨op, own⟩ := op
  cases op with
  | initChain hostName time =>
    exact fun entry mem => absurd mem (by simp [LiveTVPlayback.step, initChain])
  | clearChain => exact fun entry mem => absurd mem (by simp [LiveTVPlayback.step, clearChain])
  | handleChainUpdate answers => exact h.rested.handleChainUpdate h.toInvariant answers
  | switchChain sequence announced => exact h.rested.switchChain sequence announced
  | switchChainLast announced position => exact h.rested.switchChainLast announced position
  | updateFileSize subject announced position =>
    exact h.rested.updateFileSize stringToTime subject announced position
  | livetvWatch subject =>
    simp only [LiveTVPlayback.step, livetvWatch]
    split
    · split
      · exact h.rested
      · exact h.rested
    · exact h.rested
  | spawnLiveTV recorder => exact h.rested
  | setRecorder recorder => exact h.rested
  | progress a isOpen fileSize filePosition fileRequest => exact absurd rfl (own _ _ _ _ _)

theorem Sound.touched {s' : LiveTVPlayback D} (h : Sound s) (touched : Reading.Touched s s') :
    Sound s' := by
  cases touched with
  | none => exact h
  | sized _ => exact h.switched (setTransfer_switched s _ rfl) (h.rested.setTransfer fun old => old)
  | polled t =>
    have updated : Sound (s.handleChainUpdate t.update) :=
      ⟨handleChainUpdate_invariant h.toInvariant t.update,
        h.rested.handleChainUpdate h.toInvariant t.update⟩
    exact updated.switched (switchChainLast_switched _ t.announced t.position)
      (updated.rested.switchChainLast t.announced t.position)
  | next announced =>
    exact h.switched (switchChain_switched s _ announced) (h.rested.switchChain _ announced)
  | rewound announced position _ _ =>
    have next := h.switched (switchChain_switched s (s.chain.currentSequence + 1) announced)
      (h.rested.switchChain _ announced)
    exact next.switched (setTransfer_switched _ _ (by simp))
      (next.rested.setTransfer fun old => old.transferSeek 0 .SET position)
  | block _ =>
    exact h.switched (setTransfer_switched s _ (by simp))
      (h.rested.setTransfer fun old => old.requestBlock _ _)

theorem Sound.run {r : Reading D} (h : Sound r.playback) (stringToTime : List UInt8 → Option Int64)
    (events : List (ReadEvent D)) : Sound (r.run stringToTime events).2 := by
  induction events generalizing r with
  | nil => exact h
  | cons event rest ih =>
    unfold Reading.run
    split
    · exact h
    · cases event with
      | turn t => exact ih (h.touched (Reading.turn_turned r t).touched)
      | other op => exact ih (h.step stringToTime op)

theorem Sound.readChain (h : Sound s) (stringToTime : List UInt8 → Option Int64)
    (events : List (ReadEvent D)) (n : Nat) : Sound (s.readChain stringToTime events n).2 := by
  unfold LiveTVPlayback.readChain
  split
  · exact Sound.run (r := Reading.start s _ n) h stringToTime events
  · exact h

theorem Sound.seekFile (h : Sound s) (ci : Nat) (offset p : Int) (answers : SeekAnswers) :
    Sound (s.seekFile ci offset p answers).2 := by
  unfold LiveTVPlayback.seekFile
  cases s.chain.chained[ci]? with
  | none => exact h
  | some entry =>
    have sought := h.switched
      (setTransfer_switched s entry.1 (t := ((s.transfers entry.1).transferSeek offset .CUR
        (answers.reply ((s.transfers entry.1).target offset .CUR))).2) (by simp))
      (h.rested.setTransfer fun old => old.transferSeek offset .CUR _)
    have switched := sought.switched (switchChain_switched _ (ci + 1) answers.announced)
      (sought.rested.switchChain (ci + 1) answers.announced)
    simp only
    split
    · exact sought
    · split
      · exact switched
      · exact switched

theorem Sound.seekForward (h : Sound s) (p : Int) (answers : SeekAnswers) (fuel ci : Nat)
    (position : Int) : Sound (s.seekForward p answers fuel ci position).2 := by
  induction fuel generalizing ci position with
  | zero => exact h
  | succ fuel ih =>
    unfold LiveTVPlayback.seekForward
    cases s.file ci with
    | none => exact h
    | some t =>
      simp only
      split
      · exact h.seekFile ci (p - position) p answers
      · split
        · cases s.file (ci + 1) with
          | none => exact h
          | some next => exact ih (ci + 1) (position + t.getRemaining + next.filePosition)
        · exact h

theorem Sound.seekBackward (h : Sound s) (p : Int) (answers : SeekAnswers) (ci : Nat)
    (position : Int) : Sound (s.seekBackward p answers ci position).2 := by
  induction ci generalizing position with
  | zero =>
    unfold LiveTVPlayback.seekBackward
    cases s.file 0 with
    | none => exact h
    | some t =>
      simp only
      split
      · exact h.seekFile 0 (p - position) p answers
      · exact h
  | succ ci ih =>
    unfold LiveTVPlayback.seekBackward
    cases s.file (ci + 1) with
    | none => exact h
    | some t =>
      simp only
      split
      · exact h.seekFile (ci + 1) (p - position) p answers
      · cases s.file ci with
        | none => exact h
        | some previous => exact ih (position - t.filePosition - previous.getRemaining)

theorem Sound.seekChain (h : Sound s) (unread : Nat) (offset : Int) (whence : Whence)
    (answers : SeekAnswers) : Sound (s.seekChain unread offset whence answers).2 := by
  simp only [LiveTVPlayback.seekChain]
  split
  · exact h
  · split
    · exact h
    · split
      · exact h.seekForward _ answers _ _ _
      · split
        · exact h.seekBackward _ answers _ _
        · exact h

end

end LiveTVPlayback

namespace Reading

variable {D : Type}

theorem result_bounded {f : ReadFrame} (bounded : f.Bounded) {data : List UInt8}
    (got : f.result = .bytes data) : data.length ≤ f.n := by
  unfold ReadFrame.result at got
  split at got
  · rename_i result back
    subst got
    simpa only [ReadFrame.Bounded, back] using bounded
  · cases got

theorem run_bounded (stringToTime : List UInt8 → Option Int64) {r : Reading D}
    (bounded : r.frame.Bounded) {events : List (ReadEvent D)} {data : List UInt8}
    (got : (r.run stringToTime events).1 = .bytes data) : data.length ≤ r.frame.n := by
  induction events generalizing r with
  | nil => exact result_bounded bounded got
  | cons event rest ih =>
    unfold run at got
    split at got
    · rename_i result back
      apply result_bounded bounded
      simpa only [ReadFrame.result, back] using got
    · cases event with
      | other op => exact ih (r := (r.step stringToTime (.other op)).2) bounded got
      | turn t =>
        have turned := turn_turned r t
        rw [← turned.n]
        exact ih (turned.bounded bounded) got

end Reading

namespace LiveTVPlayback

variable {D : Type}

theorem readChain_bounded (stringToTime : List UInt8 → Option Int64) (events : List (ReadEvent D))
    (s : LiveTVPlayback D) (n : Nat) (data : List UInt8)
    (got : (s.readChain stringToTime events n).1 = .bytes data) : data.length ≤ n := by
  unfold readChain at got
  split at got
  · rename_i t _ _ _
    exact Reading.run_bounded stringToTime (r := Reading.start s t n) trivial got
  · cases got

/-- A live TV playback behind the buffer. -/
def backing (stringToTime : List UInt8 → Option Int64) :
    Backing (LiveTVPlayback D) (ChainCall D) (List (ReadEvent D)) SeekAnswers where
  call s op := s.step stringToTime op.1
  source events := ⟨readChain stringToTime events, readChain_bounded stringToTime events⟩
  move answers unread s offset whence := s.seekChain unread offset whence answers
  getSize := getSize
  position := getPosition

theorem chunks_valid : chunks.Valid := by
  constructor <;> decide

def reached (stringToTime : List UInt8 → Option Int64) (memory : Nat → ProtoTransfer)
    (ops : List (StreamOp (ChainCall D) (List (ReadEvent D)) SeekAnswers)) :
    Stream (LiveTVPlayback D) :=
  (backing stringToTime).reached chunks (initial memory) ops

theorem reached_sound (stringToTime : List UInt8 → Option Int64) (memory : Nat → ProtoTransfer)
    (ops : List (StreamOp (ChainCall D) (List (ReadEvent D)) SeekAnswers)) :
    Sound (reached stringToTime memory ops).playback := by
  have initial : Sound (initial memory : LiveTVPlayback D) := .empty rfl rfl rfl rfl
  refine (backing stringToTime).reached_invariant chunks_valid (I := Sound) ?_ ?_ ?_ initial ops
  · intro s op h
    exact h.step stringToTime op
  · intro events s n h
    exact h.readChain stringToTime events n
  · intro answers unread s offset whence h
    exact h.seekChain unread offset whence answers

end LiveTVPlayback

/-- The backend accepts every open and every seek. -/
structure SeekAnswers.Accepting (answers : SeekAnswers) : Prop where
  reply : ∀ q, answers.reply q = some q
  announced : ∃ fileId fileSize, answers.announced = .accepted fileId fileSize

/-- A seek to the position `q` of a file arrives: it is there, or it is open and so long. -/
def ProtoTransfer.Reaches (t : ProtoTransfer) (q : Int) : Prop :=
  0 ≤ q ∧ (q = t.filePosition ∨ t.isOpen = true ∧ q ≤ t.fileSize)

namespace LiveTVPlayback

variable {D : Type}

/-- A seek to `p` arrives: the stream is there, or the file that the seek goes into lets it. -/
def Reaches (s : LiveTVPlayback D) (p : Int) : Prop :=
  s.Watching ∧ (p = s.transferPosition ∨
    ∃ j t, s.sought p = some j ∧ s.file j = some t ∧ t.Reaches (p - Parts.start s.sizes j))

section

variable {s : LiveTVPlayback D}

theorem opened_accepting {t : ProtoTransfer} (rested : t.Rested) {answers : SeekAnswers}
    (accepting : answers.Accepting) :
    (t.openTransfer answers.announced).1 = true ∧
      (t.openTransfer answers.announced).2.filePosition = t.filePosition := by
  obtain ⟨fileId, fileSize, announced⟩ := accepting.announced
  rw [announced]
  cases isOpen : t.isOpen with
  | true =>
    rw [openTransfer_open isOpen]
    exact ⟨rfl, rfl⟩
  | false =>
    unfold ProtoTransfer.openTransfer
    rw [if_neg (by simp [isOpen])]
    exact ⟨rfl, (rested isOpen).1.symm⟩

theorem seekFile_lands_iff (sound : Sound s) {j a : Nat} {program : Program D}
    (entry : s.chain.chained[j]? = some (a, program)) {answers : SeekAnswers}
    (accepting : answers.Accepting) {p q : Int} (nonneg : 0 ≤ p)
    (place : Parts.start s.sizes j + q = p) :
    ((s.seekFile j (q - (s.transfers a).filePosition) p answers).1 = p ∧
      (s.seekFile j (q - (s.transfers a).filePosition) p answers).2.getPosition 0 = p) ↔
        (s.transfers a).Reaches q := by
  have rested := sound.rested _ (List.mem_of_getElem? entry)
  have watched (t : ProtoTransfer) : (s.watch j a t).getPosition 0 = Parts.start s.sizes j +
      t.filePosition := by
    rw [getPosition, watch_position sound.toConsistent entry]
    simp
  have failed : ¬ (-1 : Int) = p := by omega
  rw [seekFile_eq sound.lastSequence entry, ProtoTransfer.Reaches]
  by_cases here : q = (s.transfers a).filePosition
  · subst here
    obtain ⟨opened, position⟩ := opened_accepting rested accepting
    rw [if_pos rfl]
    by_cases negative : (s.transfers a).filePosition < 0
    · rw [if_pos negative]
      exact iff_of_false (fun lands => failed lands.1) fun reaches =>
        absurd reaches.1 (Int.not_le.mpr negative)
    · rw [if_neg negative, if_pos opened]
      refine iff_of_true ⟨rfl, ?_⟩ ⟨Int.not_lt.mp negative, .inl rfl⟩
      rw [watched, position, place]
  · rw [if_neg here]
    by_cases moves : (s.transfers a).isOpen = true ∧ 0 ≤ q ∧ q ≤ (s.transfers a).fileSize
    · have placed : (s.watch j a ((s.transfers a).reset q)).getPosition 0 = p :=
        (watched _).trans place
      rw [if_pos moves, accepting.reply]
      simp only [if_neg (Int.not_lt.mpr moves.2.1), placed, moves, and_self, or_true]
    · simp only [if_neg moves, failed, false_and, false_iff, here, false_or]
      rintro ⟨positive, isOpen, bound⟩
      exact moves ⟨isOpen, positive, bound⟩

theorem seekChain_lands_iff (sound : Sound s) (offset : Int) (whence : Whence)
    {answers : SeekAnswers} (accepting : answers.Accepting) {p : Int}
    (target : s.seekTarget 0 offset whence = p) (nonneg : 0 ≤ p) (within : p ≤ s.getSize) :
    ((s.seekChain 0 offset whence answers).1 = p ∧
      (s.seekChain 0 offset whence answers).2.getPosition 0 = p) ↔ s.Reaches p := by
  have failed : ¬ (-1 : Int) = p := by omega
  by_cases watching : s.Watching
  · rw [seekChain_eq sound.toConsistent watching offset whence answers target,
      if_neg (by omega), Reaches]
    simp only [watching, true_and]
    by_cases here : p = s.transferPosition
    · simp [here, getPosition]
    · simp only [here, if_false, false_or]
      cases found : s.sought p with
      | none => simp [seekInto, failed]
      | some j =>
        cases file : s.file j with
        | none => simp [seekInto, file, failed]
        | some t =>
          obtain ⟨⟨a, program⟩, entry, rfl⟩ := Option.map_eq_some_iff.mp file
          have place : Parts.start s.sizes j + (p - Parts.start s.sizes j) = p := by omega
          have lands := seekFile_lands_iff sound entry accepting nonneg place
          rw [seekInto_entry entry, lands]
          constructor
          · intro reaches
            exact ⟨j, _, rfl, file, reaches⟩
          · rintro ⟨i, u, chosen, same, reaches⟩
            obtain rfl := Option.some.inj chosen
            obtain rfl := Option.some.inj (file.symm.trans same)
            exact reaches
  · simp [seekChain_unwatched watching, failed, Reaches, watching]

end

variable (stringToTime : List UInt8 → Option Int64)

theorem backing_seek {s : Stream (LiveTVPlayback D)} {a : ReadAhead}
    (h : Backing.Buffered chunks s a) (offset : Int) (whence : Whence)
    (away : ¬ (whence = .CUR ∧ offset = 0)) (answers : SeekAnswers) :
    let rebased := if whence = .CUR then offset - a.bytes.length else offset
    let chained := s.playback.seekChain 0 rebased whence answers
    let sought := (backing stringToTime).seek s offset whence answers
    sought = (chained.1, ⟨chained.2, s.buffer.clear⟩) ∧
      (backing stringToTime).getPosition sought.2 = chained.2.getPosition 0 := by
  have cleared : s.buffer.clear.unread.toNat = 0 := h.clear.unread chunks_valid.limit
  have sought := (backing stringToTime).seek_away chunks_valid h away answers
  refine ⟨sought, ?_⟩
  rw [sought]
  simp only [Backing.getPosition, backing, cleared]

theorem seek_set_iff {s : Stream (LiveTVPlayback D)} {a : ReadAhead}
    (h : Backing.Buffered chunks s a) (sound : Sound s.playback) {answers : SeekAnswers}
    (accepting : answers.Accepting) {p : Int} (nonneg : 0 ≤ p) (within : p ≤ s.playback.getSize) :
    let sought := (backing stringToTime).seek s p .SET answers
    (sought.1 = p ∧ (backing stringToTime).getPosition sought.2 = p) ↔ s.playback.Reaches p := by
  obtain ⟨sought, position⟩ := backing_seek stringToTime h p .SET (by simp) answers
  have lands := seekChain_lands_iff sound (p := p) p .SET accepting rfl nonneg within
  simp only at sought position ⊢
  rw [position, sought]
  exact lands

/-- A seek to a position of the stream arrives there if and only if the chain lets it: the
file it goes into is open, or the position is where that file is. -/
theorem seek_arrives_iff (stringToTime : List UInt8 → Option Int64) (memory : Nat → ProtoTransfer)
    (ops : List (StreamOp (ChainCall D) (List (ReadEvent D)) SeekAnswers)) {answers : SeekAnswers}
    (accepting : answers.Accepting) {p : Int} (nonneg : 0 ≤ p)
    (within : p ≤ (reached stringToTime memory ops).playback.getSize) :
    let s := reached stringToTime memory ops
    let sought := (backing stringToTime).seek s p .SET answers
    (sought.1 = p ∧ (backing stringToTime).getPosition sought.2 = p) ↔ s.playback.Reaches p := by
  obtain ⟨a, h⟩ := (backing stringToTime).reached_buffered chunks_valid (initial memory) ops
  have sound := reached_sound stringToTime memory ops
  exact seek_set_iff stringToTime h sound accepting nonneg within

def numbered (recordedId : UInt32) : Program Unit :=
  { stars := (), fileName := [UInt8.ofNat recordedId.toNat], recording := { recordedId } }

/-- A first file is watched, and a second one has begun behind it. -/
def grown : List (StreamOp (ChainCall Unit) (List (ReadEvent Unit)) SeekAnswers) :=
  [.call ⟨.spawnLiveTV ⟨1, true⟩, by simp⟩,
   .call ⟨.handleChainUpdate ⟨some (numbered 1), .unreachable, none⟩, by simp⟩,
   .call ⟨.updateFileSize [[], ascii "1", ascii "100"] (.accepted 7 100) (some 0), by simp⟩,
   .call ⟨.handleChainUpdate ⟨some (numbered 2), .unreachable, none⟩, by simp⟩,
   .call ⟨.updateFileSize [[], ascii "2", ascii "50"] .unreachable none, by simp⟩]

def noTransfer : ProtoTransfer := { pathName := [], storageGroupName := [] }

theorem moving_accepting (fileId : UInt32) (fileSize : Nat) : (moving fileId fileSize).Accepting :=
  ⟨fun _ => rfl, fileId, fileSize, rfl⟩

theorem grown_arrives :
    let s := reached (fun _ => none) (fun _ => noTransfer) grown
    let sought := (backing fun _ => none).seek s 20 .SET (moving 8 50)
    (sought.1 = 20 ∧ (backing fun _ => none).getPosition sought.2 = 20) ↔ s.playback.Reaches 20 :=
  seek_arrives_iff (fun _ => none) (fun _ => noTransfer) grown (moving_accepting 8 50) (by decide)
    (by decide)

/-- The second file has 50 bytes, but it was not played, so a seek into it is refused. -/
theorem grown_refused :
    let s := reached (fun _ => none) (fun _ => noTransfer) grown
    s.playback.getSize = 150 ∧ ((backing fun _ => none).seek s 120 .SET (moving 8 50)).1 = -1 := by
  decide

end LiveTVPlayback

end CppMyth
