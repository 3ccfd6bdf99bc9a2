import CppMyth.LiveTV.Stream

/-! The seeks of a live TV playback against its position: from where the stream is, and what a
refused one leaves behind. -/
namespace CppMyth
open Library

namespace LiveTVPlayback

variable {D : Type} {stringToTime : List UInt8 → Option Int64}

/-- Where the stream tells one position: it lies in the stream, and the bytes ahead come off it
once; else it is what a refused seek returns. -/
def Placed (s : Stream (LiveTVPlayback D)) : Prop :=
  let position := s.playback.getPosition s.buffer.unread.toNat
  if s.playback.Watching ∧ 0 ≤ position ∧ position ≤ s.playback.getSize then
    s.buffer.unread.toNat = 0 ∨ position < s.buffer.unread.toNat
  else position = -1

/-- `_seek` from the position itself. -/
theorem seekChain_here (s : LiveTVPlayback D) (unread : Nat) (answers : SeekAnswers) :
    s.seekChain unread 0 .CUR answers =
      (if s.Watching ∧ 0 ≤ s.getPosition unread ∧ s.getPosition unread ≤ s.getSize then
        s.getPosition unread else -1, s) := by
  have target : s.seekTarget unread 0 .CUR = s.getPosition unread := Int.add_zero _
  by_cases watching : s.Watching
  · have present : ¬ (s.recorder = none ∨ s.chain.currentSequence = 0) := not_or.mpr watching
    simp only [seekChain, target, if_neg present]
    by_cases out : s.getPosition unread > s.getSize ∨ s.getPosition unread < 0
    · have outside : ¬ (0 ≤ s.getPosition unread ∧ s.getPosition unread ≤ s.getSize) := by omega
      simp only [watching, if_pos out, true_and, if_neg outside]
    · have inside : 0 ≤ s.getPosition unread ∧ s.getPosition unread ≤ s.getSize := by omega
      simp only [watching, if_neg out, gt_iff_lt, Int.lt_irrefl, if_false, true_and, if_pos inside]
  · rw [seekChain_unwatched watching, if_neg fun inside => watching inside.1]

theorem seek_here (stringToTime : List UInt8 → Option Int64) (s : Stream (LiveTVPlayback D))
    (answers : SeekAnswers) :
    ((backing stringToTime).seek s 0 .CUR answers).2 = s ∧
      (((backing stringToTime).seek s 0 .CUR answers).1 = (backing stringToTime).getPosition s ↔
        Placed s) := by
  rw [Backing.seek_here]
  simp only [backing, seekChain_here, Backing.getPosition, Placed, true_and]
  generalize s.playback.getPosition s.buffer.unread.toNat = position
  generalize s.buffer.unread.toNat = unread
  by_cases inside : s.playback.Watching ∧ 0 ≤ position ∧ position ≤ s.playback.getSize
  · simp only [if_pos inside]
    split <;> omega
  · simp only [if_neg inside]
    rw [if_neg (by omega)]
    exact eq_comm

theorem seekChain_congr {s : LiveTVPlayback D} {unread : Nat} {offset offset' : Int}
    {whence whence' : Whence}
    (same : s.seekTarget unread offset whence = s.seekTarget unread offset' whence')
    (answers : SeekAnswers) :
    s.seekChain unread offset whence answers = s.seekChain unread offset' whence' answers := by
  simp only [seekChain, same]

/-- Any other seek from the current position goes where the same seek from the start of the
stream does, and arrives where that one does. -/
theorem seek_arrives (stringToTime : List UInt8 → Option Int64) {s : Stream (LiveTVPlayback D)}
    {a : ReadAhead} (h : Backing.Buffered chunks s a) (sound : Sound s.playback)
    {answers : SeekAnswers} (accepting : answers.Accepting) {d p : Int} (away : d ≠ 0)
    (target : (backing stringToTime).getPosition s + d = p) (nonneg : 0 ≤ p)
    (within : p ≤ s.playback.getSize) :
    let sought := (backing stringToTime).seek s d .CUR answers
    sought = (backing stringToTime).seek s p .SET answers ∧
      (sought.1 = p ∧ (backing stringToTime).getPosition sought.2 = p ↔ s.playback.Reaches p) := by
  obtain ⟨cur, position⟩ := backing_seek stringToTime h d .CUR (by simp [away]) answers
  obtain ⟨set_, -⟩ := backing_seek stringToTime h p .SET (by simp) answers
  have rebased : s.playback.seekTarget 0 (d - a.bytes.length) .CUR = p := by
    simp only [Backing.getPosition, backing, getPosition, h.unread chunks_valid.limit] at target
    simp only [seekTarget, getPosition]
    omega
  have lands := seekChain_lands_iff sound (d - a.bytes.length) .CUR accepting rebased nonneg within
  have same : s.playback.seekChain 0 (d - a.bytes.length) .CUR answers =
      s.playback.seekChain 0 p .SET answers := seekChain_congr rebased answers
  simp only [if_true, reduceCtorEq, if_false] at cur set_ position ⊢
  rw [position, cur, set_, same]
  exact ⟨rfl, same ▸ lands⟩

/-- Both seeks land, if the chain lets them, and if the one that stays tells the position. -/
theorem lands_iff {s : Stream (LiveTVPlayback D)} {a : ReadAhead}
    (h : Backing.Buffered chunks s a) (sound : Sound s.playback) {answers : SeekAnswers}
    (accepting : answers.Accepting) {d : Int}
    (nonneg : 0 ≤ (backing stringToTime).getPosition s + d)
    (within : (backing stringToTime).getPosition s + d ≤ s.playback.getSize) :
    (backing stringToTime).Lands s d answers ↔
      (d = 0 → Placed s) ∧ s.playback.Reaches ((backing stringToTime).getPosition s + d) := by
  by_cases away : d = 0
  · subst away
    obtain ⟨same, placed⟩ := seek_here stringToTime s answers
    have set_ := seek_set_iff stringToTime h sound accepting nonneg within
    simp only [Backing.Lands, same, Int.add_zero, and_true, forall_const] at set_ placed ⊢
    rw [placed]
    exact and_congr_right fun _ => set_
  · obtain ⟨same, lands⟩ := seek_arrives stringToTime h sound accepting away rfl nonneg within
    simp only [Backing.Lands, ← same, and_self, away, false_implies, true_and]
    exact lands

end LiveTVPlayback

/-- A seek to the position `q` of a file that fails leaves its counters: the backend did not
answer with another position, nor refuse to open a file that had a size. -/
def ProtoTransfer.Untouched (t : ProtoTransfer) (q : Int) (answers : SeekAnswers) : Prop :=
  t.Spared (q - t.filePosition) .CUR (answers.reply q) ∧
    (q = t.filePosition → t.isOpen = false → answers.announced = .refused → t.fileSize = 0)

/-- What becomes of a transfer that a failed seek has touched. -/
inductive ProtoTransfer.Touched (t : ProtoTransfer) : ProtoTransfer → Prop where
  | moved (isOpen : t.isOpen = true) (size : 0 ≤ t.fileSize) {r : Int} (negative : r < 0)
    (other : t.reset r ≠ t) : Touched t (t.reset r)
  | emptied {u : ProtoTransfer} (old : t.fileSize ≠ 0) (size : u.fileSize = 0) : Touched t u

namespace LiveTVPlayback

variable {D : Type} {stringToTime : List UInt8 → Option Int64}

/-- An opening that fails finds a closed file; it empties one that is refused. -/
theorem openTransfer_failed {t : ProtoTransfer} (rested : t.Rested) {announced : Announced}
    (failed : (t.openTransfer announced).1 = false) :
    t.isOpen = false ∧
      ((t.openTransfer announced).2 = t ∧ (announced = .refused → t.fileSize = 0) ∨
        announced = .refused ∧ t.fileSize ≠ 0 ∧ (t.openTransfer announced).2.fileSize = 0) := by
  cases isOpen : t.isOpen with
  | true =>
    rw [openTransfer_open isOpen] at failed
    cases failed
  | false =>
    obtain ⟨position, request, id⟩ := rested isOpen
    unfold ProtoTransfer.openTransfer at failed ⊢
    rw [if_neg (by simp [isOpen])] at failed ⊢
    refine ⟨rfl, ?_⟩
    cases announced with
    | accepted fileId fileSize => cases failed
    | unreachable => exact .inl ⟨rfl, fun refused => absurd refused (by simp)⟩
    | refused =>
      by_cases empty : t.fileSize = 0
      · refine .inl ⟨?_, fun _ => empty⟩
        obtain ⟨pathName, storageGroupName, isOpen, fileId, fileSize, filePosition,
          fileRequest⟩ := t
        simp only at empty isOpen position request id
        simp only [ProtoTransfer.close, empty, isOpen, position, request, id]
      · exact .inr ⟨rfl, empty, rfl⟩

/-- What a failed seek to `q` leaves: all as it was, or the file touched. -/
def Left (s : LiveTVPlayback D) (a : Nat) (q : Int) (answers : SeekAnswers)
    (s' : LiveTVPlayback D) : Prop :=
  ((s.transfers a).Untouched q answers ∧ s' = s) ∨
    (¬ (s.transfers a).Untouched q answers ∧ ∃ u, (s.transfers a).Touched u ∧
      s' = s.setTransfer a u)

theorem seekCheck_away (t : ProtoTransfer) {q : Int} (away : q ≠ t.filePosition) :
    t.seekCheck (q - t.filePosition) .CUR =
      if q < 0 ∨ q > t.fileSize then some (-1) else none := by
  have moves : q - t.filePosition ≠ 0 := by omega
  have position : t.filePosition + (q - t.filePosition) = q := by omega
  rw [ProtoTransfer.seekCheck, if_neg moves, position]

theorem seekFile_failed_here {s : LiveTVPlayback D} (sound : Sound s) {j a : Nat}
    {program : Program D} (entry : s.chain.chained[j]? = some (a, program))
    {answers : SeekAnswers} {p q : Int} (nonneg : 0 ≤ p) (here : q = (s.transfers a).filePosition)
    (failed : (s.seekFile j (q - (s.transfers a).filePosition) p answers).1 = -1) :
    Left s a q answers (s.seekFile j (q - (s.transfers a).filePosition) p answers).2 := by
  have rested : (s.transfers a).Rested := sound.rested (a, program) (List.mem_of_getElem? entry)
  have succeeded : ¬ p = -1 := by omega
  have spared : (s.transfers a).Spared (q - (s.transfers a).filePosition) .CUR
      (answers.reply q) := by
    intro _ check
    simp [ProtoTransfer.seekCheck, here] at check
  rw [seekFile_eq sound.lastSequence entry, if_pos here] at failed ⊢
  by_cases negative : q < 0
  · rw [if_pos negative]
    refine .inl ⟨⟨spared, fun _ closed => ?_⟩, rfl⟩
    have zero := (rested closed).1
    omega
  · rw [if_neg negative] at failed ⊢
    cases opened : ((s.transfers a).openTransfer answers.announced).1 with
    | true =>
      simp only [opened, if_true] at failed
      exact absurd failed succeeded
    | false =>
      obtain ⟨closed, ⟨same, empty⟩ | ⟨refused, old, size⟩⟩ := openTransfer_failed rested opened
      · refine .inl ⟨⟨spared, fun _ _ => empty⟩, ?_⟩
        simp only [same, setTransfer_self, Bool.false_eq_true, if_false]
      · exact .inr ⟨fun untouched => old (untouched.2 here closed refused), _,
          .emptied old size, rfl⟩

theorem seekFile_failed_away {s : LiveTVPlayback D} (sound : Sound s) {j a : Nat}
    {program : Program D} (entry : s.chain.chained[j]? = some (a, program))
    {answers : SeekAnswers} {p q : Int} (nonneg : 0 ≤ p) (away : q ≠ (s.transfers a).filePosition)
    (failed : (s.seekFile j (q - (s.transfers a).filePosition) p answers).1 = -1) :
    Left s a q answers (s.seekFile j (q - (s.transfers a).filePosition) p answers).2 := by
  have check := seekCheck_away _ away
  have succeeded : ¬ p = -1 := by omega
  have elsewhere : q = (s.transfers a).filePosition → (s.transfers a).isOpen = false →
      answers.announced = .refused → (s.transfers a).fileSize = 0 := fun same => absurd same away
  rw [seekFile_eq sound.lastSequence entry, if_neg away] at failed ⊢
  by_cases moves : (s.transfers a).isOpen = true ∧ 0 ≤ q ∧ q ≤ (s.transfers a).fileSize
  · rw [if_pos moves] at failed ⊢
    cases reply : answers.reply q with
    | none =>
      refine .inl ⟨⟨fun _ _ r answered => ?_, elsewhere⟩, rfl⟩
      simp [reply] at answered
    | some r =>
      simp only [reply] at failed ⊢
      by_cases negative : r < 0
      · simp only [if_pos negative]
        by_cases same : (s.transfers a).reset r = s.transfers a
        · refine .inl ⟨⟨fun _ _ r' answered _ => ?_, elsewhere⟩, ?_⟩
          · obtain rfl : r = r' := Option.some.inj (reply.symm.trans answered)
            exact same
          · rw [same, setTransfer_self]
        · refine .inr ⟨fun untouched => same ?_, _, .moved moves.1 (by omega) negative same, rfl⟩
          exact untouched.1 moves.1 (check.trans (if_neg (by omega))) r reply negative
      · simp only [if_neg negative] at failed
        exact absurd failed succeeded
  · rw [if_neg moves]
    refine .inl ⟨⟨fun isOpen checked => ?_, elsewhere⟩, rfl⟩
    rw [check] at checked
    split at checked
    · cases checked
    · exact absurd ⟨isOpen, by omega, by omega⟩ moves

theorem seekFile_failed {s : LiveTVPlayback D} (sound : Sound s) {j a : Nat} {program : Program D}
    (entry : s.chain.chained[j]? = some (a, program)) {answers : SeekAnswers} {p q : Int}
    (nonneg : 0 ≤ p)
    (failed : (s.seekFile j (q - (s.transfers a).filePosition) p answers).1 = -1) :
    Left s a q answers (s.seekFile j (q - (s.transfers a).filePosition) p answers).2 := by
  by_cases here : q = (s.transfers a).filePosition
  · exact seekFile_failed_here sound entry nonneg here failed
  · exact seekFile_failed_away sound entry nonneg here failed

/-- A seek to `p` that fails leaves the chain: it does not come to a file, or to one it leaves
as it is. -/
def Spared (s : LiveTVPlayback D) (p : Int) (answers : SeekAnswers) : Prop :=
  s.Watching → 0 ≤ p → p ≤ s.getSize → p ≠ s.transferPosition → ∀ j t, s.sought p = some j →
    s.file j = some t → t.Untouched (p - Parts.start s.sizes j) answers

theorem seekChain_refused {s : LiveTVPlayback D} (sound : Sound s) {offset : Int} {whence : Whence}
    {answers : SeekAnswers} {p : Int} (target : s.seekTarget 0 offset whence = p)
    (failed : (s.seekChain 0 offset whence answers).1 = -1) :
    (s.Spared p answers ∧ (s.seekChain 0 offset whence answers).2 = s) ∨
    (¬ s.Spared p answers ∧ s.Watching ∧ ∃ (j a : Nat) (program : Program D) (u : ProtoTransfer),
      s.chain.chained[j]? = some (a, program) ∧ (s.transfers a).Touched u ∧
      (s.seekChain 0 offset whence answers).2 = s.setTransfer a u) := by
  by_cases watching : s.Watching
  · rw [seekChain_eq sound.toConsistent watching offset whence answers target] at failed ⊢
    by_cases out : p > s.getSize ∨ p < 0
    · rw [if_pos out]
      refine .inl ⟨fun _ nonneg within => ?_, rfl⟩
      omega
    · rw [if_neg out] at failed ⊢
      by_cases here : p = s.transferPosition
      · rw [if_pos here]
        exact .inl ⟨fun _ _ _ away => absurd here away, rfl⟩
      · rw [if_neg here] at failed ⊢
        cases found : s.sought p with
        | none =>
          refine .inl ⟨fun _ _ _ _ j t chosen => ?_, rfl⟩
          exact absurd (found.symm.trans chosen) (by simp)
        | some j =>
          rw [found] at failed
          cases file : s.file j with
          | none =>
            refine .inl ⟨fun _ _ _ _ i t chosen held => ?_, by simp only [seekInto, file]⟩
            obtain rfl : j = i := Option.some.inj (found.symm.trans chosen)
            exact absurd (file.symm.trans held) (by simp)
          | some t =>
            obtain ⟨⟨a, program⟩, entry, rfl⟩ := Option.map_eq_some_iff.mp file
            rw [seekInto_entry entry] at failed ⊢
            rcases seekFile_failed sound entry (by omega) failed with ⟨kept, same⟩ |
              ⟨lost, u, touched, after⟩
            · refine .inl ⟨fun _ _ _ _ i t chosen held => ?_, same⟩
              obtain rfl : j = i := Option.some.inj (found.symm.trans chosen)
              obtain rfl := Option.some.inj (file.symm.trans held)
              exact kept
            · refine .inr ⟨fun spared => lost ?_, watching, j, a, program, u, entry, touched, after⟩
              exact spared watching (by omega) (by omega) here j _ found file
  · rw [seekChain_unwatched watching]
    exact .inl ⟨fun watched => absurd watched watching, rfl⟩

/-- A read of a file that has bytes, with one request, tells the transfer of the file. -/
theorem readChain_telling (stringToTime : List UInt8 → Option Int64) {s : LiveTVPlayback D}
    (t : ProtoTransfer) {u : ProtoTransfer} (current : s.current = some u)
    (recorder : s.recorder ≠ none) (isOpen : u.isOpen = true) (rest : 0 < u.getRemaining) {n : Nat}
    (some_ : 0 < n) (update : Answers D) :
    (s.readChain stringToTime (List.replicate 2 (.turn
      ⟨0, update, .unreachable, none, false, ProtoTransfer.telling t⟩)) n).1 =
        .bytes [if u = t then 1 else 0] := by
  obtain ⟨a, currentTransfer, rfl⟩ := Option.map_eq_some_iff.mp current
  obtain ⟨r, recorded⟩ := Option.ne_none_iff_exists'.mp recorder
  have nonzero : ¬ (s.transfers a).getRemaining = 0 := by omega
  have nonneg : ¬ (s.transfers a).getRemaining < 0 := by omega
  have told := ProtoTransfer.requestBlock_telling (t := t) isOpen (show 0 <
    (if (s.transfers a).getRemaining < n then (s.transfers a).getRemaining.toNat else n) by
      split <;> omega)
  simp only [readChain, current, recorded, Reading.start, List.replicate, Reading.run, Reading.step,
    Reading.turn, Reading.head, nonzero, nonneg, if_false, Reading.request, currentTransfer]
  simp [told, ReadFrame.back, ReadFrame.result]

theorem watch_current (s : LiveTVPlayback D) (j a : Nat) (t : ProtoTransfer) :
    (s.watch j a t).current = some t := by
  simp [watch, setTransfer, current]

/-- A touched transfer is seen: by the size of the stream, or once its file is watched. -/
theorem touched_seen {s : Stream (LiveTVPlayback D)} {chunk : Nat}
    (h : Backing.Buffered chunks s ⟨[], chunk⟩) (sound : Sound s.playback)
    (watching : s.playback.Watching) {j a : Nat} {program : Program D}
    (entry : s.playback.chain.chained[j]? = some (a, program)) {u : ProtoTransfer}
    (touched : (s.playback.transfers a).Touched u) :
    ¬ (backing stringToTime).AsItWas chunks s ⟨s.playback.setTransfer a u, s.buffer.clear⟩ := by
  intro same
  cases touched with
  | emptied old size =>
    have sizes := sizes_setTransfer sound.toConsistent entry u
    have file : s.playback.file j = some (s.playback.transfers a) := by simp [file, entry]
    obtain ⟨inside, value⟩ := List.getElem?_eq_some_iff.mp (sizes_getElem file)
    have total := same.getSize
    simp only [backing, getSize, sizes, List.sum_set', inside, dif_pos, value, size] at total
    omega
  | @moved isOpen size r negative other =>
    let watch : ChainCall D := ⟨.switchChain (j + 1) .unreachable, by simp⟩
    have after := same.step (.call watch)
    have first : (s.playback.switchChain (j + 1) .unreachable).2 =
        s.playback.watch j a (s.playback.transfers a) := by
      rw [switchChain_entry sound.lastSequence entry, openTransfer_open isOpen, if_pos rfl]
    have second := switchChain_moved sound.lastSequence entry isOpen r .unreachable
    simp only [Backing.machine, backing, LiveTVPlayback.step, watch, first, second] at after
    have cleared : Backing.Buffered chunks
        ⟨s.playback.watch j a ((s.playback.transfers a).reset r), s.buffer.clear⟩ ⟨[], chunk⟩ :=
      h.clear
    have kept : Backing.Buffered chunks
        ⟨s.playback.watch j a (s.playback.transfers a), s.buffer⟩ ⟨[], chunk⟩ := h
    have stays : (s.playback.transfers a).filePosition = r := by
      have seen := after.getPosition
      simp only [Backing.getPosition, kept.unread chunks_valid.limit,
        cleared.unread chunks_valid.limit, getPosition, watch_position sound.toConsistent entry,
        ProtoTransfer.reset] at seen
      omega
    have rest : 0 < (s.playback.transfers a).getRemaining := by
      unfold ProtoTransfer.getRemaining
      omega
    let update : Answers D := ⟨none, .unreachable, none⟩
    have told := readChain_telling stringToTime (s.playback.transfers a)
      (watch_current s.playback j a (s.playback.transfers a)) watching.1 isOpen rest h.positive
      update
    have told' := readChain_telling stringToTime (s.playback.transfers a)
      (watch_current s.playback j a ((s.playback.transfers a).reset r)) watching.1 isOpen
      (stays ▸ rest) h.positive update
    have same := after.fetched chunks_valid kept cleared _ told told'
    simp [other] at same

/-- What a refused seek may be, if the stream is to stay as it was: one that stays where it is,
or one with empty buffers, which spares the file it comes to. -/
def Harmless (s : Stream (LiveTVPlayback D)) (offset : Int) (whence : Whence)
    (answers : SeekAnswers) : Prop :=
  (whence = .CUR ∧ offset = 0) ∨ s.buffer.unread.toNat = 0 ∧
    s.playback.Spared (s.playback.seekTarget 0 offset whence) answers

theorem readChain_silent : (backing (D := D) stringToTime).Silent [] := by
  intro s n data _
  simp only [backing, readChain]
  split
  · exact ReadResult.noConfusion
  · exact ReadResult.noConfusion

/-- A refused seek leaves the stream as it was if and only if it is harmless. -/
theorem refused_iff {s : Stream (LiveTVPlayback D)} {a : ReadAhead}
    (h : Backing.Buffered chunks s a) (sound : Sound s.playback) {offset : Int} {whence : Whence}
    {answers : SeekAnswers}
    (refused : ((backing stringToTime).seek s offset whence answers).1 = -1) :
    (backing stringToTime).AsItWas chunks s
        ((backing stringToTime).seek s offset whence answers).2 ↔
      Harmless s offset whence answers := by
  have unread := h.unread chunks_valid.limit
  by_cases here : whence = .CUR ∧ offset = 0
  · obtain ⟨rfl, rfl⟩ := here
    rw [(seek_here stringToTime s answers).1]
    exact iff_of_true (fun _ => rfl) (.inl ⟨rfl, rfl⟩)
  · simp only [Harmless, here, false_or, unread]
    constructor
    · intro same
      have empty : a.bytes = [] := same.nothing_ahead chunks_valid h here readChain_silent
      rw [Backing.seek_empty _ chunks_valid h empty here] at same refused
      refine ⟨by simp [empty], ?_⟩
      rcases seekChain_refused sound rfl refused with ⟨spared, -⟩ |
        ⟨-, watching, j, b, program, u, entry, touched, after⟩
      · exact spared
      · obtain ⟨bytes, chunk⟩ := a
        simp only at empty
        subst empty
        simp only [backing, after] at same
        exact absurd same (touched_seen h sound watching entry touched)
    · rintro ⟨none, spared⟩
      have empty : a.bytes = [] := List.eq_nil_of_length_eq_zero none
      rw [Backing.seek_empty _ chunks_valid h empty here] at refused ⊢
      rcases seekChain_refused sound rfl refused with ⟨-, same⟩ | ⟨lost, -⟩
      · simp only [backing, same]
        exact Backing.asItWas_cleared _ chunks_valid h empty
      · exact absurd spared lost

end LiveTVPlayback

end CppMyth
