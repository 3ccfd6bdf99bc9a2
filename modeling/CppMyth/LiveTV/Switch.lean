import CppMyth.LiveTV.Stream

/-! A switch of the chain that fails: whether the reader stays in its file, where it was. -/
namespace CppMyth
open Library

/-- A seek to the start of a file succeeds: it is there, or the backend goes there. -/
def ProtoTransfer.Rewinds (t : ProtoTransfer) (position : Option Int) : Prop :=
  t.filePosition = 0 ∨ (0 ≤ t.fileSize ∧ position = some 0)

/-- A seek to the start of a file leaves its position: it is not asked of the backend, or not
answered, or answered with the position of the file. -/
def ProtoTransfer.Stays (t : ProtoTransfer) (position : Option Int) : Prop :=
  t.filePosition = 0 ∨ t.fileSize < 0 ∨ position = none ∨ position = some t.filePosition

namespace ProtoTransfer

variable {t : ProtoTransfer}

instance (t : ProtoTransfer) (position : Option Int) : Decidable (t.Rewinds position) :=
  inferInstanceAs (Decidable (_ ∨ _))

instance (t : ProtoTransfer) (position : Option Int) : Decidable (t.Stays position) :=
  inferInstanceAs (Decidable (_ ∨ _))

theorem Rested.openTransfer_position (h : t.Rested) (announced : Announced) :
    (t.openTransfer announced).2.filePosition = t.filePosition := by
  unfold ProtoTransfer.openTransfer
  split
  · rfl
  · rename_i closed
    have start := (h (by simpa using closed)).1
    cases announced with
    | unreachable => rfl
    | refused => exact start.symm
    | accepted fileId fileSize => exact start.symm

theorem Rested.openTransfer_away (h : t.Rested) (away : t.filePosition ≠ 0)
    (announced : Announced) : t.openTransfer announced = (true, t) := by
  cases isOpen : t.isOpen with
  | true => simp [ProtoTransfer.openTransfer, isOpen]
  | false => exact absurd (h isOpen).1 away

theorem Rested.rewind (h : t.Rested) (announced : Announced) (position : Option Int) :
    let sought := (t.openTransfer announced).2.transferSeek 0 .SET position
    (sought.1 = 0 ↔ t.Rewinds position) ∧ (sought.1 = 0 → sought.2.filePosition = 0) ∧
      (sought.1 ≠ 0 → (sought.2.filePosition = t.filePosition ↔ t.Stays position)) := by
  simp only [transferSeek_set, moveTo]
  by_cases start : t.filePosition = 0
  · have opened := h.openTransfer_position announced
    rw [start] at opened
    simp [opened, Rewinds, Stays, start]
  · have moved : ¬ (0 : Int) = t.filePosition := fun same => start same.symm
    have isOpen : t.isOpen = true := by
      cases closed : t.isOpen with
      | true => rfl
      | false => exact absurd (h closed).1 start
    simp only [h.openTransfer_away start, if_neg moved, isOpen, Int.le_refl, true_and, Rewinds,
      Stays, start, false_or]
    by_cases size : 0 ≤ t.fileSize
    · have sized : ¬ t.fileSize < 0 := by omega
      cases position with
      | none => simp [size]
      | some r =>
        simp only [reset, size, sized, true_and, false_or, reduceCtorEq,
          Option.some.injEq]
        exact ⟨Iff.rfl, id, fun _ => Iff.rfl⟩
    · have negative : t.fileSize < 0 := by omega
      simp [size, negative]

end ProtoTransfer

namespace LiveTVPlayback

variable {D : Type} {s : LiveTVPlayback D}

/-- What the next read goes by: the current file, its number and its position. -/
def place (s : LiveTVPlayback D) : Nat × Option Nat × Option Int :=
  (s.chain.currentSequence, s.chain.currentTransfer, s.current.map ProtoTransfer.filePosition)

/-- The chain is at the start of its last file. -/
def AtLast (s : LiveTVPlayback D) : Prop :=
  ∃ entry, s.chain.chained.getLast? = some entry ∧
    s.place = (s.chain.chained.length, some entry.1, some 0)

/-- No switch that fails moves the reader, and one to the last file that succeeds puts it at
the start of that file. -/
structure SwitchesWhole (s : LiveTVPlayback D) (announced : Announced) (position : Option Int) :
    Prop where
  chain : ∀ sequence, (s.switchChain sequence announced).1 = false →
    (s.switchChain sequence announced).2.place = s.place
  last_failed : (s.switchChainLast announced position).1 = false →
    (s.switchChainLast announced position).2.place = s.place
  last_done : (s.switchChainLast announced position).1 = true →
    (s.switchChainLast announced position).2.AtLast

/-- There is a last file, and it is open or opens. -/
def OpensLast (s : LiveTVPlayback D) (announced : Announced) : Prop :=
  ∃ entry, s.chain.chained.getLast? = some entry ∧
    ((s.transfers entry.1).openTransfer announced).1 = true

/-- Once it is open the last file is rewound; or else it was the current one already, and no
seek moves it. -/
def Rewound (s : LiveTVPlayback D) (position : Option Int) : Prop :=
  ∃ entry, s.chain.chained.getLast? = some entry ∧
    (s.recorder ≠ none ∧ (s.transfers entry.1).Rewinds position ∨
      s.chain.currentSequence = s.chain.lastSequence ∧
        (s.recorder = none ∨ (s.transfers entry.1).Stays position))

theorem place_setTransfer (s : LiveTVPlayback D) {a : Nat} {t : ProtoTransfer}
    (same : t.filePosition = (s.transfers a).filePosition) :
    (s.setTransfer a t).place = s.place := by
  simp only [place, current, setTransfer, Option.map_map]
  congr 2
  apply Option.map_congr
  intro b _
  by_cases hit : b = a
  · subst hit
    simpa using same
  · simp [Function.update_of_ne hit]

theorem place_watch (s : LiveTVPlayback D) (j a : Nat) (t : ProtoTransfer) :
    (s.watch j a t).place = (j + 1, some a, some t.filePosition) := by
  simp [place, current, watch, setTransfer]

theorem setTransfer_watch (s : LiveTVPlayback D) (j a : Nat) (t u : ProtoTransfer) :
    (s.watch j a t).setTransfer a u = s.watch j a u := by
  simp [watch, setTransfer]

theorem switchChain_failed (sound : Sound s) (sequence : Nat) (announced : Announced)
    (failed : (s.switchChain sequence announced).1 = false) :
    (s.switchChain sequence announced).2.place = s.place := by
  cases sequence with
  | zero => rfl
  | succ j =>
    cases entry : s.chain.chained[j]? with
    | none =>
      unfold switchChain
      split
      · rfl
      · simp [entry]
    | some found =>
      obtain ⟨a, program⟩ := found
      have rested : (s.transfers a).Rested := sound.rested _ (List.mem_of_getElem? entry)
      rw [switchChain_entry sound.lastSequence entry] at failed ⊢
      split at failed
      · cases failed
      · rename_i closed
        rw [if_neg closed]
        exact place_setTransfer s (rested.openTransfer_position announced)

theorem switchChainLast_entry
    (lastSequence : s.chain.lastSequence = s.chain.chained.length) {j a : Nat}
    {program : Program D} (entry : s.chain.chained[j]? = some (a, program))
    (last : j + 1 = s.chain.chained.length) (announced : Announced) (position : Option Int)
    (opens : ((s.transfers a).openTransfer announced).1 = true) :
    s.switchChainLast announced position =
      if s.recorder = none then (false, s.watch j a ((s.transfers a).openTransfer announced).2)
      else
        let sought := ((s.transfers a).openTransfer announced).2.transferSeek 0 .SET position
        (sought.1 = 0, s.watch j a sought.2) := by
  have switched := switchChain_entry lastSequence entry announced
  rw [if_pos opens, last, ← lastSequence] at switched
  have transfer : (s.watch j a ((s.transfers a).openTransfer announced).2).transfers a =
      ((s.transfers a).openTransfer announced).2 := by simp [watch, setTransfer]
  cases recorder : s.recorder with
  | none =>
    have same : (s.watch j a ((s.transfers a).openTransfer announced).2).recorder = none :=
      recorder
    simp only [switchChainLast, switched, same, if_true]
  | some m_recorder =>
    have same : (s.watch j a ((s.transfers a).openTransfer announced).2).recorder =
        some m_recorder := recorder
    have current : (s.watch j a ((s.transfers a).openTransfer announced).2).chain.currentTransfer =
        some a := rfl
    simp only [switchChainLast, switched, same, current, transfer, setTransfer_watch, reduceCtorEq,
      if_false]

theorem switchChainLast_closed (closed : (s.switchChain s.chain.lastSequence announced).1 = false)
    (position : Option Int) : s.switchChainLast announced position =
      (false, (s.switchChain s.chain.lastSequence announced).2) := by
  simp only [switchChainLast, closed]

theorem switchChain_opensLast (sound : Sound s) (announced : Announced) :
    (s.switchChain s.chain.lastSequence announced).1 = true ↔ s.OpensLast announced := by
  have lastSequence := sound.lastSequence
  cases last : s.chain.chained.getLast? with
  | none =>
    have empty : s.chain.lastSequence = 0 := by
      rw [lastSequence, List.getLast?_eq_none_iff.mp last, List.length_nil]
    constructor
    · intro opened
      simp [switchChain, empty] at opened
    · rintro ⟨entry, found, -⟩
      rw [last] at found
      cases found
  | some entry =>
    obtain ⟨a, program⟩ := entry
    have place := last
    rw [List.getLast?_eq_getElem?] at place
    have inside := (List.getElem?_eq_some_iff.mp place).1
    have next : s.chain.lastSequence = s.chain.chained.length - 1 + 1 := by omega
    rw [next, switchChain_entry lastSequence place]
    constructor
    · intro opened
      refine ⟨(a, program), last, ?_⟩
      split at opened
      · assumption
      · cases opened
    · rintro ⟨entry, found, opens⟩
      rw [last] at found
      cases found
      rw [if_pos opens]

/-- Who is at the last file already is there with the position of that file. -/
theorem place_last (sound : Sound s) {a : Nat} {program : Program D}
    (last : s.chain.chained.getLast? = some (a, program)) :
    (∃ position, s.place = (s.chain.chained.length, some a, position)) ↔
      s.chain.currentSequence = s.chain.lastSequence := by
  have place := last
  rw [List.getLast?_eq_getElem?] at place
  have inside := (List.getElem?_eq_some_iff.mp place).1
  have lastSequence := sound.lastSequence
  constructor
  · rintro ⟨position, same⟩
    rw [lastSequence]
    exact congrArg Prod.fst same
  · intro same
    obtain ⟨entry, found, current⟩ := sound.watching (by omega)
    rw [same, lastSequence, place] at found
    cases found
    refine ⟨s.current.map ProtoTransfer.filePosition, ?_⟩
    simp only [LiveTVPlayback.place, same, lastSequence, current]

theorem place_last_position (sound : Sound s) {a : Nat} {program : Program D}
    (last : s.chain.chained.getLast? = some (a, program)) (position : Int) :
    (s.chain.chained.length, some a, some position) = s.place ↔
      s.chain.currentSequence = s.chain.lastSequence ∧
        position = (s.transfers a).filePosition := by
  rw [← place_last sound last]
  constructor
  · intro same
    refine ⟨⟨some position, same.symm⟩, ?_⟩
    have current : s.chain.currentTransfer = some a :=
      (congrArg (fun place => place.2.1) same).symm
    have counter := congrArg (fun place => place.2.2) same
    simp only [place, LiveTVPlayback.current, current, Option.map_some,
      Option.some.injEq] at counter
    exact counter
  · rintro ⟨⟨counter, same⟩, rfl⟩
    have current : s.chain.currentTransfer = some a := congrArg (fun place => place.2.1) same
    have number : s.chain.currentSequence = s.chain.chained.length := congrArg Prod.fst same
    simp only [place, LiveTVPlayback.current, current, number, Option.map_some]

theorem last_switch_iff (sound : Sound s) {a : Nat} {program : Program D}
    (last : s.chain.chained.getLast? = some (a, program)) (announced : Announced)
    (position : Option Int) (opens : ((s.transfers a).openTransfer announced).1 = true) :
    (((s.switchChainLast announced position).1 = false →
        (s.switchChainLast announced position).2.place = s.place) ∧
      ((s.switchChainLast announced position).1 = true →
        (s.switchChainLast announced position).2.AtLast)) ↔ s.Rewound position := by
  have found := last
  rw [List.getLast?_eq_getElem?] at found
  have inside := (List.getElem?_eq_some_iff.mp found).1
  have whole : s.chain.chained.length - 1 + 1 = s.chain.chained.length := by omega
  have rested : (s.transfers a).Rested := sound.rested _ (List.mem_of_getElem? found)
  obtain ⟨rewinds, start, stays⟩ := rested.rewind announced position
  have rewound : s.Rewound position ↔ (s.recorder ≠ none ∧ (s.transfers a).Rewinds position ∨
      s.chain.currentSequence = s.chain.lastSequence ∧
        (s.recorder = none ∨ (s.transfers a).Stays position)) := by
    simp only [Rewound, last, Option.some.injEq, exists_eq_left']
  rw [rewound, switchChainLast_entry sound.lastSequence found whole announced position opens]
  by_cases recorder : s.recorder = none
  · -- the file was watched, and then there is no one to seek
    have kept := place_last_position sound last (s.transfers a).filePosition
    rw [if_pos recorder]
    simp only [place_watch, whole, rested.openTransfer_position, kept]
    simp [recorder]
  · simp only [if_neg recorder, place_watch, whole]
    by_cases done : (((s.transfers a).openTransfer announced).2.transferSeek 0 .SET position).1 = 0
    · have atLast : (s.watch (s.chain.chained.length - 1) a
          (((s.transfers a).openTransfer announced).2.transferSeek 0 .SET position).2).AtLast := by
        refine ⟨(a, program), last, ?_⟩
        rw [place_watch, whole, start done]
        rfl
      simp [done, atLast, recorder, rewinds.mp done]
    · have kept := place_last_position sound last
        (((s.transfers a).openTransfer announced).2.transferSeek 0 .SET position).2.filePosition
      rw [stays done] at kept
      have missed : ¬ (s.transfers a).Rewinds position := fun back => done (rewinds.mpr back)
      simp [done, kept, recorder, missed]

/-- In every state that a playback reaches, the switches are all or nothing, but for a last
file that is switched to and then not rewound. -/
theorem switches_whole_iff (stringToTime : List UInt8 → Option Int64)
    (memory : Nat → ProtoTransfer)
    (ops : List (StreamOp (ChainCall D) (List (ReadEvent D)) SeekAnswers))
    (announced : Announced) (position : Option Int) :
    let s := (reached stringToTime memory ops).playback
    s.SwitchesWhole announced position ↔ (s.OpensLast announced → s.Rewound position) := by
  intro s
  have sound : Sound s := reached_sound stringToTime memory ops
  have opening := switchChain_opensLast sound announced
  constructor
  · rintro whole ⟨⟨a, program⟩, last, opens⟩
    exact (last_switch_iff sound last announced position opens).mp
      ⟨whole.last_failed, whole.last_done⟩
  · intro rewound
    by_cases opens : s.OpensLast announced
    · obtain ⟨⟨a, program⟩, last, opened⟩ := opens
      obtain ⟨failed, done⟩ := (last_switch_iff sound last announced position opened).mpr
        (rewound ⟨_, last, opened⟩)
      exact ⟨fun sequence => switchChain_failed sound sequence announced, failed, done⟩
    · have closed : (s.switchChain s.chain.lastSequence announced).1 = false := by
        rw [← opening] at opens
        simpa using opens
      have last := switchChainLast_closed closed position
      constructor
      · exact fun sequence => switchChain_failed sound sequence announced
      · intro _
        rw [last]
        exact switchChain_failed sound _ announced closed
      · intro done
        rw [last] at done
        cases done

/-- The second file is watched at its 20th byte, and then the first one again. -/
def returned : List (StreamOp (ChainCall Unit) (List (ReadEvent Unit)) SeekAnswers) :=
  grown ++ [.call ⟨.switchChain 2 (.accepted 8 50), by simp⟩, .seek 120 .SET (moving 8 50),
    .seek 20 .SET (moving 8 50)]

def returnedPlayback : LiveTVPlayback Unit :=
  (reached (fun _ => none) (fun _ => noTransfer) returned).playback

/-- The seek of a switch to the last file is not answered: the call fails, and the reader has
gone from the 20th byte of the first file to the 20th byte of the second. -/
theorem returned_switch_partial :
    (returnedPlayback.place = (1, some 0, some 20) ∧
      (returnedPlayback.switchChainLast .unreachable none).1 = false ∧
      (returnedPlayback.switchChainLast .unreachable none).2.place = (2, some 1, some 20)) ∧
    ¬ ∀ (ops : List (StreamOp (ChainCall Unit) (List (ReadEvent Unit)) SeekAnswers))
      (announced : Announced) (position : Option Int),
      (reached (fun _ => none) (fun _ => noTransfer) ops).playback.SwitchesWhole announced
        position := by
  have run : returnedPlayback.place = (1, some 0, some 20) ∧
      (returnedPlayback.switchChainLast .unreachable none).1 = false ∧
      (returnedPlayback.switchChainLast .unreachable none).2.place = (2, some 1, some 20) := by
    decide
  refine ⟨run, ?_⟩
  intro claimed
  have kept : (returnedPlayback.switchChainLast .unreachable none).2.place =
      returnedPlayback.place := (claimed returned .unreachable none).last_failed run.2.1
  rw [run.2.2, run.1] at kept
  cases kept

end LiveTVPlayback

end CppMyth
