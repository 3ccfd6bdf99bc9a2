import CppMyth.LiveTV.Chain
import CppMyth.Library.Parts

/-! Seeking in a chain of files, `mythlivetvplayback.cpp`. The files are laid end to end in one
stream; the loops look for the file of a position from the current one on, and carry the
position of the file they are at. -/
namespace CppMyth
open Library

/-- What the backend answers during one seek: the position after a SEEK, by the position asked
for, and the announcement of a file that is opened. -/
structure SeekAnswers where
  reply : Int → Option Int
  announced : Announced

def ProtoTransfer.moved (t : ProtoTransfer) (p : Int) : Int × Int :=
  if p > t.fileSize ∨ p < 0 then (-1, t.filePosition) else (p, p)

namespace LiveTVPlayback

variable {D : Type}

/-- The file at an index of `m_chain.chained`. -/
def file (s : LiveTVPlayback D) (ci : Nat) : Option ProtoTransfer :=
  s.chain.chained[ci]?.map fun entry => s.transfers entry.1

def sizes (s : LiveTVPlayback D) : List Int :=
  s.chain.chained.map fun entry => (s.transfers entry.1).fileSize

def getSize (s : LiveTVPlayback D) : Int := s.sizes.sum

/-- The position of the current transfer in the stream. -/
def transferPosition (s : LiveTVPlayback D) : Int :=
  match s.chain.currentTransfer with
  | some a =>
    if s.chain.currentSequence ≠ 0 then
      Parts.start s.sizes (s.chain.currentSequence - 1) + (s.transfers a).filePosition
    else 0
  | none => 0

/-- It is the position of the first byte in the buffer. -/
def getPosition (s : LiveTVPlayback D) (unread : Nat) : Int := s.transferPosition - unread

/-- Try seek file to desired position. On success switch chain. -/
def seekFile (s : LiveTVPlayback D) (ci : Nat) (offset p : Int) (answers : SeekAnswers) :
    Int × LiveTVPlayback D :=
  match s.chain.chained[ci]? with
  | none => (-1, s)
  | some (a, _) =>
    let sought := (s.transfers a).transferSeek offset .CUR
      (answers.reply ((s.transfers a).target offset .CUR))
    let s := s.setTransfer a sought.2
    if sought.1 < 0 then (-1, s)
    else
      let switched := s.switchChain (ci + 1) answers.announced
      if switched.1 then (p, switched.2) else (-1, switched.2)

/-- The loop for a position ahead; `position` is that of the file at `ci`. -/
def seekForward (s : LiveTVPlayback D) (p : Int) (answers : SeekAnswers) :
    Nat → Nat → Int → Int × LiveTVPlayback D
  | 0, _, _ => (-1, s)
  | fuel + 1, ci, position =>
    match s.file ci with
    | none => (-1, s)
    | some t =>
      if position + t.getRemaining ≥ p then s.seekFile ci (p - position) p answers
      else if ci + 1 < s.chain.lastSequence then -- switch next
        match s.file (ci + 1) with
        | none => (-1, s)
        | some next =>
          s.seekForward p answers fuel (ci + 1) (position + t.getRemaining + next.filePosition)
      else (-1, s)

def seekBackward (s : LiveTVPlayback D) (p : Int) (answers : SeekAnswers) :
    Nat → Int → Int × LiveTVPlayback D
  | ci, position =>
    match s.file ci with
    | none => (-1, s)
    | some t =>
      if position - t.filePosition ≤ p then s.seekFile ci (p - position) p answers
      else
        match ci with
        | 0 => (-1, s)
        | ci + 1 => -- switch previous
          match s.file ci with
          | none => (-1, s)
          | some previous =>
            s.seekBackward p answers ci (position - t.filePosition - previous.getRemaining)

/-- The position that `_seek` is asked for. -/
def seekTarget (s : LiveTVPlayback D) (unread : Nat) (offset : Int) : Whence → Int
  | .SET => offset
  | .END => s.getSize + offset
  | .CUR => s.getPosition unread + offset

/-- `_seek` -/
def seekChain (s : LiveTVPlayback D) (unread : Nat) (offset : Int) (whence : Whence)
    (answers : SeekAnswers) : Int × LiveTVPlayback D :=
  if s.recorder = none ∨ s.chain.currentSequence = 0 then (-1, s)
  else
    let ci := s.chain.currentSequence - 1
    let size := s.getSize
    let position := s.getPosition unread
    let p := s.seekTarget unread offset whence
    if p > size ∨ p < 0 then (-1, s)
    else if p > position then s.seekForward p answers s.chain.lastSequence ci position
    else if p < position then s.seekBackward p answers ci position
    else (p, s)

theorem sizes_getElem {s : LiveTVPlayback D} {ci : Nat} {t : ProtoTransfer}
    (found : s.file ci = some t) : s.sizes[ci]? = some t.fileSize := by
  obtain ⟨entry, chained, rfl⟩ := Option.map_eq_some_iff.mp found
  simp [sizes, chained]

theorem file_some {s : LiveTVPlayback D} {ci : Nat} (inside : ci < s.chain.chained.length) :
    ∃ t, s.file ci = some t :=
  ⟨_, Option.map_eq_some_iff.mpr ⟨_, List.getElem?_eq_getElem inside, rfl⟩⟩

@[simp] theorem length_sizes (s : LiveTVPlayback D) :
    s.sizes.length = s.chain.chained.length := by
  simp [sizes]

/-- What the loops come to, once they have found the file of the position. -/
def seekInto (s : LiveTVPlayback D) (p : Int) (answers : SeekAnswers) :
    Option Nat → Int × LiveTVPlayback D
  | none => (-1, s)
  | some j =>
    match s.file j with
    | none => (-1, s)
    | some t => s.seekFile j (p - (Parts.start s.sizes j + t.filePosition)) p answers

theorem seekForward_eq {s : LiveTVPlayback D}
    (lastSequence : s.chain.lastSequence = s.chain.chained.length) (p : Int)
    (answers : SeekAnswers) {fuel ci : Nat} {t : ProtoTransfer} (found : s.file ci = some t)
    (enough : s.chain.chained.length ≤ ci + fuel) (inside : ci < s.chain.chained.length) :
    s.seekForward p answers fuel ci (Parts.start s.sizes ci + t.filePosition) =
      s.seekInto p answers (Parts.ahead s.sizes p ci) := by
  induction fuel generalizing ci t with
  | zero => omega
  | succ fuel ih =>
    have size := sizes_getElem found
    have ends : Parts.start s.sizes ci + t.filePosition + t.getRemaining =
        Parts.start s.sizes (ci + 1) := by
      rw [Parts.start_succ size, ProtoTransfer.getRemaining]
      omega
    rw [Parts.ahead_step (by simpa using inside)]
    simp only [seekForward, found, ends]
    by_cases reaches : p ≤ Parts.start s.sizes (ci + 1)
    · rw [if_pos reaches, if_pos reaches]
      simp only [seekInto, found]
    · rw [if_neg reaches, if_neg reaches, lastSequence]
      by_cases more : ci + 1 < s.chain.chained.length
      · obtain ⟨u, following⟩ := file_some more
        rw [if_pos more]
        simp only [following]
        exact ih following (by omega) more
      · rw [if_neg more, Parts.ahead_end (by simpa using Nat.le_of_not_lt more)]
        rfl

theorem seekBackward_eq {s : LiveTVPlayback D} (p : Int) (answers : SeekAnswers) {ci : Nat}
    {t : ProtoTransfer} (found : s.file ci = some t) (inside : ci < s.chain.chained.length) :
    s.seekBackward p answers ci (Parts.start s.sizes ci + t.filePosition) =
      s.seekInto p answers (Parts.behind s.sizes p ci) := by
  induction ci generalizing t with
  | zero =>
    rw [Parts.behind_zero, seekBackward]
    simp only [found, Int.add_sub_cancel]
    by_cases begins : Parts.start s.sizes 0 ≤ p
    · rw [if_pos begins, if_pos begins]
      simp only [seekInto, found]
    · rw [if_neg begins, if_neg begins]
      rfl
  | succ ci ih =>
    rw [Parts.behind_succ, seekBackward]
    simp only [found, Int.add_sub_cancel]
    by_cases begins : Parts.start s.sizes (ci + 1) ≤ p
    · rw [if_pos begins, if_pos begins]
      simp only [seekInto, found]
    · obtain ⟨u, preceding⟩ := file_some (Nat.lt_of_succ_lt inside)
      have next := Parts.start_succ (sizes_getElem preceding)
      have position : Parts.start s.sizes (ci + 1) - u.getRemaining =
          Parts.start s.sizes ci + u.filePosition := by
        unfold ProtoTransfer.getRemaining
        omega
      rw [if_neg begins, if_neg begins]
      simp only [preceding, position]
      exact ih preceding (Nat.lt_of_succ_lt inside)

/-- The file that a seek to `p` goes into, seen from the position the stream is at. -/
def sought (s : LiveTVPlayback D) (p : Int) : Option Nat :=
  if s.transferPosition < p then Parts.ahead s.sizes p (s.chain.currentSequence - 1)
  else Parts.behind s.sizes p (s.chain.currentSequence - 1)

/-- A recorder is there and a file is watched. -/
def Watching (s : LiveTVPlayback D) : Prop := s.recorder ≠ none ∧ s.chain.currentSequence ≠ 0

instance (s : LiveTVPlayback D) : Decidable s.Watching :=
  inferInstanceAs (Decidable (s.recorder ≠ none ∧ s.chain.currentSequence ≠ 0))

theorem Consistent.current {s : LiveTVPlayback D} (consistent : Consistent s)
    (watching : s.Watching) :
    ∃ t, s.file (s.chain.currentSequence - 1) = some t ∧
      s.chain.currentSequence - 1 < s.chain.chained.length ∧
      s.transferPosition =
        Parts.start s.sizes (s.chain.currentSequence - 1) + t.filePosition := by
  obtain ⟨entry, found, current⟩ := consistent.watching (Nat.pos_of_ne_zero watching.2)
  refine ⟨s.transfers entry.1, ?_, (List.getElem?_eq_some_iff.mp found).1, ?_⟩
  · rw [file, found]
    rfl
  · simp only [transferPosition, current, if_pos watching.2]

theorem seekChain_unwatched {s : LiveTVPlayback D} (unwatched : ¬ s.Watching) (unread : Nat)
    (offset : Int) (whence : Whence) (answers : SeekAnswers) :
    s.seekChain unread offset whence answers = (-1, s) := by
  have none : s.recorder = none ∨ s.chain.currentSequence = 0 := by
    simpa only [Watching, not_and_or, not_not] using unwatched
  exact if_pos none

theorem seekInto_entry {s : LiveTVPlayback D} {j a : Nat} {program : Program D}
    (entry : s.chain.chained[j]? = some (a, program)) (p : Int) (answers : SeekAnswers) :
    s.seekInto p answers (some j) =
      s.seekFile j (p - Parts.start s.sizes j - (s.transfers a).filePosition) p answers := by
  have file : s.file j = some (s.transfers a) := by simp [file, entry]
  have offsets : p - (Parts.start s.sizes j + (s.transfers a).filePosition) =
      p - Parts.start s.sizes j - (s.transfers a).filePosition := by omega
  simp only [seekInto, file, offsets]

/-- `_seek` with empty buffers: out of range, at the place, or into the file of the position. -/
theorem seekChain_eq {s : LiveTVPlayback D} (consistent : Consistent s) (watching : s.Watching)
    (offset : Int) (whence : Whence) (answers : SeekAnswers) {p : Int}
    (target : s.seekTarget 0 offset whence = p) :
    s.seekChain 0 offset whence answers =
      if p > s.getSize ∨ p < 0 then (-1, s)
      else if p = s.transferPosition then (p, s)
      else s.seekInto p answers (s.sought p) := by
  obtain ⟨t, found, inside, position⟩ := consistent.current watching
  have enough : s.chain.chained.length ≤ s.chain.currentSequence - 1 + s.chain.lastSequence := by
    rw [consistent.lastSequence]
    omega
  have here : s.getPosition 0 = s.transferPosition := by simp [getPosition]
  unfold seekChain
  rw [if_neg (by simpa [Watching, not_or] using watching)]
  simp only [target, here, sought]
  split
  · rfl
  · rw [position]
    rcases Int.lt_trichotomy p (Parts.start s.sizes (s.chain.currentSequence - 1) +
      t.filePosition) with less | same | more
    · rw [if_neg (by omega), if_pos less, if_neg (by omega), if_neg (by omega)]
      exact seekBackward_eq p answers found inside
    · rw [if_neg (by omega), if_neg (by omega), if_pos same]
    · rw [if_pos more, if_neg (by omega), if_pos more]
      exact seekForward_eq consistent.lastSequence p answers found enough inside

/-- The chain watches the file at an index, and its transfer is `t`. -/
def watch (s : LiveTVPlayback D) (j a : Nat) (t : ProtoTransfer) : LiveTVPlayback D :=
  { s.setTransfer a t with
    chain.currentTransfer := some a
    chain.currentSequence := j + 1 }

theorem switchChain_entry {s : LiveTVPlayback D}
    (lastSequence : s.chain.lastSequence = s.chain.chained.length) {j a : Nat}
    {program : Program D} (entry : s.chain.chained[j]? = some (a, program))
    (announced : Announced) :
    s.switchChain (j + 1) announced =
      if ((s.transfers a).openTransfer announced).1 then
        (true, s.watch j a ((s.transfers a).openTransfer announced).2)
      else (false, s.setTransfer a ((s.transfers a).openTransfer announced).2) := by
  have inside := (List.getElem?_eq_some_iff.mp entry).1
  have range : ¬ (j + 1 < 1 ∨ j + 1 > s.chain.lastSequence) := by
    rw [lastSequence]
    omega
  simp only [switchChain, if_neg range, Nat.add_sub_cancel, entry]
  cases ((s.transfers a).openTransfer announced).1 <;> rfl

end LiveTVPlayback

/-- The counters of a transfer in order: a closed one has been reset. -/
structure ProtoTransfer.InOrder (t : ProtoTransfer) : Prop where
  closed : t.isOpen = false → t.filePosition = 0
  nonneg : 0 ≤ t.filePosition
  within : t.filePosition ≤ t.fileSize

/-- The backend answers an accepted SEEK with the position asked for, and no file has a
negative size. -/
structure SeekAnswers.Honest (answers : SeekAnswers) : Prop where
  reply : ∀ q r, answers.reply q = some r → r = q
  size : ∀ fileId fileSize, answers.announced = .accepted fileId fileSize → 0 ≤ fileSize

namespace LiveTVPlayback

theorem setTransfer_self (s : LiveTVPlayback D) (a : Nat) :
    s.setTransfer a (s.transfers a) = s := by
  simp only [setTransfer, Function.update_eq_self]

theorem openTransfer_open {t : ProtoTransfer} (isOpen : t.isOpen = true) (announced : Announced) :
    t.openTransfer announced = (true, t) := by
  simp only [ProtoTransfer.openTransfer, if_pos isOpen]

/-- A file that was moved is open, so it is watched where it is. -/
theorem switchChain_moved {s : LiveTVPlayback D}
    (lastSequence : s.chain.lastSequence = s.chain.chained.length) {j a : Nat}
    {program : Program D} (entry : s.chain.chained[j]? = some (a, program))
    (isOpen : (s.transfers a).isOpen = true) (r : Int) (announced : Announced) :
    (s.setTransfer a ((s.transfers a).reset r)).switchChain (j + 1) announced =
      (true, s.watch j a ((s.transfers a).reset r)) := by
  have moved : (s.setTransfer a ((s.transfers a).reset r)).transfers a =
      (s.transfers a).reset r := by simp [setTransfer]
  have sought : (s.setTransfer a ((s.transfers a).reset r)).chain.chained[j]? =
      some (a, program) := entry
  have opened := openTransfer_open (t := (s.transfers a).reset r) isOpen announced
  rw [switchChain_entry (s := s.setTransfer a ((s.transfers a).reset r)) lastSequence sought, moved,
    opened, if_pos rfl]
  simp [watch, setTransfer]

theorem seekFile_eq {s : LiveTVPlayback D}
    (lastSequence : s.chain.lastSequence = s.chain.chained.length) {j a : Nat}
    {program : Program D} (entry : s.chain.chained[j]? = some (a, program))
    (answers : SeekAnswers) (p q : Int) :
    s.seekFile j (q - (s.transfers a).filePosition) p answers =
      if q = (s.transfers a).filePosition then
        if q < 0 then (-1, s)
        else if ((s.transfers a).openTransfer answers.announced).1 then
          (p, s.watch j a ((s.transfers a).openTransfer answers.announced).2)
        else (-1, s.setTransfer a ((s.transfers a).openTransfer answers.announced).2)
      else if (s.transfers a).isOpen = true ∧ 0 ≤ q ∧ q ≤ (s.transfers a).fileSize then
        match answers.reply q with
        | none => (-1, s)
        | some r =>
          if r < 0 then (-1, s.setTransfer a ((s.transfers a).reset r))
          else (p, s.watch j a ((s.transfers a).reset r))
      else (-1, s) := by
  have position : (s.transfers a).target (q - (s.transfers a).filePosition) .CUR = q := by
    simp only [ProtoTransfer.target]
    omega
  simp only [seekFile, entry, position, ProtoTransfer.transferSeek_cur, ProtoTransfer.moveTo]
  by_cases here : q = (s.transfers a).filePosition
  · simp only [if_pos here, setTransfer_self, switchChain_entry lastSequence entry]
    by_cases negative : q < 0
    · rw [if_pos negative, if_pos negative]
    · rw [if_neg negative, if_neg negative]
      cases ((s.transfers a).openTransfer answers.announced).1 <;> rfl
  · simp only [if_neg here]
    by_cases moves : (s.transfers a).isOpen = true ∧ 0 ≤ q ∧ q ≤ (s.transfers a).fileSize
    · simp only [if_pos moves]
      cases answers.reply q with
      | none =>
        simp only [setTransfer_self]
        rfl
      | some r =>
        simp only [switchChain_moved lastSequence entry moves.1]
        split <;> rfl
    · simp only [if_neg moves, setTransfer_self]
      rfl

theorem openTransfer_inOrder {t : ProtoTransfer} (order : t.InOrder) {announced : Announced}
    (size : ∀ fileId fileSize, announced = .accepted fileId fileSize → 0 ≤ fileSize)
    (opened : (t.openTransfer announced).1 = true) :
    (t.openTransfer announced).2.InOrder ∧
      (t.openTransfer announced).2.filePosition = t.filePosition ∧
      (t.openTransfer announced).2.isOpen = true := by
  cases isOpen : t.isOpen with
  | true =>
    rw [openTransfer_open isOpen]
    exact ⟨order, rfl, isOpen⟩
  | false =>
    have start := order.closed isOpen
    unfold ProtoTransfer.openTransfer at opened ⊢
    rw [if_neg (by simp [isOpen])] at opened ⊢
    cases announced with
    | unreachable => cases opened
    | refused => cases opened
    | accepted fileId fileSize =>
      exact ⟨⟨fun _ => rfl, Int.le_refl 0, size fileId fileSize rfl⟩, start.symm, rfl⟩

theorem reset_inOrder {t : ProtoTransfer} (isOpen : t.isOpen = true) {q : Int} (nonneg : 0 ≤ q)
    (within : q ≤ t.fileSize) : (t.reset q).InOrder :=
  ⟨fun closed => absurd (isOpen.symm.trans closed) (by simp), nonneg, within⟩

theorem seekFile_success {s : LiveTVPlayback D}
    (lastSequence : s.chain.lastSequence = s.chain.chained.length) {j a : Nat}
    {program : Program D} (entry : s.chain.chained[j]? = some (a, program))
    (order : (s.transfers a).InOrder) {answers : SeekAnswers} (honest : answers.Honest)
    {p q : Int} (nonneg : 0 ≤ q) (within : q ≤ (s.transfers a).fileSize)
    (success : 0 ≤ (s.seekFile j (q - (s.transfers a).filePosition) p answers).1) :
    ∃ t, s.seekFile j (q - (s.transfers a).filePosition) p answers = (p, s.watch j a t) ∧
      t.pathName = (s.transfers a).pathName ∧ t.InOrder ∧ t.filePosition = q := by
  rw [seekFile_eq lastSequence entry answers p q] at success ⊢
  by_cases here : q = (s.transfers a).filePosition
  · rw [if_pos here, if_neg (Int.not_lt.mpr nonneg)] at success ⊢
    cases opened : ((s.transfers a).openTransfer answers.announced).1 with
    | true =>
      obtain ⟨after, same, -⟩ := openTransfer_inOrder order honest.size opened
      exact ⟨_, if_pos rfl, ProtoTransfer.openTransfer_pathName _ _, after, same.trans here.symm⟩
    | false => simp [opened] at success
  · rw [if_neg here] at success ⊢
    by_cases moves : (s.transfers a).isOpen = true ∧ 0 ≤ q ∧ q ≤ (s.transfers a).fileSize
    · rw [if_pos moves] at success ⊢
      cases reply : answers.reply q with
      | none => simp [reply] at success
      | some r =>
        obtain rfl := honest.reply q r reply
        simp only [if_neg (Int.not_lt.mpr nonneg)]
        exact ⟨_, rfl, rfl, reset_inOrder moves.1 nonneg within, rfl⟩
    · simp [moves] at success

theorem Consistent.addresses {s : LiveTVPlayback D} (consistent : Consistent s) :
    (s.chain.chained.map Prod.fst).Nodup := by
  apply List.Nodup.of_map fun a => (s.transfers a).pathName
  rw [List.map_map]
  exact consistent.distinct

theorem sizes_setTransfer {s : LiveTVPlayback D} (consistent : Consistent s) {j a : Nat}
    {program : Program D} (entry : s.chain.chained[j]? = some (a, program)) (t : ProtoTransfer) :
    (s.setTransfer a t).sizes = s.sizes.set j t.fileSize := by
  have addresses := consistent.addresses
  apply List.ext_getElem?
  intro i
  by_cases same : j = i
  · subst same
    have inside : j < s.sizes.length := by
      rw [length_sizes]
      exact (List.getElem?_eq_some_iff.mp entry).1
    rw [List.getElem?_set_self inside]
    simp [sizes, setTransfer, entry]
  · rw [List.getElem?_set_ne same]
    simp only [sizes, setTransfer, List.getElem?_map]
    cases found : s.chain.chained[i]? with
    | none => rfl
    | some other =>
      have apart : other.1 ≠ a := by
        intro hit
        obtain ⟨inside, first⟩ := List.getElem?_eq_some_iff.mp entry
        obtain ⟨inside', second⟩ := List.getElem?_eq_some_iff.mp found
        have inside : j < (s.chain.chained.map Prod.fst).length := by simpa using inside
        have inside' : i < (s.chain.chained.map Prod.fst).length := by simpa using inside'
        have hit : (s.chain.chained.map Prod.fst)[j] = (s.chain.chained.map Prod.fst)[i] := by
          simp [first, second, hit]
        exact same (addresses.getElem_inj_iff.mp hit)
      simp [Function.update_of_ne apart]

theorem watch_position {s : LiveTVPlayback D} (consistent : Consistent s) {j a : Nat}
    {program : Program D} (entry : s.chain.chained[j]? = some (a, program)) (t : ProtoTransfer) :
    (s.watch j a t).transferPosition = Parts.start s.sizes j + t.filePosition := by
  have sizes : (s.watch j a t).sizes = s.sizes.set j t.fileSize :=
    sizes_setTransfer consistent entry t
  simp only [transferPosition, sizes]
  simp [watch, setTransfer, Parts.start_set]

/-- Every file of the chain has its counters in order. -/
def InOrder (s : LiveTVPlayback D) : Prop :=
  ∀ entry ∈ s.chain.chained, (s.transfers entry.1).InOrder

theorem InOrder.getElem {s : LiveTVPlayback D} (order : s.InOrder) {j a : Nat}
    {program : Program D} (entry : s.chain.chained[j]? = some (a, program)) :
    (s.transfers a).InOrder := order (a, program) (List.mem_of_getElem? entry)

/-- The search finds a file that reaches around the position. -/
theorem sought_spec {s : LiveTVPlayback D} (consistent : Consistent s) (watching : s.Watching)
    (order : s.InOrder) {p : Int} (nonneg : 0 ≤ p) (within : p ≤ s.getSize) :
    ∃ j a program, s.sought p = some j ∧ s.chain.chained[j]? = some (a, program) ∧
      Parts.start s.sizes j ≤ p ∧
      p ≤ Parts.start s.sizes j + (s.transfers a).fileSize := by
  obtain ⟨t, found, inside, position⟩ := consistent.current watching
  obtain ⟨entry, chained, rfl⟩ := Option.map_eq_some_iff.mp found
  have current := order entry (List.mem_of_getElem? chained)
  have lower := current.nonneg
  have upper := current.within
  have file (j : Nat) (inside : j < s.chain.chained.length)
      (reaches : p ≤ Parts.start s.sizes (j + 1)) :
      ∃ a program, s.chain.chained[j]? = some (a, program) ∧
        p ≤ Parts.start s.sizes j + (s.transfers a).fileSize := by
    obtain ⟨u, found⟩ := file_some inside
    obtain ⟨other, chained, rfl⟩ := Option.map_eq_some_iff.mp found
    rw [Parts.start_succ (sizes_getElem found)] at reaches
    exact ⟨other.1, other.2, chained, reaches⟩
  unfold sought
  by_cases later : s.transferPosition < p
  · rw [if_pos later]
    obtain ⟨j, ahead, spec⟩ := Parts.ahead_spec (by simpa using inside)
      (show Parts.start s.sizes (s.chain.currentSequence - 1) ≤ p by omega) within
    obtain ⟨a, program, chained, reaches⟩ := file j (by simpa using spec.inside) spec.reaches
    exact ⟨j, a, program, ahead, chained, spec.begins, reaches⟩
  · rw [if_neg later]
    have next := Parts.start_succ (sizes_getElem found)
    obtain ⟨j, behind, spec⟩ := Parts.behind_spec (i := s.chain.currentSequence - 1) nonneg
      (show p ≤ Parts.start s.sizes (s.chain.currentSequence - 1 + 1) by omega)
    have bound := spec.from_start
    obtain ⟨a, program, chained, reaches⟩ := file j (by omega) spec.reaches
    exact ⟨j, a, program, behind, chained, spec.begins, reaches⟩

/-- Where a successful seek leaves the chain: at `p`, in a file that reaches around it, and
no other transfer was touched. -/
structure Landed (s s' : LiveTVPlayback D) (p : Int) : Prop where
  position : s'.getPosition 0 = p
  around : ∃ t, s'.file (s'.chain.currentSequence - 1) = some t ∧
    Parts.start s'.sizes (s'.chain.currentSequence - 1) ≤ p ∧
    p ≤ Parts.start s'.sizes (s'.chain.currentSequence - 1) + t.fileSize
  others : ∀ a, s'.chain.currentTransfer ≠ some a → s'.transfers a = s.transfers a

theorem watch_landed {s : LiveTVPlayback D} (consistent : Consistent s) {j a : Nat}
    {program : Program D} (entry : s.chain.chained[j]? = some (a, program)) {t : ProtoTransfer}
    (order : t.InOrder) : Landed s (s.watch j a t) (Parts.start s.sizes j + t.filePosition) := by
  have start : Parts.start (s.watch j a t).sizes j = Parts.start s.sizes j := by
    rw [show (s.watch j a t).sizes = s.sizes.set j t.fileSize from
      sizes_setTransfer consistent entry t, Parts.start_set (Nat.le_refl j)]
  have lower := order.nonneg
  have upper := order.within
  refine ⟨?_, ⟨t, ?_, ?_, ?_⟩, fun b other => ?_⟩
  · rw [getPosition, watch_position consistent entry]
    simp
  · simp [file, watch, setTransfer, entry]
  · rw [show (s.watch j a t).chain.currentSequence - 1 = j from rfl, start]
    omega
  · rw [show (s.watch j a t).chain.currentSequence - 1 = j from rfl, start]
    omega
  · have apart : b ≠ a := by
      rintro rfl
      exact other rfl
    simp [watch, setTransfer, Function.update_of_ne apart]

/-- A seek that succeeds went to the position it was asked for, into a file of that position,
and left the positions of the other files alone. -/
theorem seek_lands {s : LiveTVPlayback D} (consistent : Consistent s) (order : s.InOrder)
    {answers : SeekAnswers} (honest : answers.Honest) (offset : Int) (whence : Whence)
    {p : Int} {s' : LiveTVPlayback D}
    (result : s.seekChain 0 offset whence answers = (p, s')) (success : 0 ≤ p) :
    p = s.seekTarget 0 offset whence ∧ Landed s s' p := by
  by_cases watching : s.Watching
  · rw [seekChain_eq consistent watching offset whence answers rfl] at result
    split at result
    · obtain ⟨rfl, -⟩ := Prod.mk.inj result
      omega
    · rename_i range
      rw [not_or, Int.not_lt, Int.not_lt] at range
      split at result
      · rename_i here
        obtain ⟨rfl, rfl⟩ := Prod.mk.inj result
        obtain ⟨t, found, -, position⟩ := consistent.current watching
        obtain ⟨entry, chained, rfl⟩ := Option.map_eq_some_iff.mp found
        have current := order entry (List.mem_of_getElem? chained)
        have lower := current.nonneg
        have upper := current.within
        refine ⟨rfl, ?_, ⟨_, found, ?_, ?_⟩, fun _ _ => rfl⟩
        · rw [getPosition, here]
          simp
        · omega
        · omega
      · obtain ⟨j, a, program, found, entry, begins, reaches⟩ :=
          sought_spec consistent watching order range.2 range.1
        generalize s.seekTarget 0 offset whence = target at *
        rw [found, seekInto_entry entry] at result
        obtain ⟨t, sought, -, after, there⟩ := seekFile_success (p := target)
          consistent.lastSequence entry (order.getElem entry) honest
          (show 0 ≤ target - Parts.start s.sizes j by omega) (by omega)
          (by rw [result]; exact success)
        obtain ⟨rfl, rfl⟩ := Prod.mk.inj (sought.symm.trans result)
        have landed := watch_landed consistent entry after
        rw [show Parts.start s.sizes j + t.filePosition = target by omega] at landed
        exact ⟨rfl, landed⟩
  · have refused := seekChain_unwatched watching 0 offset whence answers
    obtain ⟨rfl, -⟩ := Prod.mk.inj (refused.symm.trans result)
    omega

/-- A backend that moves to the position it is asked for, and opens every file. -/
def moving (fileId : UInt32) (fileSize : Nat) : SeekAnswers := ⟨some, .accepted fileId fileSize⟩

theorem moving_honest (fileId : UInt32) (fileSize : Nat) : (moving fileId fileSize).Honest := by
  constructor
  · intro q r same
    exact (Option.some.inj same).symm
  · intro id size same
    obtain ⟨-, rfl⟩ := Announced.accepted.inj same
    exact Int.natCast_nonneg fileSize

def twoFiles : LiveTVPlayback Unit where
  chain := { chained := [(0, { stars := (), fileName := [1] }),
                         (1, { stars := (), fileName := [2] })],
             currentTransfer := some 1, currentSequence := 2, lastSequence := 2 }
  recorder := some ⟨1, true⟩
  transfers a := { pathName := [UInt8.ofNat (a + 1)], storageGroupName := [], isOpen := true,
                   fileSize := 100, filePosition := if a = 0 then 100 else 20 }
  created := 2

theorem twoFiles_consistent : Consistent twoFiles where
  lastSequence := rfl
  currentSequence := Nat.le_refl 2
  watching _ := ⟨_, rfl, rfl⟩
  idle none := absurd none (by decide)
  distinct := by decide

theorem twoFiles_inOrder : twoFiles.InOrder := by
  intro entry chained
  have which : entry.1 = 0 ∨ entry.1 = 1 := by
    rcases List.mem_pair.mp chained with rfl | rfl
    · exact .inl rfl
    · exact .inr rfl
  rcases which with first | second
  · rw [first]
    exact ⟨fun closed => absurd closed (by decide), by decide, by decide⟩
  · rw [second]
    exact ⟨fun closed => absurd closed (by decide), by decide, by decide⟩

theorem twoFiles_lands :
    60 = twoFiles.seekTarget 0 (-60) .CUR ∧
      Landed twoFiles (twoFiles.seekChain 0 (-60) .CUR (moving 7 100)).2 60 :=
  seek_lands twoFiles_consistent twoFiles_inOrder (moving_honest 7 100) (-60) .CUR
    (Prod.ext (show _ = 60 by decide) rfl) (by decide)

/-- A chain of the one file `t`, which is watched. -/
def oneFile (t : ProtoTransfer) (program : Program D) (recorder : ProtoRecorder) :
    LiveTVPlayback D where
  chain := { chained := [(0, program)], currentTransfer := some 0, currentSequence := 1,
             lastSequence := 1 }
  recorder := some recorder
  transfers _ := t
  created := 1

theorem oneFile_consistent (t : ProtoTransfer) (program : Program D) (recorder : ProtoRecorder) :
    Consistent (oneFile t program recorder) where
  lastSequence := rfl
  currentSequence := Nat.le_refl 1
  watching _ := ⟨(0, program), rfl, rfl⟩
  idle none := absurd none (by simp [oneFile])
  distinct := List.nodup_singleton _

theorem oneFile_seek {t : ProtoTransfer} (isOpen : t.isOpen = true) (order : t.InOrder)
    (program : Program D) (recorder : ProtoRecorder) (fileId : UInt32) (fileSize : Nat)
    (offset : Int) (whence : Whence) {p : Int}
    (target : (oneFile t program recorder).seekTarget 0 offset whence = p) :
    let result := (oneFile t program recorder).seekChain 0 offset whence (moving fileId fileSize)
    (result.1, (result.2.transfers 0).filePosition) = t.moved p := by
  have watching : (oneFile t program recorder).Watching := ⟨by simp [oneFile], by simp [oneFile]⟩
  have consistent := oneFile_consistent t program recorder
  have all : (oneFile t program recorder).InOrder := fun _ _ => order
  have size : (oneFile t program recorder).getSize = t.fileSize := by
    simp [getSize, sizes, oneFile]
  have position : (oneFile t program recorder).transferPosition = t.filePosition := by
    simp [transferPosition, oneFile]
  simp only
  rw [seekChain_eq consistent watching offset whence _ target, size, position,
    ProtoTransfer.moved]
  split
  · rfl
  · rename_i range
    rw [not_or, Int.not_lt, Int.not_lt] at range
    split
    · rename_i here
      rw [here]
      rfl
    · rename_i away
      obtain ⟨j, a, found, chosen, entry, -, -⟩ :=
        sought_spec consistent watching all range.2 (size ▸ range.1)
      obtain ⟨rfl, rfl⟩ : j = 0 ∧ a = 0 := by
        cases j with
        | zero => exact ⟨rfl, (Prod.mk.inj (Option.some.inj entry)).1.symm⟩
        | succ j => simp [oneFile] at entry
      have sought := seekFile_eq consistent.lastSequence entry (moving fileId fileSize) p p
      have file : (oneFile t program recorder).file 0 = some t := rfl
      have offsets : p - (Parts.start (oneFile t program recorder).sizes 0 + t.filePosition) =
          p - t.filePosition := by rw [Parts.start_zero, Int.zero_add]
      have reply : (moving fileId fileSize).reply p = some p := rfl
      simp only [show (oneFile t program recorder).transfers 0 = t from rfl, if_neg away,
        if_pos (And.intro isOpen (And.intro range.2 range.1)), reply,
        if_neg (Int.not_lt.mpr range.2)] at sought
      rw [chosen]
      simp only [seekInto, file, offsets, sought]
      simp [watch, setTransfer, ProtoTransfer.reset]

theorem transferSeek_asked {t : ProtoTransfer} (isOpen : t.isOpen = true) {offset q : Int}
    {whence : Whence}
    (check : t.seekCheck offset whence = if q < 0 ∨ q > t.fileSize then some (-1) else none) :
    ((t.transferSeek offset whence (some q)).1,
      (t.transferSeek offset whence (some q)).2.filePosition) = t.moved q := by
  rw [ProtoTransfer.transferSeek, ProtoTransfer.moved, check]
  by_cases out : q < 0 ∨ q > t.fileSize
  · rw [if_pos out, if_pos out.symm]
  · rw [if_neg out, if_neg fun far => out (Or.symm far)]
    simp [isOpen, ProtoTransfer.reset]

theorem transferSeek_here {t : ProtoTransfer} (order : t.InOrder) {offset : Int} {whence : Whence}
    (check : t.seekCheck offset whence = some t.filePosition) (reply : Option Int) :
    ((t.transferSeek offset whence reply).1, (t.transferSeek offset whence reply).2.filePosition) =
      t.moved t.filePosition := by
  have lower := order.nonneg
  have upper := order.within
  simp only [ProtoTransfer.transferSeek, ProtoTransfer.moved, check]
  rw [if_neg (by omega)]

theorem transferSeek_moved {t : ProtoTransfer} (isOpen : t.isOpen = true) (order : t.InOrder)
    (offset : Int) (whence : Whence) :
    let result := t.transferSeek offset whence (some (t.target offset whence))
    (result.1, result.2.filePosition) = t.moved (t.target offset whence) := by
  cases whence with
  | SET =>
    by_cases same : offset = t.filePosition
    · subst same
      have check : t.seekCheck t.filePosition .SET = some t.filePosition := if_pos rfl
      exact transferSeek_here order check _
    · exact transferSeek_asked isOpen (if_neg same)
  | CUR =>
    by_cases same : offset = 0
    · subst same
      have check : t.seekCheck 0 .CUR = some t.filePosition := by simp [ProtoTransfer.seekCheck]
      have target : t.target 0 .CUR = t.filePosition := Int.add_zero _
      rw [target]
      exact transferSeek_here order check _
    · exact transferSeek_asked isOpen (if_neg same)
  | END => exact transferSeek_asked isOpen rfl

/-- Moves to the two sides of the end agree where both are refused. -/
theorem moved_from_end {t : ProtoTransfer} (order : t.InOrder) (offset : Int) :
    t.moved (t.fileSize + offset) = t.moved (t.fileSize - offset) ↔
      offset = 0 ∨ t.fileSize < |offset| := by
  have lower := order.nonneg
  have upper := order.within
  unfold ProtoTransfer.moved
  rcases Int.lt_trichotomy offset 0 with negative | rfl | positive
  · rw [abs_of_neg negative,
      if_pos (show t.fileSize - offset > t.fileSize ∨ t.fileSize - offset < 0 by omega)]
    by_cases far : t.fileSize + offset < 0
    · rw [if_pos (Or.inr far)]
      simp only [true_iff]
      omega
    · rw [if_neg (by omega), Prod.mk.injEq]
      omega
  · simp
  · rw [abs_of_pos positive,
      if_pos (show t.fileSize + offset > t.fileSize ∨ t.fileSize + offset < 0 by omega)]
    by_cases far : t.fileSize - offset < 0
    · rw [if_pos (Or.inr far)]
      simp only [true_iff]
      omega
    · rw [if_neg (by omega), Prod.mk.injEq]
      omega

/-- The two implementations agree on where a seek goes, except from the end of the file, where
they take the offset with opposite signs. -/
theorem seek_agrees_iff {t : ProtoTransfer} (isOpen : t.isOpen = true) (order : t.InOrder)
    (program : Program D) (recorder : ProtoRecorder) (fileId : UInt32) (fileSize : Nat)
    (offset : Int) (whence : Whence) :
    let chained := (oneFile t program recorder).seekChain 0 offset whence (moving fileId fileSize)
    let single := t.transferSeek offset whence (some (t.target offset whence))
    (chained.1 = single.1 ∧ (chained.2.transfers 0).filePosition = single.2.filePosition) ↔
      (whence = .END → offset = 0 ∨ t.fileSize < |offset|) := by
  have live := oneFile_seek isOpen order program recorder fileId fileSize offset whence rfl
  have single := transferSeek_moved isOpen order offset whence
  simp only at live single ⊢
  rw [← Prod.mk.injEq, live, single]
  have position : (oneFile t program recorder).getPosition 0 = t.filePosition := by
    simp [getPosition, transferPosition, oneFile]
  have size : (oneFile t program recorder).getSize = t.fileSize := by
    simp [getSize, sizes, oneFile]
  cases whence with
  | SET => simp [seekTarget, ProtoTransfer.target]
  | CUR => simp [seekTarget, ProtoTransfer.target, position]
  | END =>
    rw [seekTarget, ProtoTransfer.target, size, moved_from_end order offset]
    simp

/-- A file of ten bytes, watched from its fifth. -/
def tenBytes : ProtoTransfer where
  pathName := []
  storageGroupName := []
  isOpen := true
  fileSize := 10
  filePosition := 4

theorem tenBytes_inOrder : tenBytes.InOrder :=
  ⟨fun closed => absurd closed (by decide), by decide, by decide⟩

theorem tenBytes_agrees :
    let chained := (oneFile tenBytes ({ stars := () } : Program Unit) ⟨1, true⟩).seekChain 0 3 .SET
      (moving 7 10)
    let single := tenBytes.transferSeek 3 .SET (some (tenBytes.target 3 .SET))
    chained.1 = single.1 ∧ (chained.2.transfers 0).filePosition = single.2.filePosition :=
  (seek_agrees_iff rfl tenBytes_inOrder { stars := () } ⟨1, true⟩ 7 10 3 .SET).mpr
    (fun same => absurd same (by decide))

/-- Three bytes from the end: the chain looks behind the end, the transfer before it. -/
theorem tenBytes_end_apart :
    let chained := (oneFile tenBytes ({ stars := () } : Program Unit) ⟨1, true⟩).seekChain 0 3 .END
      (moving 7 10)
    let single := tenBytes.transferSeek 3 .END (some (tenBytes.target 3 .END))
    chained.1 = -1 ∧ single.1 = 7 ∧ (chained.2.transfers 0).filePosition = 4 ∧
      single.2.filePosition = 7 := by
  decide

end LiveTVPlayback

end CppMyth
