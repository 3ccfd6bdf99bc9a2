import CppMyth.RingBuffer.Fifo

/-! What `full` tells of the ring, over whole histories of its operations. It looks at the two
cursors only, so it is right as long as they are: a write into a full ring moves the write
cursor past the read cursor. -/
namespace CppMyth
open Library

/-- What a caller hands over; the size is an `int`. -/
abbrev Sized : Type := { p : RingBufferPacket // p.size < 2 ^ 31 }

inductive RingOp where
  | write (data : { data : List UInt8 // data.length < 2 ^ 31 })
  | newPacket (len : Nat)
  | writePacket (packet : Sized)
  | read
  | freePacket (packet : RingBufferPacket)
  | clear

namespace RingBuffer

/-- Every slot holds an unread packet. -/
def Filled (r : RingBuffer) : Prop := ∀ i < r.capacity, r.buffer i ≠ none

instance (r : RingBuffer) : Decidable r.Filled :=
  inferInstanceAs (Decidable (∀ i < r.capacity, r.buffer i ≠ none))

/-- The size that the operation puts into the ring, if it puts in a packet. -/
def written : RingOp → Option Nat
  | .write data => if data.1 = [] then none else some data.1.length
  | .writePacket packet => some packet.1.size
  | _ => none

def step (r : RingBuffer) : RingOp → RingBuffer
  | .write data => r.writeData data.1
  | .newPacket len => (r.newPacket len).2
  | .writePacket packet => r.writePacket packet.1
  | .read => r.readPacket.2
  | .freePacket packet => r.freePacket packet
  | .clear => r.clear

/-- One operation, from the ring before it to the ring after it. -/
structure Turn where
  before : RingBuffer
  op : RingOp
  after : RingBuffer

/-- Afterwards `full` tells whether every slot is taken; and where it told that the ring was
not full, the bytes written have been added to the unread ones. -/
structure Turn.Sound (t : Turn) : Prop where
  tells : t.after.full = true ↔ t.after.Filled
  grows : ∀ size, written t.op = some size → t.before.full = false →
    t.after.bytesUnread.toNat = t.before.bytesUnread.toNat + size

def operations : Machine RingBuffer RingOp Turn where
  step r op := (⟨r, op, r.step op⟩, r.step op)

/-- There is room for the size: the only slot of the ring takes any packet that is not empty;
else the next slot is free, the count of unread bytes does not wrap, and the ring is not
filled up with empty packets. -/
def Takes (r : RingBuffer) (size : Nat) : Prop :=
  (r.capacity = 1 ∧ size ≠ 0) ∨
    (r.capacity ≠ 1 ∧ r.buffer r.write = none ∧ r.unread.toNat + size < 2 ^ 32 ∧
      (size ≠ 0 ∨ r.unread ≠ 0 ∨ r.buffer (r.next r.write) = none))

def InRoom (r : RingBuffer) (op : RingOp) : Prop := ∀ size ∈ written op, r.Takes size

instance (r : RingBuffer) (size : Nat) : Decidable (r.Takes size) :=
  inferInstanceAs (Decidable ((r.capacity = 1 ∧ size ≠ 0) ∨ _))

instance (r : RingBuffer) (op : RingOp) : Decidable (r.InRoom op) :=
  inferInstanceAs (Decidable (∀ size ∈ written op, r.Takes size))

/-- The ring as it is while `full` can be believed: the read cursor stands at the oldest packet
of the queue, the unread bytes are counted in full, and a full ring has some. -/
structure Believed (r : RingBuffer) (queue : List RingBufferPacket) : Prop
    extends Unread r queue where
  cursor : r.read = chunkAt r.capacity r.write (r.capacity - queue.length)
  counted : r.unread.toNat = (queue.map RingBufferPacket.size).sum
  some_bytes : queue.length = r.capacity → r.unread ≠ 0

namespace Believed

variable {r : RingBuffer} {queue : List RingBufferPacket}

theorem init {capacity : Nat} (positive : 0 < capacity) :
    (RingBuffer.init capacity).Believed [] where
  write := positive
  read := positive
  room := Nat.zero_le _
  free _ _ := rfl
  stored k hk := absurd hk (by simp)
  reader _ := chunkAt_full.symm
  unread := rfl
  cursor := chunkAt_full.symm
  counted := rfl
  some_bytes whole := absurd whole (Nat.ne_of_lt positive)

theorem filled_iff (h : r.Unread queue) : r.Filled ↔ queue.length = r.capacity := by
  constructor
  · intro filled
    by_contra short
    have space : queue.length < r.capacity := Nat.lt_of_le_of_ne h.room short
    have overwritten := h.overwritten
    rw [if_pos space] at overwritten
    exact filled r.write h.write overwritten
  · intro whole i hi free
    have space := h.space_of_free hi free
    omega

/-- The cursors meet in an empty ring and in a full one. -/
theorem meet_iff (write : r.write < r.capacity) (room : queue.length ≤ r.capacity)
    (cursor : r.read = chunkAt r.capacity r.write (r.capacity - queue.length)) :
    r.read = r.write ↔ queue.length = r.capacity ∨ queue = [] := by
  rw [cursor, ← List.length_eq_zero_iff]
  unfold chunkAt
  split <;> omega

/-- In such a ring `full` is right if and only if a ring with no free slot has unread bytes. -/
theorem tells_iff (h : r.Unread queue)
    (cursor : r.read = chunkAt r.capacity r.write (r.capacity - queue.length)) :
    (r.full = true ↔ r.Filled) ↔ (queue.length = r.capacity → r.unread ≠ 0) := by
  have meet := meet_iff h.write h.room cursor
  have positive := h.write
  simp only [full, Bool.and_eq_true, decide_eq_true_eq, filled_iff h, meet]
  constructor
  · intro tells whole
    exact (tells.mpr whole).1
  · intro bytes
    constructor
    · rintro ⟨unread, whole | empty⟩
      · exact whole
      · subst empty
        exact absurd h.unread unread
    · intro whole
      exact ⟨bytes whole, Or.inl whole⟩

theorem tells (h : r.Believed queue) : r.full = true ↔ r.Filled :=
  (tells_iff h.toUnread h.cursor).mpr h.some_bytes

/-- What is written when a slot is free, by the slot after it. -/
theorem next_free_iff (h : r.Unread queue) (many : r.capacity ≠ 1)
    (space : queue.length < r.capacity) :
    r.buffer (r.next r.write) = none ↔ queue.length + 1 < r.capacity := by
  constructor
  · intro free
    by_contra last
    have oldest := h.stored 0 (by omega)
    have one : r.capacity - queue.length + 0 = 1 := by omega
    rw [one, List.getElem?_eq_getElem (by omega)] at oldest
    rw [next, oldest] at free
    cases free
  · intro more
    exact h.free 1 (by omega)

theorem small_toNat {size : Nat} (small : size < 2 ^ 31) : (UInt32.ofNat size).toNat = size :=
  UInt32.toNat_ofNat_of_lt' (by simp [UInt32.size]; omega)

theorem written_cursor (h : r.Believed queue) (p : RingBufferPacket)
    (space : queue.length < r.capacity) :
    (r.writePacket p).read = chunkAt (r.writePacket p).capacity (r.writePacket p).write
      ((r.writePacket p).capacity - (queue ++ [{ p with id := r.count + 1 }]).length) := by
  obtain ⟨capacity, write, read, -⟩ := Unread.writePacket_ring r p
  have back : r.capacity - (queue.length + 1) + 1 = r.capacity - queue.length := by omega
  rw [capacity, write, read, List.length_append, List.length_singleton, next,
    chunkAt_next h.write (by omega), back]
  exact h.cursor

theorem written_space (h : r.Believed queue) (p : RingBufferPacket) (small : p.size < 2 ^ 31)
    (space : queue.length < r.capacity) :
    (r.writePacket p).unread = r.unread + UInt32.ofNat p.size ∧
      ((r.writePacket p).unread.toNat = r.unread.toNat + p.size ↔
        r.unread.toNat + p.size < 2 ^ 32) := by
  have total : (r.writePacket p).unread = r.unread + UInt32.ofNat p.size := by
    have sum := h.writePacket_unread p
    rw [if_pos space, ← h.unread] at sum
    exact sum
  refine ⟨total, ?_⟩
  rw [total, UInt32.toNat_add, small_toNat small]
  have bound := r.unread.toNat_lt
  constructor
  · intro exact_
    omega
  · intro room
    exact Nat.mod_eq_of_lt room

theorem unread_zero_iff (count : UInt32) : count = 0 ↔ count.toNat = 0 := by
  rw [← UInt32.toNat_inj]
  rfl

theorem sum_ne_zero_iff {before after : UInt32} {size : Nat}
    (sum : after.toNat = before.toNat + size) : after ≠ 0 ↔ size ≠ 0 ∨ before ≠ 0 := by
  rw [ne_eq, ne_eq, ne_eq, unread_zero_iff, unread_zero_iff]
  omega

theorem write_space_iff (h : r.Believed queue) (p : RingBufferPacket) (small : p.size < 2 ^ 31)
    (space : queue.length < r.capacity) :
    (((r.writePacket p).full = true ↔ (r.writePacket p).Filled) ∧
      (r.writePacket p).unread.toNat = r.unread.toNat + p.size) ↔ r.Takes p.size := by
  have after := h.writePacket p
  rw [if_pos space] at after
  obtain ⟨total, exact_iff⟩ := h.written_space p small space
  have capacity := (Unread.writePacket_ring r p).1
  have free := h.overwritten
  rw [if_pos space] at free
  rw [tells_iff after (h.written_cursor p space), capacity, List.length_append,
    List.length_singleton, exact_iff]
  by_cases single : r.capacity = 1
  · -- nothing is unread in a single slot that is free
    have empty : queue = [] := List.length_eq_zero_iff.mp (by omega)
    have none : r.unread.toNat = 0 := by
      rw [h.counted, empty]
      rfl
    have nothing : r.unread = 0 := UInt32.toNat_inj.mp none
    have fits : r.unread.toNat + p.size < 2 ^ 32 := by omega
    have whole : queue.length + 1 = r.capacity := by omega
    constructor
    · rintro ⟨bytes, -⟩
      left
      refine ⟨single, ?_⟩
      rcases (sum_ne_zero_iff (exact_iff.mpr fits)).mp (bytes whole) with size | unread
      · exact size
      · exact absurd nothing unread
    · rintro (⟨-, size⟩ | ⟨many, -⟩)
      · exact ⟨fun _ => (sum_ne_zero_iff (exact_iff.mpr fits)).mpr (Or.inl size), fits⟩
      · exact absurd single many
  · have slot := next_free_iff h.toUnread single space
    simp only [Takes, single, false_and, false_or, ne_eq, not_false_eq_true, true_and, free]
    constructor
    · rintro ⟨bytes, fits⟩
      refine ⟨fits, ?_⟩
      by_cases last : queue.length + 1 = r.capacity
      · rcases (sum_ne_zero_iff (exact_iff.mpr fits)).mp (bytes last) with size | unread
        · exact Or.inl size
        · exact Or.inr (Or.inl unread)
      · exact Or.inr (Or.inr (slot.mpr (by omega)))
    · rintro ⟨fits, size | unread | more⟩
      · exact ⟨fun _ => (sum_ne_zero_iff (exact_iff.mpr fits)).mpr (Or.inl size), fits⟩
      · exact ⟨fun _ => (sum_ne_zero_iff (exact_iff.mpr fits)).mpr (Or.inr unread), fits⟩
      · have room := slot.mp more
        exact ⟨fun last => absurd last (by omega), fits⟩

theorem write_full_iff (h : r.Believed queue) (p : RingBufferPacket) (small : p.size < 2 ^ 31)
    (whole : queue.length = r.capacity) :
    ((r.writePacket p).full = true ↔ (r.writePacket p).Filled) ↔ r.Takes p.size := by
  have space : ¬ queue.length < r.capacity := by omega
  have after := h.writePacket p
  have sum := h.writePacket_unread p
  rw [if_neg space] at after sum
  obtain ⟨capacity, write, read, -⟩ := Unread.writePacket_ring r p
  have length : (queue.tail ++ [{ p with id := r.count + 1 }]).length = r.capacity := by
    have positive := h.write
    rw [List.length_append, List.length_singleton, List.length_tail]
    omega
  have cursor := h.cursor
  rw [whole, Nat.sub_self, chunkAt_zero h.write] at cursor
  by_cases single : r.capacity = 1
  · have same : r.next r.write = r.write := by
      have inside := h.write
      unfold next chunkAt
      split <;> omega
    have met : (r.writePacket p).read = chunkAt (r.writePacket p).capacity
        (r.writePacket p).write ((r.writePacket p).capacity -
          (queue.tail ++ [{ p with id := r.count + 1 }]).length) := by
      rw [length, capacity, write, read, Nat.sub_self, same, chunkAt_zero h.write]
      exact cursor
    have tail : queue.tail = [] := List.length_eq_zero_iff.mp (by rw [List.length_tail]; omega)
    rw [tail, List.map_nil, List.sum_nil, zero_add] at sum
    have zero : UInt32.ofNat p.size = 0 ↔ p.size = 0 := by
      rw [← UInt32.toNat_inj, small_toNat small]
      rfl
    rw [tells_iff after met, length, capacity, sum, ne_eq, zero]
    simp [Takes, single]
  · have filled : (r.writePacket p).Filled := by
      rw [filled_iff after, length, capacity]
    have apart : (r.writePacket p).read ≠ (r.writePacket p).write := by
      rw [read, write, cursor]
      have inside := h.write
      unfold next chunkAt
      split <;> omega
    have taken := (filled_iff h.toUnread).mpr whole r.write h.write
    simp [full, apart, filled, Takes, single, taken]

theorem sum_concat (queue : List RingBufferPacket) (p : RingBufferPacket) (id : UInt32) :
    ((queue ++ [{ p with id }]).map RingBufferPacket.size).sum =
      (queue.map RingBufferPacket.size).sum + p.size := by
  simp [RingBufferPacket.size]

theorem writePacket (h : r.Believed queue) (p : RingBufferPacket) (small : p.size < 2 ^ 31)
    (takes : r.Takes p.size) : ∃ queue', (r.writePacket p).Believed queue' := by
  have after := h.toUnread.writePacket p
  by_cases space : queue.length < r.capacity
  · rw [if_pos space] at after
    obtain ⟨tells, grown⟩ := (h.write_space_iff p small space).mpr takes
    have cursor := h.written_cursor p space
    refine ⟨_, after, cursor, ?_, (tells_iff after cursor).mp tells⟩
    rw [sum_concat, grown, h.counted]
  · have whole : queue.length = r.capacity := Nat.le_antisymm h.room (Nat.le_of_not_lt space)
    have tells := (h.write_full_iff p small whole).mpr takes
    rw [if_neg space] at after
    have single : r.capacity = 1 := by
      rcases takes with ⟨single, -⟩ | ⟨-, free, -⟩
      · exact single
      · exact absurd free ((filled_iff h.toUnread).mpr whole r.write h.write)
    have inside := after.write
    have front := after.read
    have capacity := (Unread.writePacket_ring r p).1
    have tail : queue.tail = [] := List.length_eq_zero_iff.mp (by rw [List.length_tail]; omega)
    have cursor : (r.writePacket p).read = chunkAt (r.writePacket p).capacity
        (r.writePacket p).write ((r.writePacket p).capacity -
          (queue.tail ++ [{ p with id := r.count + 1 }]).length) := by
      rw [tail, List.nil_append, List.length_singleton]
      unfold chunkAt
      split <;> omega
    refine ⟨_, after, cursor, ?_, (tells_iff after cursor).mp tells⟩
    have sum := h.writePacket_unread p
    rw [if_neg space, tail, List.map_nil, List.sum_nil, zero_add] at sum
    rw [sum_concat, sum, small_toNat small, tail, List.map_nil, List.sum_nil, Nat.zero_add]

theorem pool (h : r.Believed queue) (pool : List RingBufferPacket) (allocated : Nat) :
    ({ r with pool := pool, allocated := allocated } : RingBuffer).Believed queue :=
  ⟨h.toUnread.pool pool allocated, h.cursor, h.counted, h.some_bytes⟩

theorem readPacket (h : r.Believed queue) : ∃ queue', r.readPacket.2.Believed queue' := by
  by_cases none : r.unread = 0
  · refine ⟨queue, ?_⟩
    have same : r.readPacket.2 = r := by simp [RingBuffer.readPacket, none]
    rw [same]
    exact h
  · obtain ⟨got, after⟩ := h.toUnread.readPacket none h.cursor
    cases queue with
    | nil => exact absurd h.unread none
    | cons p rest =>
      have room := h.room
      have capacity := r.readPacket_frame.1
      rw [List.length_cons] at room
      rw [List.tail_cons] at after
      refine ⟨rest, after, after.reader (by omega), ?_, fun whole => by omega⟩
      have oldest : r.buffer r.read = some p := by
        rw [h.cursor]
        simpa using h.stored 0 (Nat.succ_pos _)
      have left : r.readPacket.2.unread = r.unread - UInt32.ofNat p.size := by
        simp only [RingBuffer.readPacket, if_neg none, available_here oldest, oldest]
      have counted := h.counted
      rw [List.map_cons, List.sum_cons] at counted
      have bound := r.unread.toNat_lt
      have size : (UInt32.ofNat p.size).toNat = p.size :=
        UInt32.toNat_ofNat_of_lt' (by simp [UInt32.size]; omega)
      rw [left, UInt32.toNat_sub_of_le _ _ (by rw [UInt32.le_iff_toNat_le, size]; omega), size]
      omega

theorem clear (h : r.Believed queue) : r.clear.Believed [] :=
  ⟨h.toUnread.clear, chunkAt_full.symm, rfl, fun whole => absurd whole (Nat.ne_of_lt (by
    have inside := h.write
    exact Nat.lt_of_le_of_lt (Nat.zero_le _) inside))⟩

theorem step (h : r.Believed queue) (op : RingOp) (room : r.InRoom op) :
    ∃ queue', (r.step op).Believed queue' := by
  cases op with
  | write data =>
    by_cases none : data.1 = []
    · exact ⟨queue, by simpa [RingBuffer.step, writeData, none] using h⟩
    · obtain ⟨pool, allocated, ring, -⟩ := r.needPacket_spec data.1.length
      have takes : r.Takes data.1.length := room _ (by simp [written, none])
      have put := (h.pool pool allocated).writePacket
        { (r.needPacket data.1.length).1 with data := data.1 } data.2 takes
      rw [← ring] at put
      simpa [RingBuffer.step, writeData, List.length_pos_iff.mpr none] using put
  | newPacket len =>
    obtain ⟨pool, allocated, ring, -⟩ := r.needPacket_spec len
    have kept := h.pool pool allocated
    rw [← ring] at kept
    exact ⟨queue, kept⟩
  | writePacket packet => exact h.writePacket packet.1 packet.2 (room _ rfl)
  | read => exact h.readPacket
  | freePacket packet => exact ⟨queue, h.pool (r.pool ++ [packet]) r.allocated⟩
  | clear => exact ⟨[], h.clear⟩

theorem write_sound_iff (h : r.Believed queue) (p : RingBufferPacket) (small : p.size < 2 ^ 31) :
    (((r.writePacket p).full = true ↔ (r.writePacket p).Filled) ∧
      (r.full = false → (r.writePacket p).unread.toNat = r.unread.toNat + p.size)) ↔
      r.Takes p.size := by
  have now : r.full = true ↔ queue.length = r.capacity := h.tells.trans (filled_iff h.toUnread)
  by_cases space : queue.length < r.capacity
  · have open_ : r.full = false := by
      rw [← Bool.not_eq_true, now]
      omega
    simp only [open_, forall_const]
    exact h.write_space_iff p small space
  · have whole : queue.length = r.capacity := Nat.le_antisymm h.room (Nat.le_of_not_lt space)
    have full := now.mpr whole
    rw [full]
    simp only [Bool.true_eq_false, false_implies, and_true]
    exact h.write_full_iff p small whole

theorem written_sound_iff {op : RingOp} {size : Nat} (puts : written op = some size)
    (put : (((r.step op).full = true ↔ (r.step op).Filled) ∧
      (r.full = false → (r.step op).unread.toNat = r.unread.toNat + size)) ↔ r.Takes size) :
    (operations.step r op).1.Sound ↔ r.InRoom op := by
  constructor
  · intro sound length mem
    obtain rfl := Option.some.inj (puts.symm.trans mem)
    exact put.mp ⟨sound.tells, sound.grows _ puts⟩
  · intro room
    have sound := put.mpr (room _ puts)
    refine ⟨sound.1, ?_⟩
    intro length mem
    obtain rfl := Option.some.inj (puts.symm.trans mem)
    exact sound.2

/-- Any other operation keeps the belief, and puts in nothing. -/
theorem other_sound_iff (h : r.Believed queue) {op : RingOp} (nothing : written op = none) :
    (operations.step r op).1.Sound ↔ r.InRoom op := by
  have room : r.InRoom op := by
    intro size mem
    rw [nothing] at mem
    cases mem
  obtain ⟨queue', after⟩ := h.step op room
  apply iff_of_true _ room
  refine ⟨after.tells, ?_⟩
  intro size mem
  rw [show written (operations.step r op).1.op = none from nothing] at mem
  cases mem

theorem turn_sound_iff (h : r.Believed queue) (op : RingOp) :
    (operations.step r op).1.Sound ↔ r.InRoom op := by
  cases op with
  | write data =>
    by_cases none : data.1 = []
    · exact h.other_sound_iff (by simp [written, none])
    · obtain ⟨pool, allocated, ring, -⟩ := r.needPacket_spec data.1.length
      have put := (h.pool pool allocated).write_sound_iff
        { (r.needPacket data.1.length).1 with data := data.1 } data.2
      have after : r.writeData data.1 = RingBuffer.writePacket
          { r with pool := pool, allocated := allocated }
          { (r.needPacket data.1.length).1 with data := data.1 } := by
        rw [← ring]
        simp [writeData, List.length_pos_iff.mpr none]
      have size : written (.write data) = some data.1.length := by simp [written, none]
      rw [← after] at put
      exact written_sound_iff size put
  | writePacket packet => exact written_sound_iff rfl (h.write_sound_iff packet.1 packet.2)
  | newPacket len => exact h.other_sound_iff rfl
  | read => exact h.other_sound_iff rfl
  | freePacket packet => exact h.other_sound_iff rfl
  | clear => exact h.other_sound_iff rfl

end Believed

/-- Over a whole history `full` is right after every operation, and no write that it let pass
discards a byte, if and only if every write of the history has room. -/
theorem full_sound_iff {capacity : Nat} (positive : 0 < capacity) (history : List RingOp) :
    (∀ turn ∈ operations.observations (init capacity) history, turn.Sound) ↔
      operations.Guarded InRoom (init capacity) history := by
  apply operations.observed_iff_guarded (I := fun r => ∃ queue, r.Believed queue)
  · rintro r op ⟨queue, h⟩ room
    exact h.step op room
  · rintro r op ⟨queue, h⟩
    exact h.turn_sound_iff op
  · exact ⟨[], Believed.init positive⟩

/-- Three packets into as many slots, one of them read before. -/
theorem full_sound_turn :
    (∀ turn ∈ operations.observations (init 3) [.write ⟨[1], by decide⟩, .read,
        .write ⟨[2], by decide⟩, .write ⟨[3], by decide⟩, .write ⟨[4], by decide⟩], turn.Sound) ↔
      operations.Guarded InRoom (init 3) [.write ⟨[1], by decide⟩, .read,
        .write ⟨[2], by decide⟩, .write ⟨[3], by decide⟩, .write ⟨[4], by decide⟩] :=
  full_sound_iff (by decide) _

/-- Four packets into three slots: all of them are taken by unread packets, and the ring is
said not to be full. -/
def overrun : List RingOp :=
  [.write ⟨[1], by decide⟩, .write ⟨[2], by decide⟩, .write ⟨[3], by decide⟩,
    .write ⟨[4], by decide⟩]

/-- So the fifth, written when the ring is not full by its word, discards the second. -/
theorem overrun_not_full :
    ((operations.final (init 3) overrun).Filled ∧
      (operations.final (init 3) overrun).full = false ∧
      (operations.final (init 3) overrun).unread = 3 ∧
      ((operations.final (init 3) overrun).writeData [5]).unread = 3) ∧
    ¬ ∀ capacity > 0, ∀ (history : List RingOp),
      ∀ turn ∈ operations.observations (init capacity) history, turn.Sound := by
  have run : (operations.final (init 3) overrun).Filled ∧
      (operations.final (init 3) overrun).full = false ∧
      (operations.final (init 3) overrun).unread = 3 ∧
      ((operations.final (init 3) overrun).writeData [5]).unread = 3 := by decide
  refine ⟨run, ?_⟩
  intro claimed
  have sound := claimed 3 (by decide) overrun
    ⟨operations.final (init 3) (overrun.take 3), .write ⟨[4], by decide⟩,
      operations.final (init 3) overrun⟩ (by simp [overrun, operations, Machine.observations,
        Machine.final])
  have told := sound.tells.mpr run.1
  rw [run.2.1] at told
  cases told

end RingBuffer

end CppMyth
