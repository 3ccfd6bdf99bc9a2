import CppMyth.RingBuffer

/-! The ring against a bounded first-in first-out queue. From the write cursor on come the free
chunks and then the unread packets, oldest first. -/
namespace CppMyth
open Library

namespace RingBuffer

section Chunks

variable {capacity i j k : Nat}

theorem chunkAt_lt (hi : i < capacity) (hk : k ≤ capacity) : chunkAt capacity i k < capacity := by
  unfold chunkAt
  split <;> omega

theorem chunkAt_next (hi : i < capacity) (hk : k < capacity) :
    chunkAt capacity (chunkAt capacity i 1) k = chunkAt capacity i (k + 1) := by
  unfold chunkAt
  split_ifs <;> omega

theorem chunkAt_inj (hj : j < capacity) (hk : k < capacity)
    (same : chunkAt capacity i j = chunkAt capacity i k) : j = k := by
  unfold chunkAt at same
  split_ifs at same <;> omega

theorem chunkAt_zero (hi : i < capacity) : chunkAt capacity i 0 = i := by
  simp [chunkAt, hi]

theorem chunkAt_full : chunkAt capacity i capacity = i := by
  unfold chunkAt
  split <;> omega

end Chunks

/-- The unread packets of the ring are `queue`. While a chunk is free, the read cursor stands
at the oldest packet; in a full ring it may stand anywhere. -/
structure Unread (r : RingBuffer) (queue : List RingBufferPacket) : Prop where
  write : r.write < r.capacity
  read : r.read < r.capacity
  room : queue.length ≤ r.capacity
  free : ∀ k < r.capacity - queue.length, r.buffer (chunkAt r.capacity r.write k) = none
  stored : ∀ k < queue.length,
    r.buffer (chunkAt r.capacity r.write (r.capacity - queue.length + k)) = queue[k]?
  reader : queue.length < r.capacity →
    r.read = chunkAt r.capacity r.write (r.capacity - queue.length)
  unread : r.unread = (queue.map fun p => UInt32.ofNat p.size).sum

theorem available_here {r : RingBuffer} {i : Nat} {p : RingBufferPacket}
    (held : r.buffer i = some p) (fuel : Nat) : r.available fuel i = i := by
  cases fuel <;> simp [available, held]

/-- The packet in the slot goes to the pool, whatever the cursors are. -/
theorem writePacket_eq (r : RingBuffer) (p : RingBufferPacket) :
    r.writePacket p = { r with
      buffer := Function.update r.buffer r.write (some { p with id := r.count + 1 })
      count := r.count + 1
      write := r.next r.write
      unread := r.unread - UInt32.ofNat ((r.buffer r.write).toList.map RingBufferPacket.size).sum +
        UInt32.ofNat p.size
      pool := r.pool ++ (r.buffer r.write).toList } := by
  unfold writePacket
  cases r.buffer r.write with
  | none => simp [next]
  | some old => simp [freePacket, next]

structure Appending (r : RingBuffer) (rest : List RingBufferPacket) : Prop where
  room : rest.length < r.capacity
  free : ∀ k < r.capacity - rest.length - 1, r.buffer (chunkAt r.capacity r.write (k + 1)) = none
  stored : ∀ k < rest.length,
    r.buffer (chunkAt r.capacity r.write (r.capacity - rest.length + k)) = rest[k]?
  reader : rest.length + 1 < r.capacity →
    r.read = chunkAt r.capacity r.write (r.capacity - rest.length)

namespace Unread

variable {r : RingBuffer} {queue : List RingBufferPacket}

theorem pool (h : r.Unread queue) (pool : List RingBufferPacket) (allocated : Nat) :
    ({ r with pool := pool, allocated := allocated } : RingBuffer).Unread queue :=
  ⟨h.write, h.read, h.room, h.free, h.stored, h.reader, h.unread⟩

theorem freePacket (h : r.Unread queue) (p : RingBufferPacket) :
    (r.freePacket p).Unread queue :=
  h.pool (r.pool ++ [p]) r.allocated

theorem overwritten (h : r.Unread queue) :
    r.buffer r.write = if queue.length < r.capacity then none else queue.head? := by
  by_cases space : queue.length < r.capacity
  · rw [if_pos space]
    have first := h.free 0 (by omega)
    rwa [chunkAt_zero h.write] at first
  · rw [if_neg space]
    have full : r.capacity - queue.length = 0 := by omega
    have first := h.stored 0 (by have := h.write; omega)
    rwa [full, Nat.add_zero, chunkAt_zero h.write, ← List.head?_eq_getElem?] at first

theorem appending (h : r.Unread queue) :
    r.Appending (if queue.length < r.capacity then queue else queue.tail) := by
  by_cases space : queue.length < r.capacity
  · rw [if_pos space]
    exact ⟨space, fun k hk => h.free (k + 1) (by omega), h.stored, fun _ => h.reader space⟩
  · rw [if_neg space]
    have full : queue.length = r.capacity := Nat.le_antisymm h.room (Nat.le_of_not_lt space)
    have positive := h.write
    have len : queue.tail.length = r.capacity - 1 := by rw [List.length_tail, full]
    refine ⟨by omega, fun k hk => by omega, fun k hk => ?_, fun hk => by omega⟩
    have oldest := h.stored (k + 1) (by omega)
    rw [List.getElem?_tail, ← oldest]
    congr 2
    omega

theorem writePacket_ring (r : RingBuffer) (p : RingBufferPacket) :
    (r.writePacket p).capacity = r.capacity ∧ (r.writePacket p).write = r.next r.write ∧
      (r.writePacket p).read = r.read ∧
      (r.writePacket p).buffer =
        Function.update r.buffer r.write (some { p with id := r.count + 1 }) := by
  rw [writePacket_eq]
  exact ⟨rfl, rfl, rfl, rfl⟩

theorem writePacket_unread (h : r.Unread queue) (p : RingBufferPacket) :
    (r.writePacket p).unread = ((if queue.length < r.capacity then queue else queue.tail).map
      fun p => UInt32.ofNat p.size).sum + UInt32.ofNat p.size := by
  have old := h.overwritten
  by_cases space : queue.length < r.capacity
  · rw [if_pos space] at old ⊢
    simp only [RingBuffer.writePacket, old, h.unread]
  · rw [if_neg space] at old ⊢
    cases queue with
    | nil =>
      have := h.write
      simp only [List.length_nil] at space
      omega
    | cons q rest =>
      simp only [List.head?_cons] at old
      simp only [RingBuffer.writePacket, old, RingBuffer.freePacket, h.unread, List.map_cons,
        List.sum_cons, List.tail_cons, add_sub_cancel_left]

theorem writePacket (h : r.Unread queue) (p : RingBufferPacket) :
    (r.writePacket p).Unread ((if queue.length < r.capacity then queue else queue.tail) ++
      [{ p with id := r.count + 1 }]) := by
  have total := h.writePacket_unread p
  have app := h.appending
  obtain ⟨hc, hw, hr, hb⟩ := writePacket_ring r p
  generalize (if queue.length < r.capacity then queue else queue.tail) = rest at total app ⊢
  have room := app.room
  have len : ∀ q : RingBufferPacket, (rest ++ [q]).length = rest.length + 1 := by simp
  -- a chunk further on than the written one is the same chunk as before
  have shifted : ∀ k, k + 1 < r.capacity → (r.writePacket p).buffer
      (chunkAt r.capacity (r.writePacket p).write k) =
        r.buffer (chunkAt r.capacity r.write (k + 1)) := by
    intro k hk
    rw [hb, hw, next, chunkAt_next h.write (by omega), Function.update_of_ne]
    intro same
    have first := same.trans (chunkAt_zero h.write).symm
    have := chunkAt_inj hk (by omega) first
    omega
  refine ⟨?_, ?_, ?_, ?_, ?_, ?_, ?_⟩
  · rw [hc, hw]
    exact chunkAt_lt h.write (by omega)
  · rw [hc, hr]
    exact h.read
  · rw [hc, len]
    omega
  · intro k hk
    rw [hc, len] at hk
    rw [hc, shifted k (by omega)]
    exact app.free k (by omega)
  · intro k hk
    rw [len] at hk
    rw [hc, len]
    by_cases last : k = rest.length
    · have at_ : r.capacity - (rest.length + 1) + rest.length + 1 = r.capacity := by omega
      rw [hb, hw, next, last, chunkAt_next h.write (by omega), at_, chunkAt_full]
      simp
    · have at_ : r.capacity - (rest.length + 1) + k + 1 = r.capacity - rest.length + k := by omega
      rw [shifted _ (by omega), at_, app.stored k (by omega), List.getElem?_append_left (by omega)]
  · intro hk
    rw [hc, len] at hk ⊢
    have at_ : r.capacity - (rest.length + 1) + 1 = r.capacity - rest.length := by omega
    rw [hr, hw, next, chunkAt_next h.write (by omega), at_]
    exact app.reader hk
  · rw [total]
    simp [RingBufferPacket.size]

theorem readPacket (h : r.Unread queue) (counted : r.unread ≠ 0)
    (reader : r.read = chunkAt r.capacity r.write (r.capacity - queue.length)) :
    r.readPacket.1 = queue.head? ∧ r.readPacket.2.Unread queue.tail := by
  cases queue with
  | nil => exact absurd h.unread counted
  | cons p rest =>
    have positive := h.write
    have room := h.room
    simp only [List.length_cons] at room reader
    have oldest : r.buffer r.read = some p := by
      rw [reader]
      simpa using h.stored 0 (Nat.succ_pos _)
    have here := available_here oldest r.capacity
    have read : r.readPacket = (some p, { r with
        buffer := Function.update r.buffer r.read none
        read := r.next r.read
        unread := r.unread - UInt32.ofNat p.size }) := by
      simp only [RingBuffer.readPacket, if_neg counted, here, oldest]
    have other : ∀ k < r.capacity, k ≠ r.capacity - (rest.length + 1) →
        Function.update r.buffer r.read none (chunkAt r.capacity r.write k) =
          r.buffer (chunkAt r.capacity r.write k) := by
      intro k hk hne
      refine Function.update_of_ne (fun same => hne ?_) _ _
      rw [reader] at same
      exact chunkAt_inj hk (by omega) same
    rw [read]
    refine ⟨rfl, h.write, chunkAt_lt h.read (by omega), by simp only [List.tail_cons]; omega,
      ?_, ?_, ?_, ?_⟩
    · intro k hk
      simp only [List.tail_cons] at hk ⊢
      by_cases last : k = r.capacity - (rest.length + 1)
      · rw [last, ← reader, Function.update_self]
      · rw [other k (by omega) last]
        exact h.free k (by simp only [List.length_cons]; omega)
    · intro k hk
      simp only [List.tail_cons] at hk ⊢
      have old := h.stored (k + 1) (by simp only [List.length_cons]; omega)
      have at_ : r.capacity - (rest.length + 1) + (k + 1) = r.capacity - rest.length + k := by omega
      simp only [List.length_cons, at_, List.getElem?_cons_succ] at old
      rw [other _ (by omega) (by omega), old]
    · intro _
      have at_ : r.capacity - (rest.length + 1) + 1 = r.capacity - rest.length := by omega
      simp only [List.tail_cons, next]
      rw [reader]
      unfold chunkAt
      split_ifs <;> omega
    · simp only [List.tail_cons, h.unread, List.map_cons, List.sum_cons, add_sub_cancel_left]

theorem eq_nil (h : r.Unread queue) (drained : ∀ i < r.capacity, r.buffer i = none) :
    queue = [] := by
  by_contra some
  have positive := List.length_pos_iff.mpr some
  have room := h.room
  have oldest := h.stored 0 positive
  rw [drained _ (chunkAt_lt h.write (by omega)), List.getElem?_eq_getElem positive] at oldest
  exact absurd oldest (by simp)

theorem readPacket_empty (h : r.Unread []) : r.readPacket = (none, r) := by
  simp [RingBuffer.readPacket, h.unread]

theorem clear (h : r.Unread queue) : r.clear.Unread [] := by
  refine ⟨h.write, h.write, Nat.zero_le _, fun k _ => rfl, fun k hk => absurd hk (by simp), ?_, rfl⟩
  intro _
  exact chunkAt_full.symm

end Unread

theorem chunk_after {capacity w i : Nat} (hw : w < capacity) (hi : i < capacity) :
    ∃ k < capacity, chunkAt capacity w k = i := by
  refine ⟨if w ≤ i then i - w else i + capacity - w, ?_, ?_⟩
  · split_ifs <;> omega
  · unfold chunkAt
    split_ifs <;> omega

namespace Unread

variable {r : RingBuffer} {queue : List RingBufferPacket}

theorem position (h : r.Unread queue) {k : Nat} (hk : k < r.capacity) {p : RingBufferPacket}
    (held : r.buffer (chunkAt r.capacity r.write k) = some p) :
    r.capacity - queue.length ≤ k ∧ queue[k - (r.capacity - queue.length)]? = some p := by
  by_cases free : k < r.capacity - queue.length
  · rw [h.free k free] at held
    exact absurd held (by simp)
  · have room := h.room
    have back : r.capacity - queue.length + (k - (r.capacity - queue.length)) = k := by omega
    have stored := h.stored (k - (r.capacity - queue.length)) (by omega)
    rw [back, held] at stored
    exact ⟨by omega, stored.symm⟩

theorem mem_of_held (h : r.Unread queue) {i : Nat} (hi : i < r.capacity) {p : RingBufferPacket}
    (held : r.buffer i = some p) : p ∈ queue := by
  obtain ⟨k, hk, rfl⟩ := chunk_after h.write hi
  exact List.mem_of_getElem? (h.position hk held).2

theorem chunk_unique (h : r.Unread queue) (distinct : (queue.map RingBufferPacket.addr).Nodup)
    {i j : Nat} (hi : i < r.capacity) (hj : j < r.capacity) {p q : RingBufferPacket}
    (hp : r.buffer i = some p) (hq : r.buffer j = some q) (same : p.addr = q.addr) : i = j := by
  obtain ⟨k, hk, rfl⟩ := chunk_after h.write hi
  obtain ⟨l, hl, rfl⟩ := chunk_after h.write hj
  obtain ⟨lk, hp⟩ := h.position hk hp
  obtain ⟨ll, hq⟩ := h.position hl hq
  have ak : (queue.map RingBufferPacket.addr)[k - (r.capacity - queue.length)]? = some p.addr := by
    rw [List.getElem?_map, hp]
    rfl
  have al : (queue.map RingBufferPacket.addr)[l - (r.capacity - queue.length)]? = some p.addr := by
    rw [List.getElem?_map, hq, same]
    rfl
  obtain ⟨hk', ek⟩ := List.getElem?_eq_some_iff.mp ak
  obtain ⟨hl', el⟩ := List.getElem?_eq_some_iff.mp al
  have := distinct.getElem_inj_iff.mp (ek.trans el.symm)
  congr 1
  omega

theorem drained (h : r.Unread []) : ∀ i < r.capacity, r.buffer i = none := by
  intro i hi
  obtain ⟨k, hk, rfl⟩ := chunk_after h.write hi
  exact h.free k (by simpa using hk)

theorem space_of_free (h : r.Unread queue) {i : Nat} (hi : i < r.capacity)
    (free : r.buffer i = none) : queue.length < r.capacity := by
  by_contra full
  obtain ⟨k, hk, rfl⟩ := chunk_after h.write hi
  have room := h.room
  have none : r.capacity - queue.length = 0 := by omega
  have stored := h.stored k (by omega)
  rw [none, Nat.zero_add, free, List.getElem?_eq_getElem (by omega)] at stored
  exact absurd stored (by simp)

theorem packets_subperm (h : r.Unread queue)
    (distinct : (queue.map RingBufferPacket.addr).Nodup) :
    (r.packets.map RingBufferPacket.addr).Subperm (queue.map RingBufferPacket.addr) := by
  apply List.subperm_of_subset
  · unfold packets
    rw [List.map_filterMap]
    refine List.pairwise_filterMap.mpr (List.Pairwise.imp_of_mem ?_ List.nodup_range)
    intro i j hi hj ne a ha b hb same
    obtain ⟨p, hp, rfl⟩ := Option.map_eq_some_iff.mp ha
    obtain ⟨q, hq, rfl⟩ := Option.map_eq_some_iff.mp hb
    exact ne (h.chunk_unique distinct (List.mem_range.mp hi) (List.mem_range.mp hj) hp hq same)
  · intro a ha
    obtain ⟨p, hp, rfl⟩ := List.mem_map.mp ha
    obtain ⟨i, hi, held⟩ := List.mem_filterMap.mp hp
    exact List.mem_map_of_mem (h.mem_of_held (List.mem_range.mp hi) held)

end Unread

end RingBuffer

def tally (packets : List RingBufferPacket) (a : Nat) : Nat :=
  (packets.map RingBufferPacket.addr).count a

@[simp] theorem tally_nil (a : Nat) : tally [] a = 0 := rfl

@[simp] theorem tally_cons (p : RingBufferPacket) (packets : List RingBufferPacket) (a : Nat) :
    tally (p :: packets) a = tally packets a + if p.addr = a then 1 else 0 := by
  simp [tally, List.count_cons]

@[simp] theorem tally_append (front back : List RingBufferPacket) (a : Nat) :
    tally (front ++ back) a = tally front a + tally back a := by
  simp [tally]

theorem tally_perm {front back : List RingBufferPacket} (h : front.Perm back) (a : Nat) :
    tally front a = tally back a :=
  (h.map RingBufferPacket.addr).count_eq a

namespace RingBuffer

theorem readPacket_here {r : RingBuffer} {p : RingBufferPacket} (counted : r.unread ≠ 0)
    (held : r.buffer r.read = some p) : r.readPacket.1 = some p := by
  simp only [readPacket, if_neg counted, available_here held, held]

theorem readPacket_frame (r : RingBuffer) : r.readPacket.2.capacity = r.capacity ∧
    r.readPacket.2.pool = r.pool ∧ r.readPacket.2.allocated = r.allocated := by
  unfold readPacket
  split
  · exact ⟨rfl, rfl, rfl⟩
  · simp only
    split <;> exact ⟨rfl, rfl, rfl⟩

theorem needPacket_spec (r : RingBuffer) (size : Nat) :
    ∃ pool allocated, (r.needPacket size).2 = { r with pool := pool, allocated := allocated } ∧
      r.allocated ≤ allocated ∧ ∀ a, tally ((r.needPacket size).1 :: pool) a ≤
        tally r.pool a + if r.allocated ≤ a ∧ a < allocated then 1 else 0 := by
  unfold needPacket
  cases hp : r.pool with
  | nil =>
    refine ⟨[], r.allocated + 1, by simp [allocate, hp], by omega, fun a => ?_⟩
    simp only [allocate, tally_cons, tally_nil]
    grind
  | cons p rest =>
    by_cases fits : p.capacity ≥ size
    · refine ⟨rest, r.allocated, by simp [fits], Nat.le_refl _, fun a => ?_⟩
      simp [fits]
    · refine ⟨rest, r.allocated + 1, by simp [fits, allocate], by omega, fun a => ?_⟩
      simp only [fits, allocate, tally_cons, if_false]
      grind

theorem writePacket_pool {r : RingBuffer} {queue : List RingBufferPacket} (h : r.Unread queue)
    (p : RingBufferPacket) :
    (r.writePacket p).allocated = r.allocated ∧ (r.writePacket p).pool =
      r.pool ++ if queue.length < r.capacity then [] else queue.head?.toList := by
  rw [writePacket_eq, h.overwritten]
  refine ⟨rfl, ?_⟩
  split <;> rfl

end RingBuffer

namespace RingClient

/-- A read that meets the oldest packet: the ring is empty, or the count of unread bytes has
not wrapped to 0 and either a chunk is free or the read cursor stands at the write cursor. -/
def InOrder (s : RingClient) : RingCall → Prop
  | .read => (∀ i < s.ring.capacity, s.ring.buffer i = none) ∨ (s.ring.unread ≠ 0 ∧
      (s.ring.read = s.ring.write ∨ ∃ i < s.ring.capacity, s.ring.buffer i = none))
  | _ => True

instance decidableInOrder : (s : RingClient) → (call : RingCall) → Decidable (s.InOrder call)
  | s, .read => inferInstanceAs (Decidable ((∀ i < s.ring.capacity, s.ring.buffer i = none) ∨ _))
  | _, .write _ | _, .newPacket _ | _, .writePacket _ _ | _, .freePacket _ | _, .clear =>
    isTrue trivial

/-- The ring holds the queue, and every packet is at one place. -/
structure Holds (s : RingClient) (queue : List RingBufferPacket) : Prop where
  unread : s.ring.Unread queue
  owned : ∀ a, tally queue a + tally s.ring.pool a + tally s.hands a ≤
    if a < s.ring.allocated then 1 else 0

namespace Holds

variable {r : RingBuffer} {s : RingClient} {hands queue : List RingBufferPacket}

theorem distinct (h : s.Holds queue) : (queue.map RingBufferPacket.addr).Nodup := by
  apply List.nodup_iff_count_le_one.mpr
  intro a
  have one := h.owned a
  unfold tally at one
  split at one <;> omega

theorem init {capacity : Nat} (positive : 0 < capacity) : (init capacity).Holds [] where
  unread := by
    refine ⟨positive, positive, Nat.zero_le _, fun k _ => rfl, fun k hk => absurd hk (by simp),
      fun _ => ?_, rfl⟩
    exact RingBuffer.chunkAt_full.symm
  owned a := by simp [RingClient.init, RingBuffer.init]

theorem perm (h : (⟨r, hands⟩ : RingClient).Holds queue) {hands' : List RingBufferPacket}
    (same : hands.Perm hands') : (⟨r, hands'⟩ : RingClient).Holds queue :=
  ⟨h.unread, fun a => tally_perm same a ▸ h.owned a⟩

theorem need (h : (⟨r, hands⟩ : RingClient).Holds queue) (size : Nat) {p : RingBufferPacket}
    (same : p.addr = (r.needPacket size).1.addr) :
    (⟨(r.needPacket size).2, p :: hands⟩ : RingClient).Holds queue := by
  obtain ⟨pool, allocated, ring, grows, bound⟩ := r.needPacket_spec size
  rw [ring]
  refine ⟨h.unread.pool pool allocated, fun a => ?_⟩
  have here := bound a
  have before := h.owned a
  simp only [tally_cons, same] at here ⊢
  simp only at before
  grind

theorem put {p : RingBufferPacket} (h : (⟨r, p :: hands⟩ : RingClient).Holds queue)
    {q : RingBufferPacket} (same : q.addr = p.addr) :
    (⟨r.writePacket q, hands⟩ : RingClient).Holds
      ((if queue.length < r.capacity then queue else queue.tail) ++
        [{ q with id := r.count + 1 }]) := by
  refine ⟨h.unread.writePacket q, fun a => ?_⟩
  obtain ⟨allocated, pool⟩ := RingBuffer.writePacket_pool h.unread q
  have before := h.owned a
  simp only [tally_cons] at before
  rw [allocated, pool]
  simp only [tally_append, tally_cons, tally_nil, same]
  by_cases space : queue.length < r.capacity
  · simp only [if_pos space, tally_nil]
    omega
  · simp only [if_neg space]
    cases queue with
    | nil =>
      simp only [List.head?_nil, Option.toList_none, List.tail_nil, tally_nil] at before ⊢
      omega
    | cons q rest =>
      simp only [tally_cons] at before
      simp only [List.head?_cons, Option.toList_some, List.tail_cons, tally_cons, tally_nil]
      omega

theorem wrote_accepted (h : (⟨r, hands⟩ : RingClient).Holds queue) (r' : RingBuffer)
    (p : RingBufferPacket) (write : r'.write = r.write) (count : r'.count = r.count) :
    fifo r.capacity queue (wrote r (r'.writePacket p)) =
      some ((if queue.length < r.capacity then queue else queue.tail) ++
        [{ p with id := r.count + 1 }]) := by
  obtain ⟨-, -, -, hb⟩ := RingBuffer.Unread.writePacket_ring r' p
  have event : wrote r (r'.writePacket p) =
      .wrote { p with id := r.count + 1 } (r.buffer r.write) := by
    simp [wrote, hb, write, count]
  have old := h.unread.overwritten
  rw [event]
  unfold fifo
  simp only at old
  by_cases space : queue.length < r.capacity
  · simp [old, space]
  · simp [old, space]

theorem write_step (h : s.Holds queue) {data : List UInt8} (some_ : data ≠ []) :
    ∃ next, fifo s.ring.capacity queue (wrote s.ring (s.ring.writeData data)) = some next ∧
      (⟨s.ring.writeData data, s.hands⟩ : RingClient).Holds next := by
  have needed := h.need data.length
    (p := { (s.ring.needPacket data.length).1 with data := data }) rfl
  obtain ⟨pool, allocated, ring, -, -⟩ := s.ring.needPacket_spec data.length
  have written : s.ring.writeData data = (s.ring.needPacket data.length).2.writePacket
      { (s.ring.needPacket data.length).1 with data := data } := by
    simp [RingBuffer.writeData, List.length_pos_iff.mpr some_]
  rw [written]
  refine ⟨_, h.wrote_accepted _ _ ?_ ?_, ?_⟩
  · rw [ring]
  · rw [ring]
  · have placed := needed.put (q := { (s.ring.needPacket data.length).1 with data := data }) rfl
    rw [ring] at placed ⊢
    exact placed

theorem writePacket_step (h : s.Holds queue) {i : Nat} {p : RingBufferPacket}
    (held : s.hands[i]? = some p) (data : List UInt8) :
    ∃ next, fifo s.ring.capacity queue
        (wrote s.ring (s.ring.writePacket { p with data := data })) = some next ∧
      (⟨s.ring.writePacket { p with data := data }, s.hands.eraseIdx i⟩ : RingClient).Holds
        next := by
  obtain ⟨hi, rfl⟩ := List.getElem?_eq_some_iff.mp held
  have front := h.perm (List.getElem_cons_eraseIdx_perm hi).symm
  exact ⟨_, h.wrote_accepted _ _ rfl rfl, front.put rfl⟩

theorem read_step (h : s.Holds queue) (inOrder : s.InOrder .read) :
    s.ring.readPacket.1 = queue.head? ∧
      (⟨s.ring.readPacket.2, s.ring.readPacket.1.toList ++ s.hands⟩ : RingClient).Holds
        queue.tail := by
  have inside := h.unread.write
  by_cases empty : queue = []
  · subst empty
    rw [h.unread.readPacket_empty]
    exact ⟨rfl, h⟩
  · obtain ⟨counted, met⟩ := inOrder.resolve_left fun drained => empty (h.unread.eq_nil drained)
    have reader : s.ring.read =
        RingBuffer.chunkAt s.ring.capacity s.ring.write (s.ring.capacity - queue.length) := by
      by_cases space : queue.length < s.ring.capacity
      · exact h.unread.reader space
      · have full : s.ring.capacity - queue.length = 0 := by omega
        rw [full, RingBuffer.chunkAt_zero inside]
        apply met.resolve_right
        rintro ⟨i, hi, free⟩
        exact space (h.unread.space_of_free hi free)
    obtain ⟨got, next⟩ := h.unread.readPacket counted reader
    refine ⟨got, next, fun a => ?_⟩
    obtain ⟨pool, allocated⟩ := s.ring.readPacket_frame.2
    have before := h.owned a
    rw [pool, allocated, got]
    cases queue with
    | nil => exact absurd rfl empty
    | cons p rest =>
      refine Nat.le_trans ?_ before
      simp only [List.tail_cons, List.head?_cons, Option.toList_some, tally_cons, tally_append,
        tally_nil]
      omega

theorem read_fails (h : s.Holds queue) (outOfOrder : ¬ s.InOrder .read) :
    s.ring.readPacket.1 ≠ queue.head? := by
  obtain ⟨held, missed⟩ := not_or.mp outOfOrder
  cases queue with
  | nil => exact absurd h.unread.drained held
  | cons p rest =>
    by_cases wrapped : s.ring.unread = 0
    · simp [RingBuffer.readPacket, wrapped]
    · obtain ⟨away, busy⟩ := not_or.mp (not_and.mp missed wrapped)
      obtain ⟨q, hq⟩ : ∃ q, s.ring.buffer s.ring.read = some q := by
        cases hb : s.ring.buffer s.ring.read with
        | none => exact absurd ⟨_, h.unread.read, hb⟩ busy
        | some q => exact ⟨q, rfl⟩
      have oldest : s.ring.buffer s.ring.write = some p := by
        have space : ¬ (p :: rest).length < s.ring.capacity := fun space =>
          busy ⟨_, h.unread.write, by rw [h.unread.overwritten, if_pos space]⟩
        rw [h.unread.overwritten, if_neg space]
        rfl
      rw [RingBuffer.readPacket_here wrapped hq]
      intro same
      obtain rfl : q = p := by simpa using same
      exact away (h.unread.chunk_unique h.distinct h.unread.read h.unread.write hq oldest rfl)

end Holds

theorem capacity_kept (s : RingClient) (call : RingCall) :
    (machine.step s call).2.ring.capacity = s.ring.capacity := by
  have needed : ∀ size, (s.ring.needPacket size).2.capacity = s.ring.capacity := by
    intro size
    obtain ⟨pool, allocated, ring, -⟩ := s.ring.needPacket_spec size
    rw [ring]
  cases call with
  | write data =>
    simp only [machine]
    split
    · rfl
    · unfold RingBuffer.writeData
      split
      · exact (RingBuffer.Unread.writePacket_ring _ _).1.trans (needed _)
      · rfl
  | newPacket len => exact needed len
  | writePacket i data =>
    simp only [machine]
    split
    · rfl
    · split
      · exact (RingBuffer.Unread.writePacket_ring _ _).1
      · rfl
  | read => exact s.ring.readPacket_frame.1
  | freePacket i =>
    simp only [machine]
    split <;> rfl
  | clear => rfl

theorem step_accepted {s : RingClient} {queue : List RingBufferPacket} (h : s.Holds queue)
    (call : RingCall) (inOrder : s.InOrder call) :
    ∃ next, fifo s.ring.capacity queue (machine.step s call).1 = some next ∧
      (machine.step s call).2.Holds next := by
  cases call with
  | write data =>
    by_cases none : data = []
    · simp only [machine, if_pos none]
      exact ⟨queue, rfl, h⟩
    · simp only [machine, if_neg none]
      exact h.write_step none
  | newPacket len => exact ⟨queue, rfl, h.need len rfl⟩
  | writePacket i data =>
    cases held : s.hands[i]? with
    | none =>
      simp only [machine, held]
      exact ⟨queue, rfl, h⟩
    | some p =>
      simp only [machine, held]
      split
      · exact h.writePacket_step held data
      · exact ⟨queue, rfl, h⟩
  | read =>
    obtain ⟨got, next⟩ := h.read_step inOrder
    exact ⟨queue.tail, if_pos got, next⟩
  | freePacket i =>
    cases held : s.hands[i]? with
    | none =>
      simp only [machine, held]
      exact ⟨queue, rfl, h⟩
    | some p =>
      simp only [machine, held]
      refine ⟨queue, rfl, h.unread.freePacket p, fun a => ?_⟩
      obtain ⟨hi, rfl⟩ := List.getElem?_eq_some_iff.mp held
      have before := h.owned a
      rw [← tally_perm (List.getElem_cons_eraseIdx_perm hi) a] at before
      refine Nat.le_trans ?_ before
      simp only [RingBuffer.freePacket, tally_append, tally_cons, tally_nil]
      omega
  | clear =>
    refine ⟨[], rfl, h.unread.clear, fun a => ?_⟩
    have freed := (h.unread.packets_subperm h.distinct).count_le a
    refine Nat.le_trans ?_ (h.owned a)
    simp only [machine, RingBuffer.clear, tally_append, tally_nil]
    simp only [tally]
    omega

/-- The ring is a first-in first-out queue over exactly those histories whose reads are all
made in order. -/
theorem ring_is_fifo_iff {capacity : Nat} (positive : 0 < capacity) (history : List RingCall) :
    (Machine.Accepts (fifo capacity) [] (machine.observations (init capacity) history) ↔
      machine.Guarded InOrder (init capacity) history) ∧
    (machine.Guarded InOrder (init capacity) history →
      (FifoEvent.delivered (machine.observations (init capacity) history)).Sublist
        (FifoEvent.written (machine.observations (init capacity) history))) := by
  have exact_ : Machine.Accepts (fifo capacity) []
      (machine.observations (init capacity) history) ↔
      machine.Guarded InOrder (init capacity) history :=
    machine.accepts_iff_guarded
      (R := fun s queue => s.ring.capacity = capacity ∧ s.Holds queue) ?_ ?_
      ⟨rfl, Holds.init positive⟩ history
  · refine ⟨exact_, fun guarded => ?_⟩
    simpa using delivered_sublist (exact_.mpr guarded)
  · rintro s queue call ⟨rfl, h⟩ inOrder
    obtain ⟨next, accepted, holds⟩ := step_accepted h call inOrder
    exact ⟨next, accepted, capacity_kept s call, holds⟩
  · rintro s queue call ⟨rfl, h⟩ outOfOrder
    cases call with
    | read => exact if_neg (h.read_fails outOfOrder)
    | _ => exact absurd trivial outOfOrder

/-- Three writes into two chunks that were already filled, read back in order. -/
theorem ring_is_fifo_overwritten : Machine.Accepts (fifo 2) [] (machine.observations (init 2)
    [.write [1], .write [2], .write [3], .write [4], .read, .read, .read]) :=
  (ring_is_fifo_iff (by decide) _).1.mpr (by decide)

/-- After one overwrite in a full ring of two chunks, the newest packet is read first. -/
theorem not_always_fifo : ¬ ∀ capacity > 0, ∀ history,
    Machine.Accepts (fifo capacity) [] (machine.observations (init capacity) history) := by
  intro claim
  exact absurd (claim 2 (by decide) [.write [1], .write [2], .write [3], .read]) (by decide)

end RingClient

end CppMyth
