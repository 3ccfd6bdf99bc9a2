import CppMyth.Library.Slots
import CppMyth.RingBuffer.Fifo

/-! Who holds each packet. A packet is in a slot of the ring, in the pool or in the hands of a
client, until `needPacket` deletes it; reads may come in any order. -/
namespace CppMyth
open Library

namespace RingBuffer

def bytesHeld (r : RingBuffer) : Nat := (r.packets.map RingBufferPacket.size).sum

/-- What `needPacket` deletes: the first packet of the pool when it is too small. -/
def deletes (r : RingBuffer) (size : Nat) : List Nat :=
  match r.pool with
  | p :: _ => if p.capacity ≥ size then [] else [p.addr]
  | [] => []

end RingBuffer

/-- The ring with its clients, and the addresses of the packets deleted so far. -/
structure Custody where
  client : RingClient
  deleted : List Nat

inductive RingUse where
  | call (call : RingCall)
  | bytesAvailable
  | bytesUnread
  | full
  deriving DecidableEq, Repr

inductive RingAnswer where
  | event (event : FifoEvent RingBufferPacket)
  | bytes (n : Nat)
  | flag (b : Bool)

namespace Custody

def init (capacity : Nat) : Custody := ⟨.init capacity, []⟩

abbrev ring (s : Custody) : RingBuffer := s.client.ring

def deletedBy (s : Custody) : RingCall → List Nat
  | .write data => if data = [] then [] else s.ring.deletes data.length
  | .newPacket len => s.ring.deletes len
  | _ => []

def machine : Machine Custody RingUse RingAnswer where
  step s
    | .call call =>
      let used := RingClient.machine.step s.client call
      (.event used.1, ⟨used.2, s.deletedBy call ++ s.deleted⟩)
    | .bytesAvailable =>
      let available := s.ring.bytesAvailable
      (.bytes available.1, { s with client := { s.client with ring := available.2 } })
    | .bytesUnread => (.bytes s.ring.bytesUnread.toNat, s)
    | .full => (.flag s.ring.full, s)

/-- After the use the ring holds fewer bytes than an `int` can count. -/
def Bounded (s : Custody) (use : RingUse) : Prop :=
  (machine.step s use).2.ring.bytesHeld < 2 ^ 31

instance (s : Custody) (use : RingUse) : Decidable (s.Bounded use) :=
  inferInstanceAs (Decidable (_ < _))

/-- The slot scan from the read cursor: `k` slots are empty, the next holds the packet, and
the loop stands there from its step `k` on. -/
def Scan (r : RingBuffer) (k : Nat) (p : RingBufferPacket) : Prop :=
  (∀ j < k, r.buffer (RingBuffer.chunkAt r.capacity r.read j) = none) ∧
    r.buffer (RingBuffer.chunkAt r.capacity r.read k) = some p ∧
    ∀ fuel ≥ k, r.available fuel r.read = RingBuffer.chunkAt r.capacity r.read k

/-- The count of unread bytes is right, every packet allocated and not deleted is at exactly
one place, a new packet is large enough, and while bytes are unread the scan ends within one
turn of the ring at the packet that `read` gives. -/
structure Kept (s : Custody) : Prop where
  counted : s.ring.bytesUnread.toNat = s.ring.bytesHeld
  one_place : ∀ a, tally s.ring.packets a + tally s.ring.pool a + tally s.client.hands a =
    if a < s.ring.allocated ∧ a ∉ s.deleted then 1 else 0
  large_enough : ∀ len, len ≤ (s.ring.newPacket len).1.capacity
  found : s.ring.unread ≠ 0 → ∃ k < s.ring.capacity, ∃ p, Scan s.ring k p ∧
    s.ring.readPacket.1 = some p ∧ s.ring.bytesAvailable.1 = p.size

end Custody

namespace RingBuffer

theorem bytesHeld_eq (r : RingBuffer) :
    r.bytesHeld = ((stored r.buffer r.capacity).map RingBufferPacket.size).sum := rfl

theorem tally_eq (packets : List RingBufferPacket) (a : Nat) :
    tally packets a = (packets.map fun p => if p.addr = a then 1 else 0).sum := by
  induction packets with
  | nil => rfl
  | cons p rest ih => rw [tally_cons, ih, List.map_cons, List.sum_cons, Nat.add_comm]

theorem tally_update (r : RingBuffer) {i : Nat} (inside : i < r.capacity)
    (x : Option RingBufferPacket) (a : Nat) :
    tally (stored (Function.update r.buffer i x) r.capacity) a + tally (r.buffer i).toList a =
      tally r.packets a + tally x.toList a := by
  simp only [tally_eq]
  exact stored.sum_update _ inside x

theorem newPacket_capacity (r : RingBuffer) (len : Nat) : len ≤ (r.newPacket len).1.capacity := by
  unfold newPacket needPacket
  cases r.pool with
  | nil => exact Nat.le_refl _
  | cons p rest =>
    by_cases fits : p.capacity ≥ len
    · simpa only [if_pos fits] using fits
    · simp [if_neg fits, allocate]

section Scan

variable {r : RingBuffer}

theorem available_scan {k i : Nat} (hi : i < r.capacity) (hk : k < r.capacity)
    (empty : ∀ j < k, r.buffer (chunkAt r.capacity i j) = none) {p : RingBufferPacket}
    (held : r.buffer (chunkAt r.capacity i k) = some p) {fuel : Nat} (enough : k ≤ fuel) :
    r.available fuel i = chunkAt r.capacity i k := by
  induction k generalizing i fuel with
  | zero =>
    rw [chunkAt_zero hi] at held ⊢
    exact available_here held fuel
  | succ k ih =>
    obtain ⟨fuel, rfl⟩ : ∃ f, fuel = f + 1 := ⟨fuel - 1, by omega⟩
    have here := empty 0 (Nat.succ_pos k)
    rw [chunkAt_zero hi] at here
    have last : chunkAt r.capacity i (k + 1) = chunkAt r.capacity (chunkAt r.capacity i 1) k :=
      (chunkAt_next hi (by omega)).symm
    rw [available, if_pos here, next, last]
    apply ih (chunkAt_lt hi (by omega)) (by omega)
    · intro j hj
      rw [chunkAt_next hi (by omega)]
      exact empty (j + 1) (by omega)
    · rw [← last]
      exact held
    · omega

/-- In a ring that holds bytes the scan ends before it is back at its start. -/
theorem scan_ends (inside : r.read < r.capacity) (some : r.bytesHeld ≠ 0) :
    ∃ k < r.capacity, ∃ p, Custody.Scan r k p := by
  obtain ⟨i, hi, held⟩ := stored.nonempty_of_sum some
  obtain ⟨k, hk, rfl⟩ := chunk_after inside hi
  have exists_ : ∃ j < r.capacity, r.buffer (chunkAt r.capacity r.read j) ≠ none := ⟨k, hk, held⟩
  classical
  obtain ⟨first, met⟩ := Nat.find_spec exists_
  obtain ⟨p, packet⟩ := Option.ne_none_iff_exists'.mp met
  have empty : ∀ j < Nat.find exists_, r.buffer (chunkAt r.capacity r.read j) = none := by
    intro j hj
    by_contra busy
    exact Nat.find_min exists_ hj ⟨by omega, busy⟩
  exact ⟨_, first, p, empty, packet, fun fuel enough =>
    available_scan inside first empty packet enough⟩

theorem readPacket_scan {k : Nat} {p : RingBufferPacket} (counted : r.unread ≠ 0)
    (hk : k < r.capacity) (scan : Custody.Scan r k p) :
    r.readPacket = (some p, { r with
      buffer := Function.update r.buffer (chunkAt r.capacity r.read k) none
      read := r.next (chunkAt r.capacity r.read k)
      unread := r.unread - UInt32.ofNat p.size }) := by
  obtain ⟨-, held, stands⟩ := scan
  simp only [readPacket, if_neg counted, stands r.capacity (Nat.le_of_lt hk), held]

theorem bytesAvailable_scan {k : Nat} {p : RingBufferPacket} (counted : r.unread ≠ 0)
    (hk : k < r.capacity) (scan : Custody.Scan r k p) :
    r.bytesAvailable = (p.size, { r with read := chunkAt r.capacity r.read k }) := by
  obtain ⟨-, held, stands⟩ := scan
  simp only [bytesAvailable, if_neg counted, stands r.capacity (Nat.le_of_lt hk), held]
  rfl

end Scan

theorem needPacket_place (r : RingBuffer) (size : Nat) {inRing inHands : Nat → Nat}
    {deleted : List Nat}
    (one_place : ∀ a, inRing a + tally r.pool a + inHands a =
      if a < r.allocated ∧ a ∉ deleted then 1 else 0)
    (older : ∀ a ∈ deleted, a < r.allocated) :
    (∀ a, inRing a + tally (r.needPacket size).2.pool a +
        (inHands a + if (r.needPacket size).1.addr = a then 1 else 0) =
      if a < (r.needPacket size).2.allocated ∧ a ∉ r.deletes size ++ deleted then 1 else 0) ∧
    ∀ a ∈ r.deletes size ++ deleted, a < (r.needPacket size).2.allocated := by
  unfold needPacket deletes
  cases pool : r.pool with
  | nil =>
    simp only [pool, allocate, tally_nil, List.nil_append] at one_place ⊢
    refine ⟨fun a => ?_, fun a gone => Nat.lt_succ_of_lt (older a gone)⟩
    have before := one_place a
    have fresh := older a
    grind
  | cons p rest =>
    simp only [pool, tally_cons] at one_place ⊢
    by_cases fits : p.capacity ≥ size
    · simp only [if_pos fits, List.nil_append]
      refine ⟨fun a => ?_, older⟩
      have before := one_place a
      omega
    · simp only [if_neg fits, allocate, List.singleton_append, List.mem_cons]
      have there : p.addr < r.allocated ∧ p.addr ∉ deleted := by
        have before := one_place p.addr
        grind
      refine ⟨fun a => ?_, fun a gone => ?_⟩
      · have before := one_place a
        have fresh := older a
        grind
      · have fresh := older a
        grind

theorem recount {u : UInt32} {out come : Nat} (there : out ≤ u.toNat)
    (small : u.toNat - out + come < 2 ^ 32) :
    (u - UInt32.ofNat out + UInt32.ofNat come).toNat = u.toNat - out + come := by
  have bound := u.toNat_lt
  rw [UInt32.toNat_add, UInt32.toNat_sub, UInt32.toNat_ofNat', UInt32.toNat_ofNat']
  omega

section Slot

variable {r : RingBuffer} {i : Nat}

theorem bytesHeld_update (inside : i < r.capacity) (x : Option RingBufferPacket) :
    ((stored (Function.update r.buffer i x) r.capacity).map RingBufferPacket.size).sum +
        ((r.buffer i).toList.map RingBufferPacket.size).sum =
      r.bytesHeld + (x.toList.map RingBufferPacket.size).sum :=
  stored.sum_update RingBufferPacket.size inside x

theorem held_le (inside : i < r.capacity) :
    ((r.buffer i).toList.map RingBufferPacket.size).sum ≤ r.bytesHeld := by
  have emptied := bytesHeld_update inside none
  simp only [Option.toList_none, List.map_nil, List.sum_nil] at emptied
  omega

theorem writePacket_packets (r : RingBuffer) (p : RingBufferPacket) :
    (r.writePacket p).packets =
      stored (Function.update r.buffer r.write (some { p with id := r.count + 1 })) r.capacity := by
  rw [writePacket_eq]
  rfl

theorem writePacket_bytes (inside : r.write < r.capacity) (p : RingBufferPacket) :
    (r.writePacket p).bytesHeld =
      r.bytesHeld - ((r.buffer r.write).toList.map RingBufferPacket.size).sum + p.size := by
  have moved := bytesHeld_update inside (some { p with id := r.count + 1 })
  have fits := held_le inside
  rw [Option.toList_some, List.map_singleton, List.sum_singleton] at moved
  rw [bytesHeld, writePacket_packets]
  simp only [RingBufferPacket.size] at *
  omega

theorem writePacket_counted (inside : r.write < r.capacity)
    (counted : r.unread.toNat = r.bytesHeld) {p : RingBufferPacket}
    (bounded : (r.writePacket p).bytesHeld < 2 ^ 31) :
    (r.writePacket p).unread.toNat = (r.writePacket p).bytesHeld := by
  rw [writePacket_bytes inside] at bounded ⊢
  have fits := held_le inside
  rw [writePacket_eq]
  rw [← counted] at fits bounded ⊢
  exact recount fits (by omega)

theorem writePacket_place (inside : r.write < r.capacity) (p : RingBufferPacket) (a : Nat) :
    tally (r.writePacket p).packets a + tally (r.writePacket p).pool a =
      tally r.packets a + tally r.pool a + if p.addr = a then 1 else 0 := by
  have slot := r.tally_update inside (some { p with id := r.count + 1 }) a
  have pool : (r.writePacket p).pool = r.pool ++ (r.buffer r.write).toList := by
    rw [writePacket_eq]
  simp only [Option.toList_some, tally_cons, tally_nil] at slot
  rw [writePacket_packets, pool, tally_append]
  omega

theorem takes (inside : i < r.capacity) {p : RingBufferPacket} (held : r.buffer i = some p) :
    ((stored (Function.update r.buffer i none) r.capacity).map RingBufferPacket.size).sum +
        p.size = r.bytesHeld ∧
      ∀ a, tally (stored (Function.update r.buffer i none) r.capacity) a +
        (if p.addr = a then 1 else 0) = tally r.packets a := by
  constructor
  · have emptied := bytesHeld_update inside none
    simpa [held] using emptied
  · intro a
    have emptied := r.tally_update inside none a
    simpa [held] using emptied

end Slot

end RingBuffer

namespace Custody

/-- What every use keeps. -/
structure Sound (s : Custody) : Prop where
  write : s.ring.write < s.ring.capacity
  read : s.ring.read < s.ring.capacity
  counted : s.ring.unread.toNat = s.ring.bytesHeld
  one_place : ∀ a, tally s.ring.packets a + tally s.ring.pool a + tally s.client.hands a =
    if a < s.ring.allocated ∧ a ∉ s.deleted then 1 else 0
  allocated : ∀ a ∈ s.deleted, a < s.ring.allocated

namespace Sound

variable {r : RingBuffer} {hands : List RingBufferPacket} {deleted : List Nat} {s : Custody}

theorem init {capacity : Nat} (positive : 0 < capacity) : (init capacity).Sound where
  write := positive
  read := positive
  counted := by
    rw [RingBuffer.bytesHeld_eq]
    exact (congrArg (fun l => (l.map RingBufferPacket.size).sum) (stored.none capacity)).symm
  one_place a := by
    have empty : (Custody.init capacity).ring.packets = [] := stored.none capacity
    rw [empty]
    simp [Custody.init, RingClient.init, RingBuffer.init]
  allocated a gone := by cases gone

theorem perm (h : (⟨⟨r, hands⟩, deleted⟩ : Custody).Sound) {hands' : List RingBufferPacket}
    (same : hands.Perm hands') : (⟨⟨r, hands'⟩, deleted⟩ : Custody).Sound :=
  ⟨h.write, h.read, h.counted, fun a => tally_perm same a ▸ h.one_place a, h.allocated⟩

theorem need (h : (⟨⟨r, hands⟩, deleted⟩ : Custody).Sound) (size : Nat) {p : RingBufferPacket}
    (same : p.addr = (r.needPacket size).1.addr) :
    (⟨⟨(r.needPacket size).2, p :: hands⟩, r.deletes size ++ deleted⟩ : Custody).Sound := by
  obtain ⟨pool, allocated, frame, grows, -⟩ := r.needPacket_spec size
  obtain ⟨one_place, older⟩ := r.needPacket_place size h.one_place h.allocated
  rw [frame] at one_place older ⊢
  refine ⟨h.write, h.read, h.counted, fun a => ?_, older⟩
  rw [tally_cons, same]
  exact one_place a

theorem put {p : RingBufferPacket} (h : (⟨⟨r, p :: hands⟩, deleted⟩ : Custody).Sound)
    {q : RingBufferPacket} (same : q.addr = p.addr)
    (bounded : (r.writePacket q).bytesHeld < 2 ^ 31) :
    (⟨⟨r.writePacket q, hands⟩, deleted⟩ : Custody).Sound := by
  have inside : r.write < r.capacity := h.write
  have counted := RingBuffer.writePacket_counted inside h.counted bounded
  obtain ⟨capacity, write, read, -⟩ := RingBuffer.Unread.writePacket_ring r q
  have allocated : (r.writePacket q).allocated = r.allocated := by rw [RingBuffer.writePacket_eq]
  refine ⟨?_, ?_, counted, fun a => ?_, ?_⟩
  · simp only [ring, capacity, write]
    exact RingBuffer.chunkAt_lt inside (by omega)
  · simp only [ring, capacity, read]
    exact h.read
  · have before := h.one_place a
    have placed := RingBuffer.writePacket_place inside q a
    simp only [ring, tally_cons, same, allocated] at before placed ⊢
    omega
  · simp only [ring, allocated]
    exact h.allocated

theorem free {p : RingBufferPacket} (h : (⟨⟨r, p :: hands⟩, deleted⟩ : Custody).Sound) :
    (⟨⟨r.freePacket p, hands⟩, deleted⟩ : Custody).Sound := by
  refine ⟨h.write, h.read, h.counted, fun a => Eq.trans ?_ (h.one_place a), h.allocated⟩
  change tally r.packets a + tally (r.pool ++ [p]) a + tally hands a =
    tally r.packets a + tally r.pool a + tally (p :: hands) a
  simp only [tally_append, tally_cons, tally_nil]
  omega

theorem clear (h : (⟨⟨r, hands⟩, deleted⟩ : Custody).Sound) :
    (⟨⟨r.clear, hands⟩, deleted⟩ : Custody).Sound := by
  have none : r.clear.packets = [] := stored.none r.capacity
  refine ⟨h.write, h.write, ?_, fun a => Eq.trans ?_ (h.one_place a), h.allocated⟩
  · rw [RingBuffer.bytesHeld, none]
    rfl
  · change tally r.clear.packets a + tally (r.pool ++ r.packets) a + tally hands a =
      tally r.packets a + tally r.pool a + tally hands a
    rw [none, tally_nil, tally_append]
    omega

theorem scan (h : s.Sound) (some : s.ring.unread ≠ 0) :
    ∃ k < s.ring.capacity, ∃ p, Scan s.ring k p := by
  apply RingBuffer.scan_ends h.read
  rw [← h.counted]
  intro zero
  exact some (UInt32.toNat_inj.mp zero)

theorem take (h : (⟨⟨r, hands⟩, deleted⟩ : Custody).Sound) :
    (⟨⟨r.readPacket.2, r.readPacket.1.toList ++ hands⟩, deleted⟩ : Custody).Sound := by
  by_cases empty : r.unread = 0
  · have nothing : r.readPacket = (none, r) := if_pos empty
    rw [nothing]
    exact h
  · obtain ⟨k, hk, p, scan⟩ := h.scan empty
    have there : RingBuffer.chunkAt r.capacity r.read k < r.capacity :=
      RingBuffer.chunkAt_lt h.read (Nat.le_of_lt hk)
    obtain ⟨emptied, placed⟩ := RingBuffer.takes there scan.2.1
    rw [RingBuffer.readPacket_scan empty hk scan]
    refine ⟨h.write, RingBuffer.chunkAt_lt there (by omega), ?_,
      fun a => Eq.trans ?_ (h.one_place a), h.allocated⟩
    · have counted : r.unread.toNat = r.bytesHeld := h.counted
      change (r.unread - UInt32.ofNat p.size).toNat =
        ((stored (Function.update r.buffer _ none) r.capacity).map RingBufferPacket.size).sum
      have bound := r.unread.toNat_lt
      rw [UInt32.toNat_sub, UInt32.toNat_ofNat']
      omega
    · have slot := placed a
      change tally (stored (Function.update r.buffer _ none) r.capacity) a + tally r.pool a +
        tally (p :: hands) a = tally r.packets a + tally r.pool a + tally hands a
      rw [tally_cons]
      omega

theorem stand (h : s.Sound) : (machine.step s .bytesAvailable).2.Sound := by
  by_cases empty : s.ring.unread = 0
  · have nothing : s.ring.bytesAvailable = (0, s.ring) := if_pos empty
    simp only [machine, nothing]
    exact h
  · obtain ⟨k, hk, p, scan⟩ := h.scan empty
    simp only [machine, RingBuffer.bytesAvailable_scan empty hk scan]
    exact ⟨h.write, RingBuffer.chunkAt_lt h.read (Nat.le_of_lt hk), h.counted, h.one_place,
      h.allocated⟩

theorem writeData (h : s.Sound) {data : List UInt8} (some : data ≠ [])
    (bounded : (s.ring.writeData data).bytesHeld < 2 ^ 31) :
    (⟨⟨s.ring.writeData data, s.client.hands⟩, s.ring.deletes data.length ++ s.deleted⟩ :
      Custody).Sound := by
  have needed := h.need data.length
    (p := { (s.ring.needPacket data.length).1 with data := data }) rfl
  have written : s.ring.writeData data = (s.ring.needPacket data.length).2.writePacket
      { (s.ring.needPacket data.length).1 with data := data } := by
    simp [RingBuffer.writeData, List.length_pos_iff.mpr some]
  rw [written] at bounded ⊢
  exact needed.put rfl bounded

theorem writePacket (h : s.Sound) {i : Nat} {p : RingBufferPacket}
    (held : s.client.hands[i]? = some p) {data : List UInt8}
    (bounded : (s.ring.writePacket { p with data := data }).bytesHeld < 2 ^ 31) :
    (⟨⟨s.ring.writePacket { p with data := data }, s.client.hands.eraseIdx i⟩, s.deleted⟩ :
      Custody).Sound := by
  obtain ⟨hi, rfl⟩ := List.getElem?_eq_some_iff.mp held
  have front := h.perm (List.getElem_cons_eraseIdx_perm hi).symm
  exact front.put rfl bounded

theorem freePacket (h : s.Sound) {i : Nat} {p : RingBufferPacket}
    (held : s.client.hands[i]? = some p) :
    (⟨⟨s.ring.freePacket p, s.client.hands.eraseIdx i⟩, s.deleted⟩ : Custody).Sound := by
  obtain ⟨hi, rfl⟩ := List.getElem?_eq_some_iff.mp held
  exact (h.perm (List.getElem_cons_eraseIdx_perm hi).symm).free

theorem call (h : s.Sound) (call : RingCall) (bounded : s.Bounded (.call call)) :
    (machine.step s (.call call)).2.Sound := by
  unfold Bounded at bounded
  cases call with
  | write data =>
    by_cases empty : data = []
    · simpa [machine, RingClient.machine, deletedBy, empty] using h
    · simp only [machine, RingClient.machine, deletedBy, if_neg empty] at bounded ⊢
      exact h.writeData empty bounded
  | newPacket len => exact h.need len rfl
  | writePacket i data =>
    cases held : s.client.hands[i]? with
    | none => simpa [machine, RingClient.machine, deletedBy, held] using h
    | some p =>
      by_cases fits : data ≠ [] ∧ data.length ≤ p.capacity
      · simp only [machine, RingClient.machine, deletedBy, held, if_pos fits] at bounded ⊢
        exact h.writePacket held bounded
      · simpa only [machine, RingClient.machine, deletedBy, held, if_neg fits,
          List.nil_append] using h
  | read => exact h.take
  | freePacket i =>
    cases held : s.client.hands[i]? with
    | none => simpa [machine, RingClient.machine, deletedBy, held] using h
    | some p =>
      simp only [machine, RingClient.machine, deletedBy, held]
      exact h.freePacket held
  | clear => exact h.clear

theorem step (h : s.Sound) (use : RingUse) (bounded : s.Bounded use) :
    (machine.step s use).2.Sound := by
  cases use with
  | call call => exact h.call call bounded
  | bytesAvailable => exact h.stand
  | bytesUnread => exact h
  | full => exact h

theorem kept (h : s.Sound) : s.Kept where
  counted := h.counted
  one_place := h.one_place
  large_enough := s.ring.newPacket_capacity
  found some := by
    obtain ⟨k, hk, p, scan⟩ := h.scan some
    refine ⟨k, hk, p, scan, ?_, ?_⟩
    · rw [RingBuffer.readPacket_scan some hk scan]
    · rw [RingBuffer.bytesAvailable_scan some hk scan]

end Sound

/-- However the ring is used, with reads in any order, as long as it holds fewer bytes than an
`int` can count. -/
theorem ring_kept {capacity : Nat} (positive : 0 < capacity) {history : List RingUse}
    (bounded : machine.Guarded Bounded (init capacity) history) :
    ∀ front, front <+: history → (machine.final (init capacity) front).Kept := by
  have always := machine.guarded_invariant (I := Sound)
    (fun s use h met => h.step use met) (Sound.init positive) bounded
  exact fun front is_front => (always front is_front).kept

/-- A chunk overwritten, a read out of order, a packet too small for reuse deleted. -/
theorem ring_kept_overwritten :
    (machine.final (init 2) ([.call (.write [1]), .call (.newPacket 2),
      .call (.writePacket 0 [2, 3]), .call (.write [4, 5]), .call .read, .bytesAvailable,
      .call (.freePacket 0), .call (.write [6, 7, 8]), .full] : List RingUse)).Kept :=
  ring_kept (by decide) (by decide) _ List.prefix_rfl

end Custody

end CppMyth
