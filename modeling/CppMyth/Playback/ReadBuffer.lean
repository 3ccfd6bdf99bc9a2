import CppMyth.RingBuffer.Fifo

/-! The buffered reads of `mythrecordingplayback.cpp` and `mythlivetvplayback.cpp`: a packet
that is consumed piece by piece, packets queued in the ring, and fresh fetches. -/
namespace CppMyth
open Library

/-- `BUFFER_CAPACITY` -/
def bufferCapacity : Nat := 2

/-- The bounds a playback keeps its chunk size in. -/
structure ChunkRange where
  size : Nat
  min : Nat
  max : Nat

/-- `m_buffer` and `m_chunk`, with the transfer as far as a read sees it. `answers` are the
bytes that the calls of `_read` give, one after another; `fetched` records them. -/
structure ReadBuffer where
  rbuf : RingBuffer
  packet : Option RingBufferPacket
  consumed : Nat
  chunk : Nat
  position : Int
  answers : Nat → List UInt8
  fetched : List UInt8

/-- The requested lengths that an `int` can hold. -/
structure ReadLength where
  n : Nat
  positive : 0 < n
  fits : n ≤ 2 ^ 31 - 1

namespace ReadBuffer

def opened (chunk : Nat) (position : Int) (answers : Nat → List UInt8) : ReadBuffer :=
  ⟨.init bufferCapacity, none, 0, chunk, position, answers, []⟩

def setChunk (range : ChunkRange) (b : ReadBuffer) (size : Nat) : ReadBuffer :=
  { b with chunk :=
      if size < range.min then range.min else if size > range.max then range.max else size }

/-- `_read` of at most `n` bytes from the transfer, with a result that is not negative. -/
def fetch (b : ReadBuffer) (n : Nat) : List UInt8 × ReadBuffer :=
  let got := (b.answers 0).take n
  (got, { b with
    position := b.position + got.length
    answers := fun i => b.answers (i + 1)
    fetched := b.fetched ++ got })

def load (b : ReadBuffer) : ReadBuffer :=
  match b.packet with
  | some _ => b
  | none =>
    let r := b.rbuf.readPacket
    { b with packet := r.1, rbuf := r.2, consumed := 0 }

def deliver (b : ReadBuffer) (p : RingBufferPacket) (n : Nat) : List UInt8 × ReadBuffer :=
  let s := p.size - b.consumed
  let r := if n < s then n else s
  let consumed := b.consumed + r
  ((p.data.drop b.consumed).take r,
    if consumed ≥ p.size then
      { b with consumed := consumed, rbuf := b.rbuf.freePacket p, packet := none }
    else { b with consumed := consumed })

/-- The loop of Read; `none` when `fuel` turns do not finish it. -/
def readLoop : Nat → ReadBuffer → Nat → Option (List UInt8) × ReadBuffer
  | 0, b, _ => (none, b)
  | fuel + 1, b, n =>
    let b := b.load
    match b.packet with
    | some p =>
      let d := b.deliver p n
      (some d.1, d.2)
    | none =>
      -- no packet available, so read to fill the buffer
      let need := b.rbuf.newPacket b.chunk
      let f := { b with rbuf := need.2 }.fetch b.chunk
      if f.1.length > 0 then
        let r := f.2.rbuf.writePacket { need.1 with data := f.1 }
        readLoop fuel { f.2 with rbuf := r } n
      else (some [], { f.2 with rbuf := f.2.rbuf.freePacket need.1 })

/-- A turn that fetches is followed by one that delivers. -/
def read (b : ReadBuffer) (n : ReadLength) : Option (List UInt8) × ReadBuffer :=
  b.readLoop 2 n.n

/-- What is left of the packet that is being consumed. -/
def remaining (b : ReadBuffer) : List UInt8 :=
  match b.packet with
  | some p => p.data.drop b.consumed
  | none => []

/-- `unread` of GetPosition, an unsigned number. -/
def unread (b : ReadBuffer) : UInt32 :=
  b.rbuf.bytesUnread +
    match b.packet with
    | some p => UInt32.ofNat (p.size - b.consumed)
    | none => 0

def getPosition (b : ReadBuffer) : Int := b.position - b.unread.toNat

end ReadBuffer

inductive ReadCall where
  | read (n : ReadLength)
  | setChunk (size : Nat)

namespace ReadBuffer

def calls (range : ChunkRange) : Machine ReadBuffer ReadCall (Option (List UInt8)) where
  step b
    | .read n => b.read n
    | .setChunk size => (some [], b.setChunk range size)

def queued (b : ReadBuffer) : List UInt8 := (b.rbuf.packets.map RingBufferPacket.data).flatten

/-- What holds between two reads, when `out` has been handed out since the position `start`:
the ring is empty and the packet at hand has bytes left. -/
structure Consistent (max : Nat) (start : Int) (b : ReadBuffer) (out : List UInt8) : Prop where
  ring : b.rbuf.Unread []
  room : 1 < b.rbuf.capacity
  chunk : b.chunk ≤ max
  packet : ∀ p, b.packet = some p → p.size ≤ max ∧ b.consumed < p.size
  log : b.fetched = out ++ b.remaining
  position : b.position = start + b.fetched.length

variable {max : Nat} {start : Int} {b : ReadBuffer} {out : List UInt8}

theorem Consistent.opened (chunk : Nat) (start : Int) (answers : Nat → List UInt8)
    (fits : chunk ≤ max) : Consistent max start (opened chunk start answers) [] where
  ring := (RingClient.Holds.init (show 0 < bufferCapacity by decide)).unread
  room := show 1 < bufferCapacity by decide
  chunk := fits
  packet p hp := absurd hp (by simp [ReadBuffer.opened])
  log := rfl
  position := by simp [ReadBuffer.opened]

theorem Consistent.setChunk {range : ChunkRange} (h : Consistent range.max start b out)
    (ordered : range.min ≤ range.max) (size : Nat) :
    Consistent range.max start (b.setChunk range size) out := by
  refine ⟨h.ring, h.room, ?_, h.packet, h.log, h.position⟩
  simp only [ReadBuffer.setChunk]
  split_ifs <;> omega

theorem Consistent.deliver (h : Consistent max start b out) {p : RingBufferPacket}
    (held : b.packet = some p) (n : Nat) :
    Consistent max start (b.deliver p n).2 (out ++ (b.deliver p n).1) := by
  obtain ⟨small, left⟩ := h.packet p held
  have whole : b.fetched = out ++ p.data.drop b.consumed := by
    simpa [remaining, held] using h.log
  simp only [ReadBuffer.deliver]
  generalize hr : (if n < p.size - b.consumed then n else p.size - b.consumed) = r
  by_cases done : b.consumed + r ≥ p.size
  · simp only [if_pos done]
    refine ⟨h.ring.freePacket p, h.room, h.chunk, fun q hq => absurd hq (by simp), ?_, h.position⟩
    have all : (p.data.drop b.consumed).take r = p.data.drop b.consumed := by
      apply List.take_of_length_le
      rw [List.length_drop]
      unfold RingBufferPacket.size at done
      omega
    simpa [remaining, all] using whole
  · simp only [if_neg done]
    refine ⟨h.ring, h.room, h.chunk, fun q hq => ?_, ?_, h.position⟩
    · obtain rfl : p = q := Option.some.inj (held.symm.trans hq)
      exact ⟨small, by simp only; omega⟩
    · simp only [remaining, held]
      rw [whole, List.append_assoc, ← List.drop_drop, List.take_append_drop]

theorem readLoop_held {p : RingBufferPacket} (held : b.packet = some p) (fuel n : Nat) :
    b.readLoop (fuel + 1) n = (some (b.deliver p n).1, (b.deliver p n).2) := by
  simp [readLoop, load, held]

theorem readLoop_load (none : b.packet = none) {p : RingBufferPacket} {r : RingBuffer}
    (read : b.rbuf.readPacket = (some p, r)) (fuel n : Nat) :
    b.readLoop (fuel + 1) n =
      ({ b with packet := some p, rbuf := r, consumed := 0 } : ReadBuffer).readLoop
        (fuel + 1) n := by
  simp [readLoop, load, none, read]

theorem readPacket_written {r : RingBuffer} (h : r.Unread []) (room : 1 < r.capacity)
    (p : RingBufferPacket) (some_ : 0 < p.size) (small : p.size < 2 ^ 32) :
    ∃ r', (r.writePacket p).readPacket = (some { p with id := r.count + 1 }, r') ∧
      r'.Unread [] ∧ r'.capacity = r.capacity := by
  have written := h.writePacket p
  have capacity := (RingBuffer.Unread.writePacket_ring r p).1
  rw [if_pos (show ([] : List RingBufferPacket).length < r.capacity from h.write.pos),
    List.nil_append] at written
  have counted : (r.writePacket p).unread ≠ 0 := by
    rw [written.unread]
    intro zero
    have value := congrArg UInt32.toNat zero
    simp only [List.map_cons, List.map_nil, List.sum_cons, List.sum_nil, add_zero,
      UInt32.toNat_ofNat', UInt32.toNat_zero] at value
    unfold RingBufferPacket.size at value some_ small
    simp only at value
    omega
  obtain ⟨got, next⟩ := written.readPacket counted (written.reader (capacity ▸ room))
  exact ⟨_, Prod.ext got rfl, next, (RingBuffer.readPacket_frame _).1.trans capacity⟩

/-- A read ends: with bytes of the packet at hand, with those of a fresh fetch, or with none
when nothing was fetched. -/
theorem Consistent.read (h : Consistent max start b out) (small : max < 2 ^ 32)
    (n : ReadLength) :
    ∃ got, (b.read n).1 = some got ∧ Consistent max start (b.read n).2 (out ++ got) := by
  unfold ReadBuffer.read
  cases held : b.packet with
  | some p =>
    rw [readLoop_held held]
    exact ⟨_, rfl, h.deliver held n.n⟩
  | none =>
    have idle := h.ring.readPacket_empty
    obtain ⟨needed, room⟩ : (b.rbuf.newPacket b.chunk).2.Unread [] ∧
        1 < (b.rbuf.newPacket b.chunk).2.capacity := by
      obtain ⟨pool, allocated, ring, -⟩ := b.rbuf.needPacket_spec b.chunk
      simp only [RingBuffer.newPacket, ring]
      exact ⟨h.ring.pool pool allocated, h.room⟩
    have log : b.fetched = out := by simpa [remaining, held] using h.log
    have position := h.position
    rw [log] at position
    rw [readLoop]
    simp only [load, held, idle, fetch]
    generalize b.rbuf.newPacket b.chunk = need at needed room ⊢
    generalize hg : (b.answers 0).take b.chunk = got
    have fits : got.length ≤ max := by
      rw [← hg, List.length_take]
      exact Nat.le_trans (Nat.min_le_left _ _) h.chunk
    by_cases fetched : got.length > 0
    · obtain ⟨r', read, unread, capacity⟩ := readPacket_written needed room
        { need.1 with data := got } fetched (Nat.lt_of_le_of_lt fits small)
      rw [if_pos fetched, readLoop_load rfl read, readLoop_held rfl]
      refine ⟨_, rfl, Consistent.deliver ?_ rfl n.n⟩
      refine ⟨unread, by simp only; omega, h.chunk, ?_, ?_, ?_⟩
      · rintro p hp
        obtain rfl := Option.some.inj hp
        exact ⟨fits, fetched⟩
      · simp [remaining, log]
      · simp only [position, log, List.length_append]
        omega
    · have none : got = [] := List.eq_nil_of_length_eq_zero (by omega)
      rw [if_neg fetched]
      refine ⟨[], rfl, needed.freePacket need.1, room, h.chunk, fun p hp => absurd hp (by simp),
        ?_, ?_⟩
      · simp [remaining, log, none]
      · simp [position, log, none]

theorem Consistent.queued (h : Consistent max start b out) : b.queued = [] := by
  have none : b.rbuf.packets = [] := by
    apply List.filterMap_eq_nil_iff.mpr
    intro i hi
    exact h.ring.drained i (List.mem_range.mp hi)
  simp [ReadBuffer.queued, none]

theorem Consistent.getPosition (h : Consistent max start b out) (small : max < 2 ^ 32) :
    b.getPosition = start + out.length := by
  have bytes := h.log
  have none : b.rbuf.unread = 0 := h.ring.unread
  have unread : b.unread.toNat = b.remaining.length := by
    unfold ReadBuffer.unread remaining RingBuffer.bytesUnread
    cases held : b.packet with
    | none => simp [none]
    | some p =>
      obtain ⟨size, -⟩ := h.packet p held
      have fits : (p.size - b.consumed) % 2 ^ 32 = p.size - b.consumed :=
        Nat.mod_eq_of_lt (by omega)
      simp only [none, zero_add, UInt32.toNat_ofNat', fits, List.length_drop]
      rfl
  rw [ReadBuffer.getPosition, unread, h.position, bytes, List.length_append]
  omega

theorem calls_consistent {range : ChunkRange} (small : range.max < 2 ^ 32)
    (ordered : range.min ≤ range.max) (h : Consistent range.max start b out)
    (history : List ReadCall) :
    ∃ parts : List (List UInt8), (calls range).observations b history = parts.map some ∧
      Consistent range.max start ((calls range).final b history) (out ++ parts.flatten) := by
  induction history generalizing b out with
  | nil => exact ⟨[], rfl, by simpa [Machine.final] using h⟩
  | cons call rest ih =>
    obtain ⟨got, returned, next⟩ : ∃ got, ((calls range).step b call).1 = some got ∧
        Consistent range.max start ((calls range).step b call).2 (out ++ got) := by
      cases call with
      | read n => exact h.read small n
      | setChunk size => exact ⟨[], rfl, by simpa [calls] using h.setChunk ordered size⟩
    obtain ⟨parts, observed, final⟩ := ih next
    refine ⟨got :: parts, ?_, ?_⟩
    · simp only [Machine.observations, returned, observed, List.map_cons]
    · simpa [Machine.final] using final

theorem opened_calls {range : ChunkRange} (small : range.max < 2 ^ 32)
    (ordered : range.min ≤ range.max) (fits : range.size ≤ range.max) (start : Int)
    (answers : Nat → List UInt8) (history : List ReadCall) :
    ∃ parts : List (List UInt8),
      (calls range).observations (opened range.size start answers) history = parts.map some ∧
      let b := (calls range).final (opened range.size start answers) history
      b.fetched = parts.flatten ++ (b.remaining ++ b.queued) ∧
        b.getPosition = start + parts.flatten.length := by
  obtain ⟨parts, observed, final⟩ := calls_consistent small ordered
    (.opened range.size start answers fits) history
  refine ⟨parts, observed, ?_, final.getPosition small⟩
  simp only [final.queued, List.append_nil]
  exact final.log

end ReadBuffer

namespace RecordingPlayback

def chunks : ChunkRange := ⟨262000, 8000, 524000⟩
def opened : Int → (Nat → List UInt8) → ReadBuffer := ReadBuffer.opened chunks.size
def read : ReadBuffer → ReadLength → Option (List UInt8) × ReadBuffer := ReadBuffer.read
def setChunk : ReadBuffer → Nat → ReadBuffer := ReadBuffer.setChunk chunks
def getPosition : ReadBuffer → Int := ReadBuffer.getPosition
def calls : Machine ReadBuffer ReadCall (Option (List UInt8)) := ReadBuffer.calls chunks

end RecordingPlayback

namespace LiveTVPlayback

def chunks : ChunkRange := ⟨262000, 8000, 524000⟩
def opened : Int → (Nat → List UInt8) → ReadBuffer := ReadBuffer.opened chunks.size
def read : ReadBuffer → ReadLength → Option (List UInt8) × ReadBuffer := ReadBuffer.read
def setChunk : ReadBuffer → Nat → ReadBuffer := ReadBuffer.setChunk chunks
def calls : Machine ReadBuffer ReadCall (Option (List UInt8)) := ReadBuffer.calls chunks

end LiveTVPlayback

/-- Over any reads of both playbacks, what was fetched is what was handed out, in order,
followed by the rest of the packet at hand and the packets of the ring; and the position of a
recording is that of the first byte not yet handed out. -/
theorem playback_reads_in_order (start : Int) (answers : Nat → List UInt8)
    (history : List ReadCall) :
    (∃ parts : List (List UInt8), RecordingPlayback.calls.observations
        (RecordingPlayback.opened start answers) history = parts.map some ∧
      let b := RecordingPlayback.calls.final (RecordingPlayback.opened start answers) history
      b.fetched = parts.flatten ++ (b.remaining ++ b.queued) ∧
        RecordingPlayback.getPosition b = start + parts.flatten.length) ∧
    (∃ parts : List (List UInt8), LiveTVPlayback.calls.observations
        (LiveTVPlayback.opened start answers) history = parts.map some ∧
      let b := LiveTVPlayback.calls.final (LiveTVPlayback.opened start answers) history
      b.fetched = parts.flatten ++ (b.remaining ++ b.queued)) := by
  obtain ⟨parts, observed, log, -⟩ := @ReadBuffer.opened_calls LiveTVPlayback.chunks (by decide)
    (by decide) (by decide) start answers history
  exact ⟨@ReadBuffer.opened_calls RecordingPlayback.chunks (by decide) (by decide) (by decide) start
    answers history, parts, observed, log⟩

end CppMyth
