import CppMyth.Library.Fifo
import Mathlib.Data.UInt

/-! The packet ring of `ringbuffer.cpp`, with the pool of packets it recycles, and a client
that gives back only packets it holds. -/
namespace CppMyth
open Library

/-- `addr` is the identity of the allocation, never given twice. `data` is the first `size`
bytes of the buffer. -/
structure RingBufferPacket where
  addr : Nat
  id : UInt32
  data : List UInt8
  capacity : Nat
  deriving DecidableEq, Repr

def RingBufferPacket.size (p : RingBufferPacket) : Nat := p.data.length

/-- The chunks are numbered along the chain; after the last comes the first. -/
structure RingBuffer where
  capacity : Nat
  count : UInt32
  unread : UInt32
  buffer : Nat → Option RingBufferPacket
  read : Nat
  write : Nat
  pool : List RingBufferPacket
  allocated : Nat

namespace RingBuffer

def init (capacity : Nat) : RingBuffer := ⟨capacity, 0, 0, fun _ => none, 0, 0, [], 0⟩

def chunkAt (capacity i k : Nat) : Nat := if i + k < capacity then i + k else i + k - capacity

def next (r : RingBuffer) (i : Nat) : Nat := chunkAt r.capacity i 1

def freePacket (r : RingBuffer) (p : RingBufferPacket) : RingBuffer :=
  { r with pool := r.pool ++ [p] }

def allocate (r : RingBuffer) (size : Nat) : RingBufferPacket × RingBuffer :=
  (⟨r.allocated, 0, [], size⟩, { r with allocated := r.allocated + 1 })

/-- The first packet of the pool when it is large enough, else a new one in its place. -/
def needPacket (r : RingBuffer) (size : Nat) : RingBufferPacket × RingBuffer :=
  match r.pool with
  | p :: rest =>
    let r := { r with pool := rest }
    if p.capacity ≥ size then ({ p with id := 0 }, r) else r.allocate size
  | [] => r.allocate size

def newPacket (r : RingBuffer) (len : Nat) : RingBufferPacket × RingBuffer :=
  let need := r.needPacket len
  ({ need.1 with data := [] }, need.2)

/-- The part of `write` and `writePacket` under the lock. -/
def writePacket (r : RingBuffer) (packet : RingBufferPacket) : RingBuffer :=
  -- overwriting a packet implies to update unread because the data will be destroyed
  let r := match r.buffer r.write with
    | some old => { r with unread := r.unread - UInt32.ofNat old.size }.freePacket old
    | none => r
  { r with
    buffer := Function.update r.buffer r.write (some { packet with id := r.count + 1 })
    count := r.count + 1
    write := r.next r.write
    unread := r.unread + UInt32.ofNat packet.size }

def writeData (r : RingBuffer) (data : List UInt8) : RingBuffer :=
  if data.length > 0 then
    let need := r.needPacket data.length
    need.2.writePacket { need.1 with data := data }
  else r

/-- Move to the next available: the loop ends within one turn of a ring that has a packet. -/
def available (r : RingBuffer) : Nat → Nat → Nat
  | 0, i => i
  | fuel + 1, i => if r.buffer i = none then available r fuel (r.next i) else i

def readPacket (r : RingBuffer) : Option RingBufferPacket × RingBuffer :=
  if r.unread = 0 then (none, r)
  else
    let i := r.available r.capacity r.read
    match r.buffer i with
    | none => (none, { r with read := i })
    | some p =>
      (some p, { r with
        buffer := Function.update r.buffer i none
        read := r.next i
        unread := r.unread - UInt32.ofNat p.size })

def bytesAvailable (r : RingBuffer) : Nat × RingBuffer :=
  if r.unread = 0 then (0, r)
  else
    let i := r.available r.capacity r.read
    (((r.buffer i).map RingBufferPacket.size).getD 0, { r with read := i })

def bytesUnread (r : RingBuffer) : UInt32 := r.unread

def full (r : RingBuffer) : Bool := r.unread ≠ 0 && r.read = r.write

def packets (r : RingBuffer) : List RingBufferPacket := (List.range r.capacity).filterMap r.buffer

def clear (r : RingBuffer) : RingBuffer :=
  { r with
    pool := r.pool ++ r.packets
    buffer := fun _ => none
    count := 0, unread := 0
    read := r.write }

end RingBuffer

/-- A ring in use: `hands` are the packets its clients hold. -/
structure RingClient where
  ring : RingBuffer
  hands : List RingBufferPacket

/-- A client writes or frees the `i`-th packet it holds; `data` is what it copied into it. -/
inductive RingCall where
  | write (data : List UInt8)
  | newPacket (len : Nat)
  | writePacket (i : Nat) (data : List UInt8)
  | read
  | freePacket (i : Nat)
  | clear
  deriving DecidableEq, Repr

namespace RingClient

def init (capacity : Nat) : RingClient := ⟨.init capacity, []⟩

/-- The packet put into the ring by a write, and the one it discarded. -/
def wrote (r r' : RingBuffer) : FifoEvent RingBufferPacket :=
  match r'.buffer r.write with
  | some p => .wrote p (r.buffer r.write)
  | none => .silent

def machine : Machine RingClient RingCall (FifoEvent RingBufferPacket) where
  step s
    | .write data =>
      if data = [] then (.silent, s)
      else
        let r := s.ring.writeData data
        (wrote s.ring r, { s with ring := r })
    | .newPacket len =>
      let need := s.ring.newPacket len
      (.silent, ⟨need.2, need.1 :: s.hands⟩)
    | .writePacket i data =>
      match s.hands[i]? with
      | none => (.silent, s)
      | some p =>
        if data ≠ [] ∧ data.length ≤ p.capacity then
          let r := s.ring.writePacket { p with data := data }
          (wrote s.ring r, ⟨r, s.hands.eraseIdx i⟩)
        else (.silent, s)
    | .read =>
      let r := s.ring.readPacket
      (.got r.1, ⟨r.2, r.1.toList ++ s.hands⟩)
    | .freePacket i =>
      match s.hands[i]? with
      | none => (.silent, s)
      | some p => (.silent, ⟨s.ring.freePacket p, s.hands.eraseIdx i⟩)
    | .clear => (.cleared, { s with ring := s.ring.clear })

end RingClient

end CppMyth
