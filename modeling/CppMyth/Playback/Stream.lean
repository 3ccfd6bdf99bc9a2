import CppMyth.Playback.ReadBuffer
import CppMyth.Proto.Playback

/-! The buffered stream of both playbacks, over what lies behind it: Read, Seek and the
position count the bytes that were fetched ahead. A list of bytes is what the buffer stands
for. -/
namespace CppMyth
open Library

/-- What a read comes to: it is not back yet, it returns -1, or the bytes. -/
inductive ReadResult where
  | waiting | failed
  | bytes (data : List UInt8)
  deriving DecidableEq, Repr

def ReadLength.one : ReadLength := ⟨1, by decide, by decide⟩

/-- What a call of TransferRequestBlock meets: the bytes that arrive, whether all goes well, and
the request counter it leaves. -/
structure BlockAnswer where
  received : List UInt8
  ok : Bool
  fileRequest : Int

/-- TransferRequestBlock, as far as its caller sees it. What arrives depends on where the
transfer is. -/
def ProtoTransfer.requestBlock (t : ProtoTransfer) (n : Nat)
    (answer : ProtoTransfer → BlockAnswer) : ReadResult × ProtoTransfer :=
  if n = 0 then (.bytes [], t)
  else if ¬ t.isOpen then (.failed, t)
  else
    let a := answer t
    let got := a.received.take (min n transferRcvBuf)
    (if a.ok then .bytes got else .failed,
      { t with filePosition := t.filePosition + got.length, fileRequest := a.fileRequest })

theorem ProtoTransfer.requestBlock_bounded (t : ProtoTransfer) (n : Nat)
    (answer : ProtoTransfer → BlockAnswer) {data : List UInt8}
    (got : (t.requestBlock n answer).1 = .bytes data) : data.length ≤ n := by
  unfold ProtoTransfer.requestBlock at got
  split_ifs at got with none closed
  · obtain rfl := ReadResult.bytes.inj got
    exact Nat.zero_le n
  · simp only at got
    split_ifs at got
    obtain rfl := ReadResult.bytes.inj got
    rw [List.length_take]
    omega

/-- A block of one byte, which tells the transfer `t` from others. -/
def ProtoTransfer.telling (t u : ProtoTransfer) : BlockAnswer := ⟨[if u = t then 1 else 0], true, 0⟩

theorem ProtoTransfer.requestBlock_telling {t u : ProtoTransfer} (isOpen : u.isOpen = true)
    {n : Nat} (some_ : 0 < n) :
    (u.requestBlock n (telling t)).1 = .bytes [if u = t then 1 else 0] := by
  have least : min n transferRcvBuf = min n transferRcvBuf - 1 + 1 := by
    have : 0 < transferRcvBuf := by decide
    omega
  rw [ProtoTransfer.requestBlock, if_neg (by omega), if_neg (by simp [isOpen])]
  simp only [telling, if_true]
  rw [least, List.take_succ_cons, List.take_nil]

/-- `_read` of a playback in the state `S`: it never gives more than it is asked for. -/
structure Source (S : Type) where
  fetch : S → Nat → ReadResult × S
  bounded : ∀ s n data, (fetch s n).1 = .bytes data → data.length ≤ n

/-- `m_buffer` and `m_chunk` -/
structure StreamBuffer where
  rbuf : RingBuffer
  packet : Option RingBufferPacket
  consumed : Nat
  chunk : Nat

namespace StreamBuffer

variable {S : Type}

def opened (chunk : Nat) : StreamBuffer := ⟨.init bufferCapacity, none, 0, chunk⟩

def setChunk (range : ChunkRange) (b : StreamBuffer) (size : Nat) : StreamBuffer :=
  { b with chunk :=
      if size < range.min then range.min else if size > range.max then range.max else size }

/-- Unread bytes: remaining bytes in the ring buffer + remaining bytes in the available packet -/
def unread (b : StreamBuffer) : UInt32 :=
  b.rbuf.bytesUnread +
    match b.packet with
    | some p => UInt32.ofNat (p.size - b.consumed)
    | none => 0

/-- clear all buffered data -/
def clear (b : StreamBuffer) : StreamBuffer :=
  match b.packet with
  | some p => { b with rbuf := (b.rbuf.freePacket p).clear, packet := none }
  | none => { b with rbuf := b.rbuf.clear }

def load (b : StreamBuffer) : StreamBuffer :=
  match b.packet with
  | some _ => b
  | none =>
    let r := b.rbuf.readPacket
    { b with packet := r.1, rbuf := r.2, consumed := 0 }

def deliver (b : StreamBuffer) (p : RingBufferPacket) (n : Nat) : List UInt8 × StreamBuffer :=
  let s := p.size - b.consumed
  let r := if n < s then n else s
  let consumed := b.consumed + r
  ((p.data.drop b.consumed).take r,
    if consumed ≥ p.size then
      { b with consumed := consumed, rbuf := b.rbuf.freePacket p, packet := none }
    else { b with consumed := consumed })

/-- The loop of Read, as far as `fuel` turns take it. -/
def readLoop (source : Source S) :
    Nat → StreamBuffer → S → Nat → ReadResult × StreamBuffer × S
  | 0, b, s, _ => (.waiting, b, s)
  | fuel + 1, b, s, n =>
    let b := b.load
    match b.packet with
    | some p =>
      let d := b.deliver p n
      (.bytes d.1, d.2, s)
    | none =>
      -- no packet available, so read to fill the buffer
      let need := b.rbuf.newPacket b.chunk
      let f := source.fetch s b.chunk
      match f.1 with
      | .waiting => (.waiting, { b with rbuf := need.2 }, f.2)
      | .failed => (.failed, { b with rbuf := need.2.freePacket need.1 }, f.2)
      | .bytes data =>
        if data.length > 0 then
          readLoop source fuel
            { b with rbuf := need.2.writePacket { need.1 with data := data } } f.2 n
        else (.bytes [], { b with rbuf := need.2.freePacket need.1 }, f.2)

/-- A turn that fetches is followed by one that delivers. -/
def read (source : Source S) (b : StreamBuffer) (s : S) (n : ReadLength) :
    ReadResult × StreamBuffer × S :=
  b.readLoop source 2 s n.n

/-- Seek, over the `_seek` of the playback; `move` is given the unread bytes at its call. -/
def seek (move : Nat → S → Int → Whence → Int × S) (b : StreamBuffer) (s : S) (offset : Int)
    (whence : Whence) : Int × StreamBuffer × S :=
  let unread := b.unread.toNat
  if whence = .CUR ∧ offset = 0 then
    let r := move unread s offset whence
    -- it must returns the current position of the first byte in buffer
    (if r.1 ≥ unread then r.1 - unread else r.1, b, r.2)
  else
    -- rebase to the first position in the buffer
    let offset := if whence = .CUR then offset - unread else offset
    let r := move b.clear.unread.toNat s offset whence
    (r.1, b.clear, r.2)

/-- What is left of the packet that is being consumed. -/
def remaining (b : StreamBuffer) : List UInt8 :=
  match b.packet with
  | some p => p.data.drop b.consumed
  | none => []

end StreamBuffer

/-- What the buffer stands for: the bytes fetched and not handed out, in order. -/
structure ReadAhead where
  bytes : List UInt8
  chunk : Nat

/-- Read over the bytes ahead: from them while there are any, else from a fresh fetch. -/
def ReadAhead.read {S : Type} (source : Source S) (a : ReadAhead) (s : S) (n : Nat) :
    ReadResult × ReadAhead × S :=
  if a.bytes ≠ [] then (.bytes (a.bytes.take n), { a with bytes := a.bytes.drop n }, s)
  else
    let f := source.fetch s a.chunk
    match f.1 with
    | .bytes data => (.bytes (data.take n), { a with bytes := data.drop n }, f.2)
    | result => (result, a, f.2)

section

variable {S : Type} {source : Source S} {a : ReadAhead} {s : S}

theorem ReadAhead.read_held (ahead : a.bytes ≠ []) {n : Nat} :
    a.read source s n = (.bytes (a.bytes.take n), { a with bytes := a.bytes.drop n }, s) :=
  if_pos ahead

theorem ReadAhead.read_silent (empty : a.bytes = [])
    (silent : ∀ data, data ≠ [] → (source.fetch s a.chunk).1 ≠ .bytes data) (n : Nat)
    (data : List UInt8) (some_ : data ≠ []) : (a.read source s n).1 ≠ .bytes data := by
  simp only [ReadAhead.read, empty, ne_eq, not_true_eq_false, if_false]
  cases result : (source.fetch s a.chunk).1 with
  | waiting => simp
  | failed => simp
  | bytes got =>
    have nothing : got = [] := not_not.mp fun some_ => silent got some_ result
    subst nothing
    simpa using some_.symm

end

namespace StreamBuffer

/-- Between two calls the ring is empty, and the packet at hand has the bytes ahead. -/
structure Refines (max : Nat) (b : StreamBuffer) (a : ReadAhead) : Prop where
  ring : b.rbuf.Unread []
  room : 1 < b.rbuf.capacity
  chunk : b.chunk = a.chunk
  positive : 0 < a.chunk
  small : a.chunk ≤ max
  packet : ∀ p, b.packet = some p → p.size ≤ max ∧ b.consumed < p.size
  bytes : b.remaining = a.bytes

variable {S : Type} {max : Nat} {b : StreamBuffer} {a : ReadAhead}

theorem Refines.opened {chunk : Nat} (positive : 0 < chunk) (fits : chunk ≤ max) :
    Refines max (opened chunk) ⟨[], chunk⟩ where
  ring := (RingClient.Holds.init (show 0 < bufferCapacity by decide)).unread
  room := show 1 < bufferCapacity by decide
  chunk := rfl
  positive := positive
  small := fits
  packet p held := absurd held (by simp [StreamBuffer.opened])
  bytes := rfl

theorem Refines.setChunk {range : ChunkRange} (h : Refines range.max b a)
    (positive : 0 < range.min) (ordered : range.min ≤ range.max) (size : Nat) :
    Refines range.max (b.setChunk range size)
      { a with chunk := (b.setChunk range size).chunk } := by
  refine ⟨h.ring, h.room, rfl, ?_, ?_, h.packet, h.bytes⟩
  · simp only [StreamBuffer.setChunk]
    split_ifs <;> omega
  · simp only [StreamBuffer.setChunk]
    split_ifs <;> omega

theorem Refines.clear (h : Refines max b a) : Refines max b.clear { a with bytes := [] } := by
  unfold StreamBuffer.clear
  cases held : b.packet with
  | none =>
    exact ⟨h.ring.clear, h.room, h.chunk, h.positive, h.small, fun p hp => absurd hp (by simp), rfl⟩
  | some p =>
    exact ⟨(h.ring.freePacket p).clear, h.room, h.chunk, h.positive, h.small,
      fun q hq => absurd hq (by simp), rfl⟩

theorem Refines.unread (h : Refines max b a) (limit : max < 2 ^ 32) :
    b.unread.toNat = a.bytes.length := by
  have none : b.rbuf.unread = 0 := h.ring.unread
  rw [← h.bytes]
  unfold StreamBuffer.unread remaining RingBuffer.bytesUnread
  cases held : b.packet with
  | none => simp [none]
  | some p =>
    obtain ⟨size, -⟩ := h.packet p held
    have fits : (p.size - b.consumed) % 2 ^ 32 = p.size - b.consumed :=
      Nat.mod_eq_of_lt (by omega)
    simp only [none, zero_add, UInt32.toNat_ofNat', fits, List.length_drop]
    rfl

theorem Refines.deliver (h : Refines max b a) {p : RingBufferPacket} (held : b.packet = some p)
    (n : Nat) :
    (b.deliver p n).1 = a.bytes.take n ∧
      Refines max (b.deliver p n).2 { a with bytes := a.bytes.drop n } := by
  obtain ⟨small, left⟩ := h.packet p held
  have bytes : p.data.drop b.consumed = a.bytes := by simpa [remaining, held] using h.bytes
  have length : a.bytes.length = p.size - b.consumed := by
    rw [← bytes, List.length_drop]
    rfl
  have front : a.bytes.take (if n < p.size - b.consumed then n else p.size - b.consumed) =
      a.bytes.take n := by
    split
    · rfl
    · rw [List.take_of_length_le (by omega), List.take_of_length_le (by omega)]
  simp only [StreamBuffer.deliver, bytes, front, true_and]
  by_cases done : b.consumed + (if n < p.size - b.consumed then n else p.size - b.consumed) ≥ p.size
  · have all : a.bytes.drop n = [] := List.drop_eq_nil_of_le (by split_ifs at done <;> omega)
    rw [if_pos done]
    exact ⟨h.ring.freePacket p, h.room, h.chunk, h.positive, h.small,
      fun q hq => absurd hq (by simp), by simp [remaining, all]⟩
  · have part : n < p.size - b.consumed := by
      by_contra whole
      rw [if_neg whole] at done
      omega
    rw [if_neg done]
    refine ⟨h.ring, h.room, h.chunk, h.positive, h.small, fun q hq => ?_, ?_⟩
    · obtain rfl : p = q := Option.some.inj (held.symm.trans hq)
      exact ⟨small, by simp only [if_pos part]; omega⟩
    · simp only [remaining, held, if_pos part]
      rw [← List.drop_drop, bytes]

theorem readLoop_held {p : RingBufferPacket} (held : b.packet = some p) (source : Source S)
    (s : S) (fuel n : Nat) :
    b.readLoop source (fuel + 1) s n = (.bytes (b.deliver p n).1, (b.deliver p n).2, s) := by
  simp [readLoop, load, held]

theorem readLoop_load (none : b.packet = none) {p : RingBufferPacket} {r : RingBuffer}
    (read : b.rbuf.readPacket = (some p, r)) (source : Source S) (s : S) (fuel n : Nat) :
    b.readLoop source (fuel + 1) s n =
      ({ b with packet := some p, rbuf := r, consumed := 0 } : StreamBuffer).readLoop source
        (fuel + 1) s n := by
  simp [readLoop, load, none, read]

theorem Refines.fetch (h : Refines max b a) (limit : max < 2 ^ 32) (none : b.packet = none)
    (source : Source S) (s : S) (n : Nat) :
    ∃ a', ReadAhead.read source a s n =
        ((b.readLoop source 2 s n).1, a', (b.readLoop source 2 s n).2.2) ∧
      Refines max (b.readLoop source 2 s n).2.1 a' := by
  have empty : a.bytes = [] := by rw [← h.bytes, remaining, none]
  have idle := h.ring.readPacket_empty
  obtain ⟨needed, room⟩ : (b.rbuf.newPacket b.chunk).2.Unread [] ∧
      1 < (b.rbuf.newPacket b.chunk).2.capacity := by
    obtain ⟨pool, allocated, ring, -⟩ := b.rbuf.needPacket_spec b.chunk
    simp only [RingBuffer.newPacket, ring]
    exact ⟨h.ring.pool pool allocated, h.room⟩
  have bound := source.bounded s a.chunk
  have small := h.small
  rw [readLoop, ReadAhead.read]
  simp only [load, none, idle, empty, ne_eq, not_true_eq_false, if_false, h.chunk] at needed room ⊢
  generalize b.rbuf.newPacket a.chunk = need at needed room ⊢
  generalize source.fetch s a.chunk = f at bound ⊢
  obtain ⟨result, s'⟩ := f
  cases result with
  | waiting =>
    exact ⟨a, rfl, needed, room, rfl, h.positive, small,
      fun p held => absurd held (by simp), empty.symm⟩
  | failed =>
    exact ⟨a, rfl, needed.freePacket need.1, room, rfl, h.positive, small,
      fun p held => absurd held (by simp), empty.symm⟩
  | bytes data =>
    have fits : data.length ≤ max := Nat.le_trans (bound data rfl) small
    by_cases fetched : data.length > 0
    · obtain ⟨r, read, unread, capacity⟩ := ReadBuffer.readPacket_written needed room
        { need.1 with data := data } fetched (Nat.lt_of_le_of_lt fits limit)
      simp only [if_pos fetched]
      rw [readLoop_load rfl read, readLoop_held rfl]
      have loaded : Refines max ⟨r, some { need.1 with data := data, id := need.2.count + 1 }, 0,
          a.chunk⟩ ⟨data, a.chunk⟩ := by
        refine ⟨unread, by simp only; omega, rfl, h.positive, small, ?_, rfl⟩
        intro p held
        obtain rfl := Option.some.inj held
        exact ⟨fits, fetched⟩
      obtain ⟨got, rest⟩ := loaded.deliver rfl n
      exact ⟨{ a with bytes := data.drop n }, by rw [got], rest⟩
    · have nothing : data = [] := List.eq_nil_of_length_eq_zero (by omega)
      subst nothing
      simp only [if_neg fetched]
      exact ⟨⟨[], a.chunk⟩, by simp, needed.freePacket need.1, room, rfl, h.positive, small,
        fun p held => absurd held (by simp), rfl⟩

theorem Refines.read (h : Refines max b a) (limit : max < 2 ^ 32) (source : Source S) (s : S)
    (n : ReadLength) :
    ∃ a', ReadAhead.read source a s n.n =
        ((b.read source s n).1, a', (b.read source s n).2.2) ∧
      Refines max (b.read source s n).2.1 a' := by
  unfold StreamBuffer.read
  cases held : b.packet with
  | none => exact h.fetch limit held source s n.n
  | some p =>
    have some_ : a.bytes ≠ [] := by
      intro nothing
      have left := (h.packet p held).2
      have none := h.bytes.trans nothing
      simp only [remaining, held, List.drop_eq_nil_iff] at none
      exact absurd none (Nat.not_le.mpr left)
    obtain ⟨got, rest⟩ := h.deliver held n.n
    rw [readLoop_held held, got, ReadAhead.read, if_pos some_]
    exact ⟨_, rfl, rest⟩

end StreamBuffer

namespace ReadBuffer

/-- What a read sees of the transfer: its position, the answers to come and the bytes so far. -/
structure Rest where
  position : Int
  answers : Nat → List UInt8
  fetched : List UInt8

def rest (b : ReadBuffer) : Rest := ⟨b.position, b.answers, b.fetched⟩

def buffer (b : ReadBuffer) : StreamBuffer := ⟨b.rbuf, b.packet, b.consumed, b.chunk⟩

/-- The `_read` whose results are not negative, as a source. -/
def source : Source Rest where
  fetch s n :=
    let got := (s.answers 0).take n
    (.bytes got, ⟨s.position + got.length, fun i => s.answers (i + 1), s.fetched ++ got⟩)
  bounded s n data got := by
    obtain rfl := ReadResult.bytes.inj got
    exact List.length_take_le n _

/-- What a read of this buffer comes to, as the result of a stream. -/
def outcome (r : Option (List UInt8) × ReadBuffer) : ReadResult × StreamBuffer × Rest :=
  (match r.1 with | some data => .bytes data | none => .waiting, r.2.buffer, r.2.rest)

theorem load_buffer (b : ReadBuffer) : b.buffer.load = b.load.buffer ∧ b.load.rest = b.rest := by
  obtain ⟨rbuf, packet, consumed, chunk, position, answers, fetched⟩ := b
  cases packet with
  | none => exact ⟨rfl, rfl⟩
  | some p => exact ⟨rfl, rfl⟩

theorem deliver_buffer (b : ReadBuffer) (p : RingBufferPacket) (n : Nat) :
    b.buffer.deliver p n = ((b.deliver p n).1, (b.deliver p n).2.buffer) ∧
      (b.deliver p n).2.rest = b.rest := by
  dsimp only [deliver, StreamBuffer.deliver, buffer]
  generalize (if n < p.size - b.consumed then n else p.size - b.consumed) = r
  by_cases done : b.consumed + r ≥ p.size
  · rw [if_pos done, if_pos done]
    exact ⟨rfl, rfl⟩
  · rw [if_neg done, if_neg done]
    exact ⟨rfl, rfl⟩

/-- The loop of Read is the loop over a source that never fails. -/
theorem readLoop_outcome (b : ReadBuffer) (fuel n : Nat) :
    b.buffer.readLoop source fuel b.rest n = outcome (b.readLoop fuel n) := by
  induction fuel generalizing b with
  | zero => rfl
  | succ fuel ih =>
    obtain ⟨loaded, kept⟩ := b.load_buffer
    rw [StreamBuffer.readLoop, readLoop, loaded, ← kept]
    generalize b.load = c
    obtain ⟨rbuf, packet, consumed, chunk, position, answers, fetched⟩ := c
    cases packet with
    | some p =>
      obtain ⟨delivered, same⟩ :=
        deliver_buffer ⟨rbuf, some p, consumed, chunk, position, answers, fetched⟩ p n
      rw [← same]
      exact congrArg (fun d => (ReadResult.bytes d.1, d.2, _)) delivered
    | none =>
      simp only
      generalize got : fetch ⟨(rbuf.newPacket chunk).2, none, consumed, chunk, position, answers,
        fetched⟩ chunk = f
      have stream : source.fetch ⟨position, answers, fetched⟩ chunk = (.bytes f.1, f.2.rest) := by
        rw [← got]
        rfl
      simp only [rest, buffer, stream]
      by_cases some_ : f.1.length > 0
      · rw [if_pos some_, if_pos some_]
        have next := ih { f.2 with
          rbuf := f.2.rbuf.writePacket { (rbuf.newPacket chunk).1 with data := f.1 } }
        subst got
        exact next
      · rw [if_neg some_, if_neg some_]
        subst got
        rfl

/-- So Read of the buffer with its transfer is Read of the stream. -/
theorem read_outcome (b : ReadBuffer) (n : ReadLength) :
    b.buffer.read source b.rest n = outcome (b.read n) :=
  b.readLoop_outcome 2 n.n

end ReadBuffer

/-- The bounds of a chunk size make sense, and the bytes of a chunk can be counted. -/
structure ChunkRange.Valid (range : ChunkRange) : Prop where
  positive : 0 < range.min ∧ 0 < range.size
  ordered : range.min ≤ range.max
  fits : range.size ≤ range.max
  limit : range.max < 2 ^ 32

/-- What a playback puts behind the buffer: its own calls, `_read` and `_seek` with what they
meet on their way, and what it knows of its files. -/
structure Backing (S C E A : Type) where
  call : S → C → Option Bool × S
  source : E → Source S
  move : A → Nat → S → Int → Whence → Int × S
  getSize : S → Int
  position : S → Nat → Int

structure Stream (S : Type) where
  playback : S
  buffer : StreamBuffer

inductive StreamOp (C E A : Type) where
  | call (c : C)
  | setChunk (size : Nat)
  | read (n : ReadLength) (env : E)
  | seek (offset : Int) (whence : Whence) (answers : A)
  | getSize
  | getPosition

inductive StreamResult where
  | done (ok : Option Bool)
  | read (result : ReadResult)
  | sought (p : Int)
  | size (size : Int)
  | position (p : Int)
  deriving DecidableEq

namespace Backing

variable {S C E A : Type} (k : Backing S C E A)

def read (s : Stream S) (n : ReadLength) (env : E) : ReadResult × Stream S :=
  let r := s.buffer.read (k.source env) s.playback n
  (r.1, ⟨r.2.2, r.2.1⟩)

def seek (s : Stream S) (offset : Int) (whence : Whence) (answers : A) : Int × Stream S :=
  let r := s.buffer.seek (k.move answers) s.playback offset whence
  (r.1, ⟨r.2.2, r.2.1⟩)

/-- It is the position of the first byte in the buffer. -/
def getPosition (s : Stream S) : Int := k.position s.playback s.buffer.unread.toNat

def machine (range : ChunkRange) : Machine (Stream S) (StreamOp C E A) StreamResult where
  step s
    | .call c =>
      let r := k.call s.playback c
      (.done r.1, { s with playback := r.2 })
    | .setChunk size => (.done none, { s with buffer := s.buffer.setChunk range size })
    | .read n env =>
      let r := k.read s n env
      (.read r.1, r.2)
    | .seek offset whence answers =>
      let r := k.seek s offset whence answers
      (.sought r.1, r.2)
    | .getSize => (.size (k.getSize s.playback), s)
    | .getPosition => (.position (k.getPosition s), s)

/-- Two seeks go to one position: by `d` from where the stream is, and from its start. -/
def Lands (s : Stream S) (d : Int) (answers : A) : Prop :=
  let p := k.getPosition s + d
  let cur := k.seek s d .CUR answers
  let set := k.seek s p .SET answers
  (cur.1 = p ∧ k.getPosition cur.2 = p) ∧ set.1 = p ∧ k.getPosition set.2 = p

/-- The state after some calls of a playback that starts in `s`. -/
def reached (range : ChunkRange) (s : S) (ops : List (StreamOp C E A)) : Stream S :=
  (k.machine range).final ⟨s, .opened range.size⟩ ops

/-- Nothing that is done with the one stream shows that it is not the other. -/
def AsItWas (range : ChunkRange) (s s' : Stream S) : Prop :=
  ∀ ops, (k.machine range).observations s' ops = (k.machine range).observations s ops

/-- The bytes ahead of a stream, when its buffer is in order. -/
def Buffered (range : ChunkRange) (s : Stream S) (a : ReadAhead) : Prop :=
  s.buffer.Refines range.max a

/-- The playbacks are one, and the buffers stand for the same bytes. -/
def Alike (range : ChunkRange) (s s' : Stream S) : Prop :=
  s.playback = s'.playback ∧ ∃ a, Buffered range s a ∧ Buffered range s' a

variable {range : ChunkRange}

theorem seek_here (s : Stream S) (answers : A) :
    k.seek s 0 .CUR answers =
      let unread := s.buffer.unread.toNat
      let r := k.move answers unread s.playback 0 .CUR
      (if r.1 ≥ unread then r.1 - unread else r.1, ⟨r.2, s.buffer⟩) := rfl

/-- Any other seek goes on with empty buffers. -/
theorem seek_away (valid : range.Valid) {s : Stream S} {a : ReadAhead} (h : Buffered range s a)
    {offset : Int} {whence : Whence} (away : ¬ (whence = .CUR ∧ offset = 0)) (answers : A) :
    k.seek s offset whence answers =
      let offset := if whence = .CUR then offset - a.bytes.length else offset
      let r := k.move answers 0 s.playback offset whence
      (r.1, ⟨r.2, s.buffer.clear⟩) := by
  have unread := h.unread valid.limit
  have cleared : s.buffer.clear.unread.toNat = 0 := h.clear.unread valid.limit
  simp only [seek, StreamBuffer.seek, if_neg away, unread, cleared]

/-- With nothing ahead a seek is that of the playback. -/
theorem seek_empty (valid : range.Valid) {s : Stream S} {a : ReadAhead} (h : Buffered range s a)
    (empty : a.bytes = []) {offset : Int} {whence : Whence}
    (away : ¬ (whence = .CUR ∧ offset = 0)) (answers : A) :
    k.seek s offset whence answers =
      ((k.move answers 0 s.playback offset whence).1,
        ⟨(k.move answers 0 s.playback offset whence).2, s.buffer.clear⟩) := by
  rw [k.seek_away valid h away]
  simp [empty]

theorem seek_alike (valid : range.Valid) {s s' : Stream S} (alike : Alike range s s')
    (offset : Int) (whence : Whence) (answers : A) :
    (k.seek s offset whence answers).1 = (k.seek s' offset whence answers).1 ∧
      Alike range (k.seek s offset whence answers).2 (k.seek s' offset whence answers).2 := by
  obtain ⟨same, a, h, h'⟩ := alike
  have unread := (h.unread valid.limit).trans (h'.unread valid.limit).symm
  by_cases here : whence = .CUR ∧ offset = 0
  · obtain ⟨rfl, rfl⟩ := here
    rw [seek_here, seek_here, same, unread]
    exact ⟨rfl, rfl, a, h, h'⟩
  · rw [k.seek_away valid h here, k.seek_away valid h' here, same]
    exact ⟨rfl, rfl, { a with bytes := [] }, h.clear, h'.clear⟩

theorem read_alike (valid : range.Valid) {s s' : Stream S} (alike : Alike range s s')
    (n : ReadLength) (env : E) :
    (k.read s n env).1 = (k.read s' n env).1 ∧
      Alike range (k.read s n env).2 (k.read s' n env).2 := by
  obtain ⟨same, a, h, h'⟩ := alike
  obtain ⟨b, result, next⟩ := h.read valid.limit (k.source env) s.playback n
  obtain ⟨b', result', next'⟩ := h'.read valid.limit (k.source env) s'.playback n
  rw [← same] at result'
  obtain ⟨first, rest⟩ := Prod.mk.inj (result.symm.trans result')
  obtain ⟨rfl, playback⟩ := Prod.mk.inj rest
  refine ⟨?_, ?_, b, next, next'⟩
  · simpa only [read, same] using first
  · simpa only [read, same] using playback

theorem step_alike (valid : range.Valid) (s s' : Stream S) (op : StreamOp C E A)
    (alike : Alike range s s') :
    ((k.machine range).step s op).1 = ((k.machine range).step s' op).1 ∧
      Alike range ((k.machine range).step s op).2 ((k.machine range).step s' op).2 := by
  cases op with
  | read n env =>
    obtain ⟨result, next⟩ := k.read_alike valid alike n env
    exact ⟨congrArg StreamResult.read result, next⟩
  | seek offset whence answers =>
    obtain ⟨result, next⟩ := k.seek_alike valid alike offset whence answers
    exact ⟨congrArg StreamResult.sought result, next⟩
  | setChunk size =>
    obtain ⟨same, a, h, h'⟩ := alike
    exact ⟨rfl, same, _, h.setChunk valid.positive.1 valid.ordered size,
      h'.setChunk valid.positive.1 valid.ordered size⟩
  | call c =>
    obtain ⟨same, a, h, h'⟩ := alike
    simp only [machine, same, true_and]
    exact ⟨rfl, a, h, h'⟩
  | getSize =>
    obtain ⟨same, a, h, h'⟩ := alike
    simp only [machine, same, true_and]
    exact ⟨same, a, h, h'⟩
  | getPosition =>
    obtain ⟨same, a, h, h'⟩ := alike
    have unread := (h.unread valid.limit).trans (h'.unread valid.limit).symm
    simp only [machine, getPosition, same, unread, true_and]
    exact ⟨same, a, h, h'⟩

theorem Alike.asItWas (valid : range.Valid) {s s' : Stream S} (alike : Alike range s s') :
    k.AsItWas range s s' := by
  intro ops
  exact ((k.machine range).observations_congr (k.step_alike valid) alike ops).symm

/-- Where nothing was ahead, clearing the buffer changes nothing. -/
theorem asItWas_cleared (valid : range.Valid) {s : Stream S} {a : ReadAhead}
    (h : Buffered range s a) (empty : a.bytes = []) :
    k.AsItWas range s ⟨s.playback, s.buffer.clear⟩ := by
  have cleared : Buffered range ⟨s.playback, s.buffer.clear⟩ { a with bytes := [] } := h.clear
  rw [← empty] at cleared
  exact Alike.asItWas k valid ⟨rfl, a, h, cleared⟩

theorem reached_buffered (valid : range.Valid) (s : S) (ops : List (StreamOp C E A)) :
    ∃ a, Buffered range (k.reached range s ops) a := by
  have initial : Buffered range ⟨s, .opened range.size⟩ ⟨[], range.size⟩ :=
    .opened valid.positive.2 valid.fits
  refine (k.machine range).final_invariant (I := fun t => ∃ a, Buffered range t a) ?_
    ⟨_, initial⟩ ops
  rintro t op ⟨a, h⟩
  obtain ⟨-, -, b, next, -⟩ := k.step_alike valid t t op ⟨rfl, a, h, h⟩
  exact ⟨b, next⟩

/-- What the calls of a playback keep is kept over a run of its stream. -/
theorem reached_invariant (valid : range.Valid) {I : S → Prop}
    (call : ∀ s c, I s → I (k.call s c).2) (fetch : ∀ env s n, I s → I ((k.source env).fetch s n).2)
    (move : ∀ answers unread s offset whence, I s → I (k.move answers unread s offset whence).2)
    {s : S} (initial : I s) (ops : List (StreamOp C E A)) : I (k.reached range s ops).playback := by
  have buffered : Buffered range ⟨s, .opened range.size⟩ ⟨[], range.size⟩ :=
    .opened valid.positive.2 valid.fits
  refine ((k.machine range).final_invariant
    (I := fun t => I t.playback ∧ ∃ a, Buffered range t a) ?_ ⟨initial, _, buffered⟩ ops).1
  rintro t op ⟨inv, a, h⟩
  obtain ⟨-, -, b, next, -⟩ := k.step_alike valid t t op ⟨rfl, a, h, h⟩
  refine ⟨?_, b, next⟩
  cases op with
  | call c => exact call _ _ inv
  | setChunk size => exact inv
  | read n env =>
    obtain ⟨c, result, -⟩ := h.read valid.limit (k.source env) t.playback n
    have after : (k.read t n env).2.playback = (a.read (k.source env) t.playback n.n).2.2 := by
      rw [result]
      rfl
    simp only [machine, after, ReadAhead.read]
    split
    · exact inv
    · split
      · exact fetch _ _ _ inv
      · exact fetch _ _ _ inv
  | seek offset whence answers =>
    simp only [machine, seek, StreamBuffer.seek]
    split
    · exact move _ _ _ _ _ inv
    · exact move _ _ _ _ _ inv
  | getSize => exact inv
  | getPosition => exact inv

/-- An environment in which no fetch brings a byte. -/
def Silent (env : E) : Prop :=
  ∀ s n data, data ≠ [] → ((k.source env).fetch s n).1 ≠ .bytes data

/-- The bytes that a cleared buffer had ahead are missed by the next read, if no others come. -/
theorem cleared_read (valid : range.Valid) {s : Stream S} {a : ReadAhead}
    (h : Buffered range s a) (ahead : a.bytes ≠ []) (playback : S) {env : E}
    (silent : k.Silent env) (n : ReadLength) :
    (k.read ⟨playback, s.buffer.clear⟩ n env).1 ≠ (k.read s n env).1 := by
  obtain ⟨c, result, -⟩ := h.read valid.limit (k.source env) s.playback n
  obtain ⟨d, result', -⟩ := h.clear.read valid.limit (k.source env) playback n
  have got : (k.read s n env).1 = .bytes (a.bytes.take n.n) :=
    (Prod.mk.inj (result.symm.trans (ReadAhead.read_held ahead))).1
  have front : a.bytes.take n.n ≠ [] := by
    have positive := n.positive
    simp only [ne_eq, List.take_eq_nil_iff, ahead, or_false]
    omega
  have empty := ReadAhead.read_silent (a := ⟨[], a.chunk⟩) rfl (silent playback a.chunk) n.n
    (a.bytes.take n.n) front
  rw [result'] at empty
  rw [got]
  exact empty

/-- So they are missed after any seek but the one that stays where it is. -/
theorem away_read (valid : range.Valid) {s : Stream S} {a : ReadAhead} (h : Buffered range s a)
    (ahead : s.buffer.unread.toNat ≠ 0) {offset : Int} {whence : Whence}
    (away : ¬ (whence = .CUR ∧ offset = 0)) (answers : A) {env : E} (silent : k.Silent env)
    (n : ReadLength) :
    (k.read (k.seek s offset whence answers).2 n env).1 ≠ (k.read s n env).1 := by
  have some_ : a.bytes ≠ [] := by
    intro empty
    exact ahead (by rw [h.unread valid.limit, empty, List.length_nil])
  rw [k.seek_away valid h away]
  exact k.cleared_read valid h some_ _ silent n

variable {k}

theorem AsItWas.step {s s' : Stream S} (same : k.AsItWas range s s') (op : StreamOp C E A) :
    k.AsItWas range ((k.machine range).step s op).2 ((k.machine range).step s' op).2 := by
  intro ops
  exact (List.cons.inj (same (op :: ops))).2

theorem AsItWas.observed {s s' : Stream S} (same : k.AsItWas range s s') (op : StreamOp C E A) :
    ((k.machine range).step s' op).1 = ((k.machine range).step s op).1 :=
  (List.cons.inj (same [op])).1

theorem AsItWas.getPosition {s s' : Stream S} (same : k.AsItWas range s s') :
    k.getPosition s' = k.getPosition s := StreamResult.position.inj (same.observed .getPosition)

theorem AsItWas.getSize {s s' : Stream S} (same : k.AsItWas range s s') :
    k.getSize s'.playback = k.getSize s.playback := StreamResult.size.inj (same.observed .getSize)

theorem AsItWas.read {s s' : Stream S} (same : k.AsItWas range s s') (n : ReadLength) (env : E) :
    (k.read s' n env).1 = (k.read s n env).1 := StreamResult.read.inj (same.observed (.read n env))

/-- A seek elsewhere goes unseen only if nothing was ahead. -/
theorem AsItWas.nothing_ahead {s : Stream S} {offset : Int} {whence : Whence} {answers : A}
    (same : k.AsItWas range s (k.seek s offset whence answers).2) (valid : range.Valid)
    {a : ReadAhead} (h : Buffered range s a) (away : ¬ (whence = .CUR ∧ offset = 0)) {env : E}
    (silent : k.Silent env) : a.bytes = [] := by
  rw [k.seek_away valid h away] at same
  by_contra ahead
  exact k.cleared_read valid h ahead _ silent .one (same.read .one env)

/-- With empty buffers a read shows what a fetch brings. -/
theorem AsItWas.fetched {s s' : Stream S} (same : k.AsItWas range s s') (valid : range.Valid)
    {chunk : Nat} (h : Buffered range s ⟨[], chunk⟩) (h' : Buffered range s' ⟨[], chunk⟩) (env : E)
    {x y : UInt8} (first : ((k.source env).fetch s.playback chunk).1 = .bytes [x])
    (second : ((k.source env).fetch s'.playback chunk).1 = .bytes [y]) : x = y := by
  have seen := same.read .one env
  obtain ⟨c, result, -⟩ := h.read valid.limit (k.source env) s.playback .one
  obtain ⟨d, result', -⟩ := h'.read valid.limit (k.source env) s'.playback .one
  have got : (k.read s .one env).1 = .bytes [x] := by
    apply (congrArg Prod.fst result).symm.trans
    simp [ReadAhead.read, first, ReadLength.one]
  have got' : (k.read s' .one env).1 = .bytes [y] := by
    apply (congrArg Prod.fst result').symm.trans
    simp [ReadAhead.read, second, ReadLength.one]
  simpa using (got.symm.trans (seen.symm.trans got'))

end Backing

/-- A seek that fails leaves the counters of the transfer: what the backend answered was no
position below the file, or was theirs already. -/
def ProtoTransfer.Spared (t : ProtoTransfer) (offset : Int) (whence : Whence)
    (reply : Option Int) : Prop :=
  t.isOpen = true → t.seekCheck offset whence = none →
    ∀ r, reply = some r → r < 0 → t.reset r = t

theorem ProtoTransfer.transferSeek_spared {t : ProtoTransfer} {offset : Int} {whence : Whence}
    {reply : Option Int} (failed : (t.transferSeek offset whence reply).1 < 0) :
    (t.transferSeek offset whence reply).2 = t ↔ t.Spared offset whence reply := by
  unfold transferSeek at failed ⊢
  unfold Spared
  cases check : t.seekCheck offset whence with
  | some result => simp
  | none =>
    cases isOpen : t.isOpen with
    | false => simp
    | true =>
      cases reply with
      | none => simp
      | some r =>
        have negative : r < 0 := by simpa [check, isOpen] using failed
        simp [negative]

/-- What a transfer is that a failed seek has moved. -/
theorem ProtoTransfer.transferSeek_moved {t : ProtoTransfer} {offset : Int} {whence : Whence}
    {reply : Option Int} (failed : (t.transferSeek offset whence reply).1 < 0)
    (moved : (t.transferSeek offset whence reply).2 ≠ t) :
    t.isOpen = true ∧ 0 ≤ t.fileSize ∧
      ∃ r < 0, (t.transferSeek offset whence reply) = (r, t.reset r) := by
  unfold transferSeek at *
  cases check : t.seekCheck offset whence with
  | some result => simp [check] at moved
  | none =>
    have size : 0 ≤ t.fileSize := by
      cases whence with
      | SET =>
        simp only [seekCheck] at check
        split at check
        · cases check
        · split at check
          · cases check
          · omega
      | CUR =>
        simp only [seekCheck] at check
        split at check
        · cases check
        · split at check
          · cases check
          · omega
      | END =>
        simp only [seekCheck] at check
        split at check
        · cases check
        · omega
    cases isOpen : t.isOpen with
    | false => simp [check, isOpen] at moved
    | true =>
      cases reply with
      | none => simp [check, isOpen] at moved
      | some r =>
        have negative : r < 0 := by simpa [check, isOpen] using failed
        exact ⟨rfl, size, r, negative, by simp⟩

end CppMyth
