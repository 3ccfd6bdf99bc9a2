import CppMyth.Builtin
import CppMyth.Socket
import CppMyth.Library.Separator

/-! The framed text protocol of `mythprotobase.cpp`. A message is an eight-byte length and
that many bytes of fields. The two counters say how far the current message is read. -/
namespace CppMyth

/-- `stack` gives what the memory after the eight header bytes holds at each read of a header:
`RcvMessageLength` parses a buffer that it does not terminate. -/
structure ProtoBase where
  socket : TcpSocket
  protoVersion : Nat
  hang : Bool
  tainted : Bool
  msgLength : Nat
  msgConsumed : Nat
  isOpen : Bool
  stack : Nat → List UInt8

namespace ProtoBase

def connected (socket : TcpSocket) (protoVersion : Nat) (stack : Nat → List UInt8) : ProtoBase :=
  ⟨socket, protoVersion, false, false, 0, 0, true, stack⟩

/-- `PROTO_STR_SEPARATOR` -/
def separator : List UInt8 := ascii "[]:[]"
/-- `PROTO_BUFFER_SIZE` -/
def bufferSize : Nat := 4000
/-- `PROTO_SENDMSG_MAXSIZE` -/
def sendMsgMaxSize : Nat := 64000

/-- The bytes of a character buffer that `std::string::append` takes: up to a NUL. -/
def cstr (buf : List UInt8) : List UInt8 := buf.takeWhile (· ≠ 0)

/-- The end of Close, after the DONE message. -/
def closeSocket (t : ProtoBase) : ProtoBase :=
  { t with socket := t.socket.disconnect, isOpen := false, msgLength := 0, msgConsumed := 0 }

/-- Close is called with the hang flag up, so it sends nothing. -/
def hangException (t : ProtoBase) : ProtoBase :=
  closeSocket { t with tainted := true, hang := true }

/-- The loop of FlushMessage: `f` bytes are left, `n` are dropped. -/
def flushLoop : Nat → Nat → Nat → ProtoBase → Nat × ProtoBase
  | 0, _, n, t => (n, t)
  | fuel + 1, f, n, t =>
    if f = 0 then (n, t)
    else
      let r := if f > bufferSize then bufferSize else f
      let rcv := t.socket.receiveData r
      if rcv.1.length ≠ r then (n, hangException { t with socket := rcv.2 })
      else flushLoop fuel (f - r) (n + r) { t with socket := rcv.2 }

def flushMessage (t : ProtoBase) : Nat × ProtoBase :=
  let f := t.msgLength - t.msgConsumed
  let r := flushLoop f f 0 t
  (r.1, { r.2 with msgLength := 0, msgConsumed := 0 })

def rcvMessageLength (t : ProtoBase) : Bool × ProtoBase :=
  -- If not placed on head of new response then break
  if t.msgLength > 0 then (false, t)
  else
    let rcv := t.socket.receiveData 8
    let t := { t with socket := rcv.2 }
    if rcv.1.length = 8 then
      match stringToUint32 (rcv.1 ++ t.stack 0) with
      | .ok val =>
        (true, { t with
          msgLength := val.toNat, msgConsumed := 0, stack := fun i => t.stack (i + 1) })
      | .error _ => (false, hangException { t with stack := fun i => t.stack (i + 1) })
    else (false, hangException t)

/-- The text of `"%-8u"`. -/
def header (l : Nat) : List UInt8 := decimal l ++ List.replicate (8 - (decimal l).length) 32

/-- SendCommand before the answer is read. -/
def sendRequest (t : ProtoBase) (cmd : List UInt8) : Bool × ProtoBase :=
  let t := if t.msgConsumed ≠ t.msgLength then t.flushMessage.2 else t
  if cmd.length > 0 ∧ cmd.length < sendMsgMaxSize then
    let snd := t.socket.sendData (header cmd.length ++ cmd)
    if snd.1 then (true, { t with socket := snd.2 })
    else (false, hangException { t with socket := snd.2 })
  else (false, t)

def sendCommand (t : ProtoBase) (cmd : List UInt8) (feedback : Bool) : Bool × ProtoBase :=
  let r := t.sendRequest cmd
  if r.1 ∧ feedback then r.2.rcvMessageLength else r

def close (t : ProtoBase) : ProtoBase :=
  -- Close gracefully by sending DONE message before disconnect
  if t.socket.valid ∧ t.isOpen ∧ ¬ t.hang then closeSocket (t.sendCommand (ascii "DONE") false).2
  else closeSocket t

/-- The loop of ReadField. `left` is `l - c`, `buf` the first `p` bytes of the buffer and
`pss` the number of separator bytes matched at its end. -/
def readFieldLoop : Nat → ProtoBase → List UInt8 → Nat → List UInt8 → Nat →
    Option (List UInt8 × Nat) × ProtoBase
  -- All is consumed. Append rest of data before exit
  | 0, t, buf, _, field, c => (some (field ++ cstr buf, c), t)
  | left + 1, t, buf, pss, field, c =>
    let rcv := t.socket.receiveData 1
    let t := { t with socket := rcv.2 }
    match rcv.1 with
    | [] => (none, hangException t)
    | b :: _ =>
      let buf := buf ++ [b]
      if separator[pss]? = some b then
        if pss + 1 ≥ separator.length then
          -- Append data until separator before exit
          (some (field ++ cstr (buf.take (buf.length - separator.length)), c + 1), t)
        else readFieldLoop left t buf (pss + 1) field (c + 1)
      else if buf.length > bufferSize - 2 - separator.length then
        -- Append data before flushing to refill the following
        readFieldLoop left t [] 0 (field ++ cstr buf) (c + 1)
      else readFieldLoop left t buf 0 field (c + 1)

/-- The field, or `none` where the source returns false. -/
def readField (t : ProtoBase) : Option (List UInt8) × ProtoBase :=
  if t.msgConsumed ≥ t.msgLength then (none, t)
  else
    let r := readFieldLoop (t.msgLength - t.msgConsumed) t [] 0 [] t.msgConsumed
    match r.1 with
    | none => (none, r.2)
    | some (field, c) =>
      -- Renew consumed or reset when no more data
      if t.msgLength > c then (some field, { r.2 with msgConsumed := c })
      else (some field, { r.2 with msgConsumed := 0, msgLength := 0 })

def isMessageOK (field : List UInt8) : Bool :=
  match field with
  | [a, b] => (a == 79 || a == 111) && (b == 75 || b == 107)
  | _ => false

/-- A connection that was hung up: nothing can be sent or received on it any more. -/
structure Closed (t : ProtoBase) : Prop where
  socket : t.socket.valid = false
  msgLength : t.msgLength = 0
  msgConsumed : t.msgConsumed = 0

theorem closeSocket_closed (t : ProtoBase) : t.closeSocket.Closed := by
  constructor <;> simp [closeSocket]

theorem hangException_closed (t : ProtoBase) : t.hangException.Closed :=
  closeSocket_closed _

@[simp] theorem closeSocket_received (t : ProtoBase) :
    t.closeSocket.socket.received = t.socket.received := by
  simp [closeSocket]

@[simp] theorem hangException_received (t : ProtoBase) :
    t.hangException.socket.received = t.socket.received := by
  simp [hangException]

end ProtoBase

end CppMyth
