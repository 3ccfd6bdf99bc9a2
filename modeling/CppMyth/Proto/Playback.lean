import CppMyth.Proto.Transfer
import CppMyth.Library.Segment
import CppMyth.Library.Transition

/-! Reading a transfer through the control connection, `mythprotoplayback.cpp`. A request goes
out on the control socket, the data comes in on the transfer socket, and the answer to the
request comes in on the control socket at any other time. The backend answers a request for
`n` bytes with some number up to `n` and sends that many bytes from its position. -/
namespace CppMyth
open Library

/-- `PROTO_TRANSFER_RCVBUF` -/
def transferRcvBuf : Nat := 262000

/-- The backend's end of the transfer: its position, the request it has not answered, the
answer that is not read, and the bytes it sent that are not taken from the transfer socket. -/
structure Backend where
  position : Int := 0
  asked : Option Nat := none
  response : Option Int := none
  stream : List UInt8 := []
  deriving DecidableEq

/-- The local variables of TransferRequestBlock. `buffer` is what is read so far, and `polled`
says that the transfer socket is still polled for data. -/
structure Block where
  n : Nat
  ok : Bool := true
  request : Bool := false
  data : Bool := false
  polled : Bool := true
  filePosition : Int
  fileRequest : Int
  buffer : List UInt8 := []
  deriving DecidableEq

/-- The two sockets are valid or not; `latch` counts the holds of the message latch, and
`call` is a TransferRequestBlock that has not returned. -/
structure Playback where
  transfer : ProtoTransfer
  transferSocket : Bool := true
  controlSocket : Bool := true
  latch : Int := 0
  call : Option Block := none
  backend : Backend := {}
  deriving DecidableEq

/-- What poll reports of the transfer socket; `bytes 0` is the end of the stream. -/
inductive DataEvent where
  | none | failed | broken
  | bytes (k : Nat)
  deriving DecidableEq

/-- What poll reports of the control socket. A readable one may still fail to give a message. -/
inductive ControlEvent where
  | none | broken
  | readable (arrives : Bool)
  deriving DecidableEq

inductive PollResult where
  | error | timeout
  | ready (data : DataEvent) (control : ControlEvent)
  deriving DecidableEq

/-- What becomes of a SEEK command: it is not sent, the answer is lost after the backend moved,
or it is answered and Flush receives some bytes. -/
inductive SeekAnswer where
  | unsent
  | lost (position : Int)
  | answered (position : Int) (received : Nat)
  deriving DecidableEq

/-- The result of a call, with the position of the transfer after it. -/
inductive Outcome where
  | block (bytes : List UInt8) (position : Int)
  | blockFailed (position : Int)
  | sought (result position : Int)
  deriving DecidableEq

namespace Playback

/-- HangException: the control connection is closed and an unread answer is gone with it. -/
def hangException (w : Playback) : Playback :=
  { w with controlSocket := false, backend.response := none }

def transferRequestBlock75 (w : Playback) (n : Nat) (sent : Bool) : Bool × Playback :=
  if ¬ w.transfer.isOpen then (false, w)
  else if ¬ sent then (false, w.hangException)
  else (true, { w with backend.asked := some n })

/-- TransferRequestBlock up to its loop. -/
def startBlock (w : Playback) (n : Nat) (sent : Bool) : Option Outcome × Playback :=
  if n = 0 then (some (.block [] w.transfer.filePosition), w)
  else if ¬ w.transferSocket ∨ ¬ w.controlSocket then
    (some (.blockFailed w.transfer.filePosition), w)
  else
    -- Max size is RCVBUF size
    let n := if n > transferRcvBuf then transferRcvBuf else n
    let b : Block :=
      { n, filePosition := w.transfer.filePosition, fileRequest := w.transfer.fileRequest }
    if b.filePosition + n > b.fileRequest then
      -- Begin critical section
      let asked := transferRequestBlock75 { w with latch := w.latch + 1 } n sent
      (none, { asked.2 with call := some { b with request := true, ok := asked.1 } })
    else (none, { w with call := some b })

def checkData (w : Playback) (b : Block) : DataEvent → Playback × Block
  | .none => (w, b)
  | .broken => (w, { b with ok := false })
  | .failed => if b.polled then (w, { b with ok := false }) else (w, b)
  | .bytes k =>
    let taken := w.backend.stream.take (if b.polled then min k (b.n - b.buffer.length) else 0)
    if taken = [] then (w, b)
    else
      let filePosition := b.filePosition + taken.length
      let buffer := b.buffer ++ taken
      let w := { w with
        transfer.filePosition := filePosition
        backend.stream := w.backend.stream.drop taken.length }
      -- If the buffer is full, clear the events to stop the polling
      -- Otherwise, try again immediately
      if buffer.length = b.n then (w, { b with filePosition, buffer, polled := false })
      else (w, { b with filePosition, buffer, data := true })

def transferRequestBlockFeedback75 (w : Playback) (arrives : Bool) : Int × Playback :=
  match arrives, w.backend.response with
  | true, some rlen => (if rlen < 0 then -1 else rlen, { w with backend.response := none })
  | _, _ => (-1, w.hangException)

/-- The check for the response of the request. The first component says that the loop is
left, as there is no more data. -/
def checkResponse (w : Playback) (b : Block) : ControlEvent → Bool × Playback × Block
  | .none => (false, w, b)
  | .broken => (false, w, if b.request then { b with ok := false } else b)
  | .readable arrives =>
    if ¬ b.request then (false, w, b)
    else
      let feedback := w.transferRequestBlockFeedback75 arrives
      let rlen := feedback.1
      let w := { feedback.2 with latch := feedback.2.latch - 1 }
      let b := { b with request := false } -- request is completed
      if rlen < 0 then (false, w, { b with ok := false })
      else if rlen = 0 ∧ ¬ b.data then (true, w, b)
      else
        let fileRequest := b.fileRequest + rlen
        (false, { w with transfer.fileRequest := fileRequest }, { b with fileRequest })

def pollStep (w : Playback) (b : Block) : PollResult → Bool × Playback × Block
  | .error => (false, w, { b with ok := false })
  | .timeout =>
    if b.data then (false, w, { b with data := false }) else (false, w, { b with ok := false })
  | .ready data control =>
    let read := w.checkData { b with data := false } data
    read.1.checkResponse read.2 control

/-- The loop test, and the return behind the loop where all went well. -/
def continueBlock (left : Bool) (w : Playback) (b : Block) : Option Outcome × Playback :=
  if ¬ b.ok ∨ (¬ left ∧ (b.request ∨ b.data ∨ b.buffer = [])) then
    (none, { w with call := some b })
  else (some (.block b.buffer w.transfer.filePosition), { w with call := none })

def transferSeek (w : Playback) (offset : Int) (whence : Whence) (answer : SeekAnswer) :
    Int × Playback :=
  match w.transfer.seekCheck offset whence with
  | some result => (result, w)
  | none =>
    if ¬ w.transfer.isOpen then (-1, w)
    else if ¬ w.controlSocket then (-1, w.hangException)
    else
      match answer with
      | .unsent => (-1, w.hangException)
      | .lost position => (-1, hangException { w with backend.position := position })
      | .answered position received =>
        -- Flush drops what it receives of the unread bytes
        let dropped := min received w.transfer.unread
        (position, { w with
          transfer := w.transfer.reset position
          backend.position := position
          backend.stream := w.backend.stream.drop dropped })

/-- The first half of the error exit: a response that is still to come is read and flushed, or
the connection is closed. -/
def dropResponse (w : Playback) (b : Block) (arrives : Bool) : Playback :=
  if b.request then
    match arrives, w.backend.response with
    | true, some _ => { w with latch := w.latch - 1, backend.response := none }
    | _, _ => { w.hangException with latch := w.latch - 1 }
  else w

def recover (w : Playback) (b : Block) (arrives : Bool) (answer : SeekAnswer) :
    Option Outcome × Playback :=
  -- Recover the file position or die
  let sought := (w.dropResponse b arrives).transferSeek b.filePosition .SET answer
  let w := if sought.1 < 0 then sought.2.hangException else sought.2
  (some (.blockFailed w.transfer.filePosition), { w with call := none })

def agree (file : Int → UInt8) (w : Playback) (rlen : Int) : Playback :=
  { w with backend := {
    position := w.backend.position + rlen.toNat
    asked := none
    response := if w.controlSocket then some rlen else none
    stream := w.backend.stream ++ segment file w.backend.position rlen.toNat } }

/-- The backend answers a request for `n` bytes with at most `n`. -/
def serve (file : Int → UInt8) (w : Playback) (rlen : Int) : Playback :=
  match w.backend.asked with
  | none => w
  | some n => if rlen ≤ n then w.agree file rlen else w

end Playback

/-- What happens next: a call begins, the backend answers a request, poll returns, or the error
exit is taken. -/
inductive PlaybackEvent where
  | requestBlock (n : Nat) (sent : Bool)
  | seek (offset : Int) (whence : Whence) (answer : SeekAnswer)
  | serve (rlen : Int)
  | poll (p : PollResult)
  | recover (arrives : Bool) (answer : SeekAnswer)
  deriving DecidableEq

namespace Playback

/-- An event that cannot happen now changes nothing. -/
def event (file : Int → UInt8) (w : Playback) : PlaybackEvent → Option Outcome × Playback
  | .serve rlen => (none, w.serve file rlen)
  | .requestBlock n sent =>
    match w.call with
    | none => w.startBlock n sent
    | some _ => (none, w)
  | .seek offset whence answer =>
    match w.call with
    | none =>
      let sought := w.transferSeek offset whence answer
      (some (.sought sought.1 sought.2.transfer.filePosition), sought.2)
    | some _ => (none, w)
  | .poll p =>
    match w.call with
    | none => (none, w)
    | some b =>
      if b.ok then
        let polled := w.pollStep b p
        continueBlock polled.1 polled.2.1 polled.2.2
      else (none, w)
  | .recover arrives answer =>
    match w.call with
    | none => (none, w)
    | some b => if b.ok then (none, w) else w.recover b arrives answer

def opened (t : ProtoTransfer) : Playback :=
  { transfer := { t with isOpen := true, filePosition := 0, fileRequest := 0 } }

end Playback

end CppMyth
