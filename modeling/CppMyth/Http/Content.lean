import CppMyth.Compressor
import CppMyth.Http.Line
import CppMyth.Library.Transition

/-! The body of a response, as `wsresponse.cpp` reads it: by length, by chunks or up to the end
of the stream, and through the decompressor when the content is coded. -/
namespace CppMyth
open Library

/-- `WS_CENCODING` -/
inductive ContentEncoding where
  | none | deflate | gzip | unknown
  deriving DecidableEq, Repr

/-- What ReadContent uses of Decompressor. `start` is given what the read callback will answer
from the first call on: nobody else reads the connection after that. -/
structure Decompressor (D : Type) where
  start : Bool → (Nat → Option (List UInt8)) → D
  hasOutputData : D → Bool
  isCompleted : D → Bool
  readOutput : D → Nat → List UInt8 × D

/-- The model of `compressor.cpp` behind this interface: `fuel` bounds the turns of a read. -/
def Decompressor.ofCoder {C : Type} (codec : Codec C UInt8) (init : Bool → C) (fuel : Nat) :
    Decompressor (Coder C) where
  start gzip reader := Coder.start (init gzip) 0 (.fcbReader reader)
  hasOutputData s := !s.stop
  isCompleted := Coder.isCompleted
  readOutput s len := (s.readOutput codec .decompressor fuel len).getD ([], s)

namespace WSResponse
open NetSocket

/-- `CHUNK_MAX_SIZE` -/
def chunkMaxSize : Nat := 0x20000

/-- `_response` without its header fields. `chunk` is what the chunk buffer holds from
`m_chunkPtr` to `m_chunkEOR`, `room` what is free up to `m_chunkEnd`. -/
structure Response (S D : Type) where
  socket : S
  contentEncoding : ContentEncoding
  hasContent : Bool
  contentEmpty : Bool
  contentChunked : Bool
  chunkNext : Bool
  contentLength : Nat
  consumed : Nat
  chunk : List UInt8
  room : Nat
  decoder : Option D

/-- What ReadResponse leaves after the header field `Transfer-Encoding: chunked`. -/
def chunkedResponse {S : Type} (D : Type) (socket : S) : Response S D :=
  ⟨socket, .none, true, false, true, true, 0, 0, [], 0, none⟩

variable {S D : Type} [NetSocket S]

/-- Lines are read while they are blank. Each of them has taken a byte from the socket. -/
def skipBlank : Nat → S → HeaderLine × S
  | 0, s => readHeaderLine crlf s
  | fuel + 1, s =>
    let r := readHeaderLine crlf s
    if r.1.complete ∧ r.1.len = 0 then skipBlank fuel r.2 else r

def sizeLine (s : S) : HeaderLine × S := skipBlank (pending s) s

/-- Lines are read up to a blank one. -/
def skipTrailers : Nat → S → S
  | 0, s => s
  | fuel + 1, s =>
    let r := readHeaderLine crlf s
    if r.1.complete ∧ r.1.len ≠ 0 then skipTrailers fuel r.2 else r.2

def isxdigit (c : UInt8) : Bool :=
  (48 ≤ c && c ≤ 57) || (65 ≤ c && c ≤ 70) || (97 ≤ c && c ≤ 102)

def xdigit (c : UInt8) : Nat :=
  if c ≤ 57 then c.toNat - 48 else if c ≤ 70 then c.toNat - 55 else c.toNat - 87

def hexValue (digits : List UInt8) : Nat :=
  digits.foldl (fun n c => n * 16 + xdigit c) 0

/-- The conversion `%x` on a text without blank or sign before the digits. -/
def scanHex (text : List UInt8) : Option Nat :=
  let digits := (if text.take 2 = ascii "0x" then text.drop 2 else text).takeWhile isxdigit
  if digits = [] then none else some (hexValue digits % 2 ^ 32)

/-- The size that ReadChunk reads from a line, and none where it fails. -/
def scanSize (strread : List UInt8) : Option Nat :=
  if strread = [] then none
  else scanHex (ascii "0x0" ++ strread.takeWhile (· ≠ 59))

/-- The start of ReadChunk when no byte is pending in the chunk buffer, with what it returns. -/
def Response.nextChunk (r : Response S D) : Option Int × Response S D :=
  let read := sizeLine r.socket
  let r := { r with chunk := [], room := 0, socket := read.2 }
  match scanSize read.1.line with
  | none => (some (-1), r)
  | some size =>
    if size > 0 then
      if size > chunkMaxSize then (some (-1), r) else (none, { r with room := size })
    else (some 0, { r with socket := skipTrailers (pending r.socket) r.socket })

/-- ReadChunk asks for new data when it has handed out all it has received. -/
def Response.fillChunk (r : Response S D) : Response S D :=
  if r.chunk = [] then
    let rcv := receiveData r.socket r.room
    { r with socket := rcv.2, chunk := rcv.1, room := r.room - rcv.1.length }
  else r

def Response.copyChunk (r : Response S D) (buflen : Nat) : (Int × List UInt8) × Response S D :=
  let s := min buflen r.chunk.length
  ((s, r.chunk.take s), { r with chunk := r.chunk.drop s, consumed := r.consumed + s })

/-- The returned value, and the bytes that are copied to the buffer. -/
def Response.readChunk (r : Response S D) (buflen : Nat) : (Int × List UInt8) × Response S D :=
  if r.contentChunked then
    if r.chunk = [] ∧ r.room = 0 then
      match r.nextChunk with
      | (some s, r) => ((s, []), r)
      | (none, r) => r.fillChunk.copyChunk buflen
    else r.fillChunk.copyChunk buflen
  else ((0, []), r)

def Response.chunkStreamReader (r : Response S D) (sz : Nat) : (Int × List UInt8) × Response S D :=
  if r.chunkNext then
    let read := r.readChunk sz
    if read.1.1 ≤ 0 then (read.1, { read.2 with chunkNext := false }) else read
  else ((0, []), r)

def Response.socketStreamReader (r : Response S D) (sz : Nat) : (Int × List UInt8) × Response S D :=
  let read : List UInt8 × S :=
    -- let read on unknown length
    if r.contentLength = 0 ∧ ¬ r.contentEmpty then receiveData r.socket sz
    else if r.contentLength > r.consumed then
      receiveData r.socket (min (r.contentLength - r.consumed) sz)
    else ([], r.socket)
  let consumed := if read.1 = [] then r.contentLength else r.consumed + read.1.length
  ((read.1.length, read.1), { r with socket := read.2, consumed := consumed })

/-- What a read callback answers, one call after the other, with a buffer of `sz` bytes. -/
def answers (reader : Response S D → Nat → (Int × List UInt8) × Response S D) (sz : Nat) :
    Response S D → Nat → Option (List UInt8)
  | r, 0 => if (reader r sz).1.1 < 0 then none else some (reader r sz).1.2
  | r, n + 1 => answers reader sz (reader r sz).2 n

/-- ReadContent of a coded body. The socket stays where the decompressor first found it. -/
def Response.readCoded (dec : Decompressor D) (r : Response S D)
    (reader : Response S D → Nat → (Int × List UInt8) × Response S D) (buflen : Nat) :
    (Int × List UInt8) × Response S D :=
  let gzip := decide (r.contentEncoding = .gzip)
  let d := r.decoder.getD (dec.start gzip (answers reader chunkSize r))
  let read := if dec.hasOutputData d then dec.readOutput d buflen else ([], d)
  let r := { r with decoder := some read.2 }
  if read.1 = [] ∧ ¬ dec.isCompleted read.2 then ((-1, []), r)
  else ((read.1.length, read.1), r)

/-- The public ReadContent takes `buflen` as an int, so that no cast here changes a value. -/
def Response.readContent (dec : Decompressor D) (r : Response S D) (buflen : Nat) :
    (Int × List UInt8) × Response S D :=
  if r.contentChunked then
    match r.contentEncoding with
    | .none => r.chunkStreamReader buflen
    | .gzip | .deflate => r.readCoded dec Response.chunkStreamReader buflen
    | .unknown => ((0, []), r)
  else
    match r.contentEncoding with
    | .none =>
      if r.contentLength > r.consumed then
        let read := receiveData r.socket (min (r.contentLength - r.consumed) buflen)
        let consumed := if read.1 = [] then r.contentLength else r.consumed + read.1.length
        ((read.1.length, read.1), { r with socket := read.2, consumed := consumed })
      else if r.contentLength = 0 ∧ ¬ r.contentEmpty ∧ r.hasContent then
        -- let read on unknown length
        let read := receiveData r.socket buflen
        ((read.1.length, read.1), { r with socket := read.2 })
      else ((0, []), r)
    | .gzip | .deflate => r.readCoded dec Response.socketStreamReader buflen
    | .unknown => ((0, []), r)

/-- Calls of ReadContent, each with the length of its buffer. -/
def content (S : Type) [NetSocket S] (dec : Decompressor D) :
    Machine (Response S D) Nat (Int × List UInt8) where
  step r buflen := r.readContent dec buflen

end WSResponse

end CppMyth
