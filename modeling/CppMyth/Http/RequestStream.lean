import CppMyth.Builtin.Strdec
import CppMyth.Http.Request

/-! The writing of a request. `wsrequest.cpp` hands it to a sink piece by piece, and
`wsresponse.cpp` gathers the pieces in a buffer that it sends whenever it is full. -/
namespace CppMyth
open Library
open WSResponse (crlf)
open NetSocket

/-- The interface of the sink. The length of a piece is an `unsigned`. -/
structure WSRequestStreamSink (S : Type) where
  writeRequestStream : List UInt8 → UInt32 → S → Bool × S
  flushRequestStream : S → Bool × S

/-- `ws_ctype_to_str` -/
def WSContentType.str : WSContentType → List UInt8
  | .none => []
  | .form => ascii "application/x-www-form-urlencoded"
  | .raw => ascii "application/octet-stream"
  | .any => ascii "*/*"
  | .unknown => []

namespace WSRequest

variable {S : Type}

/-- The second call is made only where the first one is true. -/
def andThen (first second : S → Bool × S) (s : S) : Bool × S :=
  if (first s).1 then second (first s).2 else (false, (first s).2)

/-- `REQUEST_PROTOCOL` -/
def requestProtocol : List UInt8 := ascii "HTTP/1.1"
/-- `REQUEST_USER_AGENT` -/
def requestUserAgent : List UInt8 := ascii "CPPMyth/3.2.3"
/-- `REQUEST_CONNECTION` -/
def requestConnection : List UInt8 := ascii "close"

def fieldLine (name value : List UInt8) : List UInt8 := name ++ ascii ": " ++ value

def hostText (r : WSRequest) : List UInt8 :=
  (if 58 ∉ r.server then r.server else ascii "[" ++ r.server ++ ascii "]") ++ ascii ":" ++
    uintToStrdec r.port 12 false

def commonHeading (r : WSRequest) : List UInt8 :=
  fieldLine (ascii "Host") r.hostText ++ crlf ++
  fieldLine (ascii "User-Agent")
    (if r.userAgent = [] then requestUserAgent else r.userAgent) ++ crlf ++
  fieldLine (ascii "Connection") requestConnection ++ crlf ++
  (if r.accept ≠ [] then fieldLine (ascii "Accept") r.accept ++ crlf else []) ++
  fieldLine (ascii "Accept-Charset") r.charset ++ crlf

def entityHeading (r : WSRequest) : List UInt8 :=
  fieldLine (ascii "Content-Type")
    ((if r.contentType = .unknown then r.contentTypeStr else WSContentType.str r.contentType) ++
      ascii "; charset=" ++ requestStdCharset) ++ crlf ++
  fieldLine (ascii "Content-Length")
    (uintToStrdec (r.contentData.length % 2 ^ 32) 12 false) ++ crlf ++
  crlf

def requestLine (method url : List UInt8) : List UInt8 :=
  method ++ ascii " " ++ url ++ ascii " " ++ requestProtocol

def requestUrl (r : WSRequest) : List UInt8 :=
  if r.contentData ≠ [] ∧ r.contentType = .form then r.serviceUrl ++ ascii "?" ++ r.contentData
  else r.serviceUrl

section Writing

variable (sink : WSRequestStreamSink S)

/-- A piece is passed with its size cut to 32 bits. -/
def write (msg : List UInt8) : S → Bool × S :=
  sink.writeRequestStream msg (UInt32.ofNat msg.length)

def writeHeaders : List HeaderField → S → Bool × S
  | [] => fun s => (true, s)
  | f :: rest => andThen (write sink (fieldLine f.name f.value ++ crlf)) (writeHeaders rest)

def writeCommonHeading (r : WSRequest) : S → Bool × S :=
  andThen (write sink r.commonHeading) (writeHeaders sink r.headers)

def writeMessageGET (r : WSRequest) (method : List UInt8) : S → Bool × S :=
  andThen (write sink (requestLine method r.requestUrl ++ crlf)) <|
    andThen (writeCommonHeading sink r) <|
      andThen (write sink crlf) sink.flushRequestStream

def writeMessagePOST (r : WSRequest) (method : List UInt8) : S → Bool × S :=
  andThen (write sink (requestLine method r.serviceUrl ++ crlf)) <|
    andThen (writeCommonHeading sink r) <|
      if r.contentData ≠ [] ∧ r.contentType ≠ .none then
        andThen (write sink r.entityHeading) <|
          andThen (write sink r.contentData) sink.flushRequestStream
      else andThen (write sink crlf) sink.flushRequestStream

def writeMessage (r : WSRequest) : S → Bool × S :=
  match r.serviceMethod with
  | .get => writeMessageGET sink r (ascii "GET")
  | .post => writeMessagePOST sink r (ascii "POST")
  | .head => writeMessageGET sink r (ascii "HEAD")
  | .subscribe => writeMessageGET sink r (ascii "SUBSCRIBE")
  | .unsubscribe => writeMessageGET sink r (ascii "UNSUBSCRIBE")
  | .notify => writeMessagePOST sink r (ascii "NOTIFY")
  | .put => writeMessagePOST sink r (ascii "PUT")
  | .delete => writeMessageGET sink r (ascii "DELETE")
  | .options => writeMessageGET sink r (ascii "OPTIONS")
  | _ => fun s => (false, s)

end Writing

end WSRequest

/-- What a response has while its request is written. `buffer` holds the bytes between
`m_chunkBuffer` and `m_chunkPtr`. -/
structure RequestStream (S : Type) where
  socket : S
  buffer : Option (List UInt8)

namespace RequestStream

variable {S : Type} [NetSocket S]

/-- `REQUEST_BUFFER_SIZE` -/
def requestBufferSize : Nat := 0x1000

/-- The loop of WriteRequestStream. A turn that goes on leaves an empty buffer, so each one
after it takes some of the `len` bytes. -/
def writeLoop : Nat → List UInt8 → Nat → S → List UInt8 → Bool × RequestStream S
  | 0, _, _, socket, buf => (false, ⟨socket, some buf⟩)
  | fuel + 1, data, len, socket, buf =>
    let s := requestBufferSize - buf.length
    if s ≥ len then (true, ⟨socket, some (buf ++ data.take len)⟩)
    else
      let sent := sendData socket (buf ++ data.take s)
      if sent.1 then writeLoop fuel (data.drop s) (len - s) sent.2 []
      else (false, ⟨sent.2, none⟩)

def writeRequestStream (data : List UInt8) (len : UInt32) (t : RequestStream S) :
    Bool × RequestStream S :=
  writeLoop (len.toNat + 2) data len.toNat t.socket (t.buffer.getD [])

def flushRequestStream (t : RequestStream S) : Bool × RequestStream S :=
  match t.buffer with
  | none => (false, t)
  | some buf =>
    if buf.length > 0 then
      let sent := sendData t.socket buf
      (sent.1, ⟨sent.2, none⟩)
    else (true, ⟨t.socket, none⟩)

def sink : WSRequestStreamSink (RequestStream S) := ⟨writeRequestStream, flushRequestStream⟩

section Accepting

/-- Every send goes through. `Sent s bytes` says that `bytes` were handed to `s`. -/
def Accepting (Sent : S → List UInt8 → Prop) : Prop :=
  ∀ s bytes msg, Sent s bytes →
    (sendData s msg).1 = true ∧ Sent (sendData s msg).2 (bytes ++ msg)

/-- A TCP connection whose sends all go through. -/
def Open (s : TcpSocket) (bytes : List UInt8) : Prop :=
  s.valid = true ∧ (∀ i, s.sends i = true) ∧ s.sent = bytes

theorem open_accepting : Accepting Open := by
  rintro s bytes msg ⟨valid, sends, rfl⟩
  have step : sendData s msg = s.sendData msg := rfl
  rw [step, TcpSocket.sendData, if_pos valid, if_pos (sends 0)]
  exact ⟨rfl, valid, fun i => sends (i + 1), rfl⟩

variable {Sent : S → List UInt8 → Prop}

/-- What was sent and what is in the buffer are together `bytes`. -/
structure Holds (Sent : S → List UInt8 → Prop) (t : RequestStream S) (bytes : List UInt8) :
    Prop where
  room : (t.buffer.getD []).length ≤ requestBufferSize
  split : ∃ out, Sent t.socket out ∧ out ++ t.buffer.getD [] = bytes

/-- A turn that goes on with a full buffer takes none of the `len` bytes, every other one
takes some. -/
theorem writeLoop_holds (accepting : Accepting Sent) (fuel : Nat) {data out buf : List UInt8}
    {len : Nat} {socket : S} (room : buf.length ≤ requestBufferSize)
    (enough : len + (if buf.length = requestBufferSize then 1 else 0) < fuel)
    (sent : Sent socket out) :
    (writeLoop fuel data len socket buf).1 = true ∧
      (writeLoop fuel data len socket buf).2.buffer.isSome = true ∧
      Holds Sent (writeLoop fuel data len socket buf).2 (out ++ buf ++ data.take len) := by
  induction fuel generalizing data out len socket buf with
  | zero => omega
  | succ fuel ih =>
    have size : ([] : List UInt8).length ≠ requestBufferSize := by decide
    rw [writeLoop]
    dsimp only
    by_cases fits : requestBufferSize - buf.length ≥ len
    · rw [if_pos fits]
      refine ⟨rfl, rfl, ?_, out, sent, (List.append_assoc _ _ _).symm⟩
      simp only [Option.getD_some, List.length_append, List.length_take]
      omega
    · obtain ⟨went, sent'⟩ :=
        accepting socket out (buf ++ data.take (requestBufferSize - buf.length)) sent
      have whole : out ++ buf ++ data.take len =
          out ++ (buf ++ data.take (requestBufferSize - buf.length)) ++ [] ++
            (data.drop (requestBufferSize - buf.length)).take
              (len - (requestBufferSize - buf.length)) := by
        have split := List.take_add (l := data) (i := requestBufferSize - buf.length)
          (j := len - (requestBufferSize - buf.length))
        rw [Nat.add_sub_cancel' (Nat.le_of_not_ge fits)] at split
        rw [split]
        simp only [List.append_assoc, List.nil_append]
      rw [if_neg fits, if_pos went, whole]
      apply ih (Nat.zero_le _) _ sent'
      rw [if_neg size]
      split at enough <;> omega

theorem writeRequestStream_holds (accepting : Accepting Sent) {t : RequestStream S}
    {bytes : List UInt8} (holds : Holds Sent t bytes) (data : List UInt8) (len : UInt32) :
    (writeRequestStream data len t).1 = true ∧
      (writeRequestStream data len t).2.buffer.isSome = true ∧
      Holds Sent (writeRequestStream data len t).2 (bytes ++ data.take len.toNat) := by
  obtain ⟨room, out, sent, rfl⟩ := holds
  apply writeLoop_holds accepting _ room _ sent
  split <;> omega

theorem flushRequestStream_sends (accepting : Accepting Sent) {t : RequestStream S}
    {bytes : List UInt8} (holds : Holds Sent t bytes) (begun : t.buffer.isSome = true) :
    (flushRequestStream t).1 = true ∧ Sent (flushRequestStream t).2.socket bytes := by
  obtain ⟨-, out, sent, rfl⟩ := holds
  obtain ⟨buf, some_buffer⟩ := Option.isSome_iff_exists.mp begun
  rw [flushRequestStream, some_buffer]
  simp only [Option.getD_some]
  split
  · exact accepting t.socket out buf sent
  · next empty =>
    obtain rfl : buf = [] := List.length_eq_zero_iff.mp (Nat.eq_zero_of_not_pos empty)
    exact ⟨rfl, by rwa [List.append_nil]⟩

end Accepting

end RequestStream

namespace WSRequest

/-- A call of WriteRequestStream, and the piece it passes. -/
abbrev Call := List UInt8 × UInt32

def piece (call : Call) : List UInt8 := call.1.take call.2.toNat

def pieces (calls : List Call) : List UInt8 := calls.flatMap piece

/-- The sink that notes the calls it gets. -/
def recorder : WSRequestStreamSink (List Call) :=
  ⟨fun data len calls => (true, calls ++ [(data, len)]), fun calls => (true, calls)⟩

def calls (r : WSRequest) : List Call := (writeMessage recorder r []).2

section Calls

variable {S : Type} {sink : WSRequestStreamSink S} {P : S → List Call → Prop}
  {f g : S → Bool × S} {front back : List Call}

/-- The sink takes every call, and `P s calls` says that it has got `calls`. -/
def Takes (sink : WSRequestStreamSink S) (P : S → List Call → Prop) : Prop :=
  ∀ s calls data len, P s calls → (sink.writeRequestStream data len s).1 = true ∧
    P (sink.writeRequestStream data len s).2 (calls ++ [(data, len)])

def Makes (P : S → List Call → Prop) (f : S → Bool × S) (more : List Call) : Prop :=
  ∀ s calls, P s calls → (f s).1 = true ∧ P (f s).2 (calls ++ more)

def passed (msg : List UInt8) : Call := (msg, UInt32.ofNat msg.length)

theorem Makes.andThen (first : Makes P f front) (second : Makes P g back) :
    Makes P (andThen f g) (front ++ back) := by
  intro s calls holds
  obtain ⟨went, next⟩ := first s calls holds
  rw [WSRequest.andThen, if_pos went, ← List.append_assoc]
  exact second _ _ next

theorem write_makes (takes : Takes sink P) (msg : List UInt8) :
    Makes P (write sink msg) [passed msg] :=
  fun s calls holds => takes s calls msg _ holds

theorem writeHeaders_makes (takes : Takes sink P) (headers : List HeaderField) :
    Makes P (writeHeaders sink headers)
      (headers.map fun f => passed (fieldLine f.name f.value ++ crlf)) := by
  induction headers with
  | nil =>
    intro s calls holds
    rw [List.map_nil, List.append_nil]
    exact ⟨rfl, holds⟩
  | cons f rest ih => exact (write_makes takes _).andThen ih

def commonPieces (r : WSRequest) : List (List UInt8) :=
  r.commonHeading :: r.headers.map fun f => fieldLine f.name f.value ++ crlf

theorem writeCommonHeading_makes (takes : Takes sink P) (r : WSRequest) :
    Makes P (writeCommonHeading sink r) (r.commonPieces.map passed) := by
  rw [commonPieces, List.map_cons, List.map_map]
  exact (write_makes takes _).andThen (writeHeaders_makes takes r.headers)

/-- `f` makes the calls `more` and ends as the flush after them does. -/
def Flushes (sink : WSRequestStreamSink S) (P : S → List Call → Prop) (f : S → Bool × S)
    (more : List Call) : Prop :=
  ∀ s calls, P s calls → ∃ t, P t (calls ++ more) ∧ f s = sink.flushRequestStream t

theorem flush_flushes : Flushes sink P sink.flushRequestStream [] :=
  fun s calls holds => ⟨s, by rwa [List.append_nil], rfl⟩

theorem Makes.flushes (first : Makes P f front) (second : Flushes sink P g back) :
    Flushes sink P (WSRequest.andThen f g) (front ++ back) := by
  intro s calls holds
  obtain ⟨went, next⟩ := first s calls holds
  obtain ⟨t, last, same⟩ := second _ _ next
  rw [List.append_assoc] at last
  exact ⟨t, last, by rw [WSRequest.andThen, if_pos went, same]⟩

theorem write_flushes (takes : Takes sink P) (msg : List UInt8) :
    Flushes sink P (WSRequest.andThen (write sink msg) sink.flushRequestStream) [passed msg] :=
  (write_makes takes msg).flushes flush_flushes

def getPieces (r : WSRequest) (method : List UInt8) : List (List UInt8) :=
  (requestLine method r.requestUrl ++ crlf) :: (r.commonPieces ++ [crlf])

def postPieces (r : WSRequest) (method : List UInt8) : List (List UInt8) :=
  (requestLine method r.serviceUrl ++ crlf) :: (r.commonPieces ++
    if r.contentData ≠ [] ∧ r.contentType ≠ .none then [r.entityHeading, r.contentData]
    else [crlf])

theorem writeMessageGET_flushes (takes : Takes sink P) (r : WSRequest) (method : List UInt8) :
    Flushes sink P (writeMessageGET sink r method) ((r.getPieces method).map passed) := by
  rw [getPieces, List.map_cons, List.map_append]
  apply (write_makes takes _).flushes
  exact (writeCommonHeading_makes takes r).flushes (write_flushes takes _)

theorem writeMessagePOST_flushes (takes : Takes sink P) (r : WSRequest) (method : List UInt8) :
    Flushes sink P (writeMessagePOST sink r method) ((r.postPieces method).map passed) := by
  rw [postPieces, List.map_cons, List.map_append]
  apply (write_makes takes _).flushes
  apply (writeCommonHeading_makes takes r).flushes
  split
  · exact (write_makes takes _).flushes (write_flushes takes _)
  · exact write_flushes takes _

/-- `r` is written as `texts`, whatever the sink. -/
def WrittenAs (r : WSRequest) (texts : List (List UInt8)) : Prop :=
  ∀ {S : Type} {sink : WSRequestStreamSink S} {P : S → List Call → Prop}, Takes sink P →
    Flushes sink P (writeMessage sink r) (texts.map passed)

theorem writtenAs_get {r : WSRequest} (method : List UInt8)
    (same : ∀ {S : Type} (sink : WSRequestStreamSink S),
      writeMessage sink r = writeMessageGET sink r method) :
    WrittenAs r (r.getPieces method) := by
  intro S sink P takes
  rw [same]
  exact writeMessageGET_flushes takes r method

theorem writtenAs_post {r : WSRequest} (method : List UInt8)
    (same : ∀ {S : Type} (sink : WSRequestStreamSink S),
      writeMessage sink r = writeMessagePOST sink r method) :
    WrittenAs r (r.postPieces method) := by
  intro S sink P takes
  rw [same]
  exact writeMessagePOST_flushes takes r method

def HasBody (method : WSMethod) : Prop := method = .post ∨ method = .put ∨ method = .notify

def BodyMethodText (method : List UInt8) : Prop :=
  method = ascii "POST" ∨ method = ascii "PUT" ∨ method = ascii "NOTIFY"

theorem writtenAs_body (r : WSRequest) (body : HasBody r.serviceMethod) :
    ∃ method, BodyMethodText method ∧ WrittenAs r (r.postPieces method) := by
  rcases body with post | put | notify
  · exact ⟨_, .inl rfl, writtenAs_post _ fun sink => by rw [writeMessage, post]⟩
  · exact ⟨_, .inr (.inl rfl), writtenAs_post _ fun sink => by rw [writeMessage, put]⟩
  · exact ⟨_, .inr (.inr rfl), writtenAs_post _ fun sink => by rw [writeMessage, notify]⟩

/-- A method that the library does not write leaves the sink alone. -/
theorem writeMessage_cases (r : WSRequest) :
    (∀ {S : Type} (sink : WSRequestStreamSink S) s, writeMessage sink r s = (false, s)) ∨
      ∃ text texts, WrittenAs r (text :: texts) := by
  cases method : r.serviceMethod with
  | get => exact .inr ⟨_, _, writtenAs_get _ fun sink => by rw [writeMessage, method]⟩
  | post => exact .inr ⟨_, _, writtenAs_post _ fun sink => by rw [writeMessage, method]⟩
  | head => exact .inr ⟨_, _, writtenAs_get _ fun sink => by rw [writeMessage, method]⟩
  | options => exact .inr ⟨_, _, writtenAs_get _ fun sink => by rw [writeMessage, method]⟩
  | subscribe => exact .inr ⟨_, _, writtenAs_get _ fun sink => by rw [writeMessage, method]⟩
  | unsubscribe => exact .inr ⟨_, _, writtenAs_get _ fun sink => by rw [writeMessage, method]⟩
  | notify => exact .inr ⟨_, _, writtenAs_post _ fun sink => by rw [writeMessage, method]⟩
  | put => exact .inr ⟨_, _, writtenAs_post _ fun sink => by rw [writeMessage, method]⟩
  | delete => exact .inr ⟨_, _, writtenAs_get _ fun sink => by rw [writeMessage, method]⟩
  | patch => exact .inl fun sink s => by rw [writeMessage, method]
  | unknown => exact .inl fun sink s => by rw [writeMessage, method]

theorem calls_of_writtenAs {r : WSRequest} {texts : List (List UInt8)}
    (written : WrittenAs r texts) : r.calls = texts.map passed := by
  have takes : Takes recorder fun s calls => s = calls := by
    rintro s calls data len rfl
    exact ⟨rfl, rfl⟩
  obtain ⟨t, same, flushed⟩ := written takes [] [] rfl
  rw [calls, flushed]
  exact same

variable [NetSocket S] {Sent : S → List UInt8 → Prop}

theorem sink_takes (accepting : RequestStream.Accepting Sent) (bytes : List UInt8) :
    Takes RequestStream.sink fun t calls =>
      RequestStream.Holds Sent t (bytes ++ pieces calls) ∧
        (calls ≠ [] → t.buffer.isSome = true) := by
  rintro t calls data len ⟨holds, -⟩
  obtain ⟨went, begun, next⟩ := RequestStream.writeRequestStream_holds accepting holds data len
  have passed_on : bytes ++ pieces (calls ++ [(data, len)]) =
      bytes ++ pieces calls ++ data.take len.toNat := by
    simp [pieces, piece]
  refine ⟨went, ?_, fun _ => begun⟩
  rw [passed_on]
  exact next

/-- Every piece reaches the socket, in order and once. -/
theorem writeMessage_sends (accepting : RequestStream.Accepting Sent) (r : WSRequest) {s : S}
    {bytes : List UInt8} (sent : Sent s bytes) :
    Sent (writeMessage RequestStream.sink r ⟨s, none⟩).2.socket (bytes ++ pieces r.calls) := by
  rcases writeMessage_cases r with refused | ⟨text, texts, written⟩
  · have none : r.calls = [] := by rw [calls, refused]
    rw [refused, none]
    simpa [pieces] using sent
  · have start : RequestStream.Holds Sent (⟨s, none⟩ : RequestStream S)
        (bytes ++ pieces []) := by
      refine ⟨Nat.zero_le _, bytes, sent, ?_⟩
      simp [pieces]
    obtain ⟨t, ⟨holds, begun⟩, flushed⟩ :=
      written (sink_takes accepting bytes) _ [] ⟨start, fun h => absurd rfl h⟩
    rw [flushed, calls_of_writtenAs written]
    exact (RequestStream.flushRequestStream_sends accepting holds (begun (by simp))).2

end Calls

end WSRequest

end CppMyth
