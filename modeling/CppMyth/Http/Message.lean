import CppMyth.Http.RequestStream

/-! The message that the pieces of a request make. -/
namespace CppMyth
open Library
open WSResponse (crlf)

namespace WSRequest

def PlainText (text : List UInt8) : Prop := 13 ∉ text ∧ 10 ∉ text

instance (text : List UInt8) : Decidable (PlainText text) := inferInstanceAs (Decidable (_ ∧ _))

/-- The service, and the names and values of the header fields, are parts of one line each. -/
structure Plain (r : WSRequest) : Prop where
  serviceUrl : PlainText r.serviceUrl
  server : PlainText r.server
  userAgent : PlainText r.userAgent
  accept : PlainText r.accept
  contentTypeStr : PlainText r.contentTypeStr
  headers : ∀ f ∈ r.headers, PlainText f.name ∧ PlainText f.value

/-- What stands before the first colon of a line. -/
def fieldName (line : List UInt8) : List UInt8 := line.takeWhile (· ≠ 58)

def isContentLength (line : List UInt8) : Bool :=
  (fieldName line).map toupper == ascii "CONTENT-LENGTH"

/-- Lines, one blank line and the body. One of the lines says how long the body is. -/
def Framed (message body : List UInt8) : Prop :=
  ∃ lines : List (List UInt8), (∀ line ∈ lines, line ≠ [] ∧ PlainText line) ∧
    message = (lines.flatMap fun line => line ++ crlf) ++ crlf ++ body ∧
    lines.filter isContentLength = [fieldLine (ascii "Content-Length") (decimal body.length)]

section Texts

variable {front back : List UInt8}

theorem PlainText.append (hf : PlainText front) (hb : PlainText back) :
    PlainText (front ++ back) := by
  constructor
  · intro mem
    exact (List.mem_append.mp mem).elim hf.1 hb.1
  · intro mem
    exact (List.mem_append.mp mem).elim hf.2 hb.2

theorem PlainText.fieldLine (name : PlainText front) (value : PlainText back) :
    PlainText (fieldLine front back) :=
  (name.append (by simp [PlainText, ascii])).append value

theorem fieldLine_ne_nil (name value : List UInt8) : fieldLine name value ≠ [] := by
  simp [fieldLine, ascii]

theorem fieldName_fieldLine (name value : List UInt8) :
    fieldName (fieldLine name value) = fieldName name := by
  induction name with
  | nil => simp [fieldName, fieldLine, ascii]
  | cons c name ih =>
    unfold fieldName fieldLine at ih ⊢
    simp only [List.cons_append, List.takeWhile_cons, ih]

theorem isContentLength_fieldLine (name value : List UInt8) :
    isContentLength (fieldLine name value) = isContentLength name := by
  rw [isContentLength, fieldName_fieldLine, isContentLength]

theorem uintToStrdec_plain (u len : Nat) (pad : Bool) : PlainText (uintToStrdec u len pad) := by
  have digits : ∀ c ∈ uintToStrdec u len pad, isdigit c = true := by
    intro c mem
    rw [uintToStrdec_fitted, fitted] at mem
    rcases List.mem_append.mp mem with zero | low
    · cases pad with
      | false => cases zero
      | true =>
        rw [(List.mem_replicate.mp zero).2]
        exact isdigit_digit (by decide)
    · exact decimal_isdigit u c (List.mem_of_mem_drop low)
  constructor <;> intro mem <;> simpa [isdigit] using digits _ mem

end Texts

section Heading

variable {r : WSRequest} {method : List UInt8}

/-- No setter gives another charset, or a content type that announces no body. -/
theorem Made.members {haveZlib : Bool} (made : Made haveZlib r) :
    r.charset = requestStdCharset ∧ (r.contentType = .form ∨ r.contentType = .unknown) := by
  have accepting (r : WSRequest) (yesno : Bool) :
      (requestAcceptEncoding haveZlib r yesno).charset = r.charset ∧
        (requestAcceptEncoding haveZlib r yesno).contentType = r.contentType := by
    unfold requestAcceptEncoding
    split <;> exact ⟨rfl, rfl⟩
  induction made with
  | server => exact ⟨(accepting _ _).1, .inl (accepting _ _).2⟩
  | secureServer => exact ⟨(accepting _ _).1, .inl (accepting _ _).2⟩
  | uri => exact ⟨(accepting _ _).1, .inl (accepting _ _).2⟩
  | @redirected r uri _ ih =>
    have same : (r.redirected uri).charset = r.charset ∧
        (r.redirected uri).contentType = r.contentType := by
      unfold WSRequest.redirected
      dsimp only
      split <;> split <;> exact ⟨rfl, rfl⟩
    rw [same.1, same.2]
    exact ih
  | @set r setting _ ih =>
    cases setting with
    | service | accept | userAgent | timeout | header | dropHeader => exact ih
    | acceptEncoding yesno =>
      obtain ⟨charset, contentType⟩ := accepting r yesno
      rw [WSRequest.set, charset, contentType]
      exact ih
    | contentParam param value =>
      rw [WSRequest.set, setContentParam]
      split <;> exact ih
    | contentCustom => exact ⟨ih.1, .inr rfl⟩
    | dropContent => exact ⟨ih.1, .inl rfl⟩

def headingLines (r : WSRequest) (method : List UInt8) : List (List UInt8) :=
  requestLine method r.serviceUrl ::
  fieldLine (ascii "Host") r.hostText ::
  fieldLine (ascii "User-Agent")
    (if r.userAgent = [] then requestUserAgent else r.userAgent) ::
  fieldLine (ascii "Connection") requestConnection ::
  ((if r.accept ≠ [] then [fieldLine (ascii "Accept") r.accept] else []) ++
    fieldLine (ascii "Accept-Charset") r.charset ::
    (r.headers.map fun f => fieldLine f.name f.value) ++
    [fieldLine (ascii "Content-Type")
      ((if r.contentType = .unknown then r.contentTypeStr
        else WSContentType.str r.contentType) ++ ascii "; charset=" ++ requestStdCharset),
    fieldLine (ascii "Content-Length") (uintToStrdec (r.contentData.length % 2 ^ 32) 12 false)])

theorem postPieces_lines (some_body : r.contentData ≠ []) (announced : r.contentType ≠ .none) :
    (r.postPieces method).flatten =
      ((r.headingLines method).flatMap fun line => line ++ crlf) ++ crlf ++ r.contentData := by
  rw [postPieces, if_pos ⟨some_body, announced⟩, commonPieces, commonHeading, entityHeading,
    headingLines]
  by_cases accept : r.accept = []
  · simp [accept, List.flatten_eq_flatMap, List.flatMap_map]
  · simp [accept, List.flatten_eq_flatMap, List.flatMap_map]

theorem hostText_plain (plain : r.Plain) : PlainText r.hostText := by
  unfold hostText
  have bracketed : PlainText (ascii "[" ++ r.server ++ ascii "]") := by
    apply PlainText.append
    · exact PlainText.append (by simp [PlainText, ascii]) plain.server
    · simp [PlainText, ascii]
  apply PlainText.append
  · apply PlainText.append
    · split
      · exact plain.server
      · exact bracketed
    · simp [PlainText, ascii]
  · exact uintToStrdec_plain _ _ _

theorem requestLine_plain (plain : r.Plain) (text : BodyMethodText method) :
    requestLine method r.serviceUrl ≠ [] ∧ PlainText (requestLine method r.serviceUrl) := by
  have name : PlainText method := by
    rcases text with rfl | rfl | rfl <;> simp [PlainText, ascii]
  have space : PlainText (ascii " ") := by simp [PlainText, ascii]
  have version : PlainText requestProtocol := by simp [PlainText, requestProtocol, ascii]
  constructor
  · simp [requestLine, ascii]
  · exact (((name.append space).append plain.serviceUrl).append space).append version

theorem headingLines_plain (plain : r.Plain) (charset : r.charset = requestStdCharset)
    (text : BodyMethodText method) :
    ∀ line ∈ r.headingLines method, line ≠ [] ∧ PlainText line := by
  have field (name value : List UInt8) (hn : PlainText name) (hv : PlainText value) :
      fieldLine name value ≠ [] ∧ PlainText (fieldLine name value) :=
    ⟨fieldLine_ne_nil name value, hn.fieldLine hv⟩
  have standard : PlainText requestStdCharset := by simp [PlainText, requestStdCharset, ascii]
  have agent : PlainText (if r.userAgent = [] then requestUserAgent else r.userAgent) := by
    split
    · simp [PlainText, requestUserAgent, ascii]
    · exact plain.userAgent
  have close : PlainText requestConnection := by simp [PlainText, requestConnection, ascii]
  have type : PlainText (if r.contentType = .unknown then r.contentTypeStr
      else WSContentType.str r.contentType) := by
    split
    · exact plain.contentTypeStr
    · cases r.contentType <;> simp [PlainText, WSContentType.str, ascii]
  have entity : PlainText (ascii "; charset=") := by simp [PlainText, ascii]
  unfold headingLines
  simp only [List.forall_mem_cons, List.forall_mem_append, List.cons_append, List.append_assoc,
    charset]
  refine ⟨requestLine_plain plain text, ?_, ?_, ?_, ?_, ?_, ?_, ?_, ?_, ?_⟩
  · exact field _ _ (by simp [PlainText, ascii]) (hostText_plain plain)
  · exact field _ _ (by simp [PlainText, ascii]) agent
  · exact field _ _ (by simp [PlainText, ascii]) close
  · intro line mem
    split at mem
    · rw [List.mem_singleton.mp mem]
      exact field _ _ (by simp [PlainText, ascii]) plain.accept
    · cases mem
  · exact field _ _ (by simp [PlainText, ascii]) standard
  · intro line mem
    obtain ⟨f, held, rfl⟩ := List.mem_map.mp mem
    exact field _ _ (plain.headers f held).1 (plain.headers f held).2
  · exact field _ _ (by simp [PlainText, ascii]) (type.append (entity.append standard))
  · exact field _ _ (by simp [PlainText, ascii]) (uintToStrdec_plain _ _ _)
  · intro line mem
    cases mem

theorem headingLines_contentLength (others : ∀ f ∈ r.headers, isContentLength f.name = false)
    (text : BodyMethodText method) :
    (r.headingLines method).filter isContentLength =
      [fieldLine (ascii "Content-Length")
        (uintToStrdec (r.contentData.length % 2 ^ 32) 12 false)] := by
  have first : isContentLength (requestLine method r.serviceUrl) = false := by
    rcases text with rfl | rfl | rfl <;>
      simp [requestLine, isContentLength, fieldName, ascii, toupper]
  have fields : (r.headers.map fun f => fieldLine f.name f.value).filter isContentLength = [] := by
    rw [List.filter_eq_nil_iff]
    intro line mem
    obtain ⟨f, held, rfl⟩ := List.mem_map.mp mem
    rw [isContentLength_fieldLine, others f held]
    decide
  have host : isContentLength (ascii "Host") = false := by decide
  have agent : isContentLength (ascii "User-Agent") = false := by decide
  have connection : isContentLength (ascii "Connection") = false := by decide
  have accept : isContentLength (ascii "Accept") = false := by decide
  have charset : isContentLength (ascii "Accept-Charset") = false := by decide
  have type : isContentLength (ascii "Content-Type") = false := by decide
  have length : isContentLength (ascii "Content-Length") = true := by decide
  unfold headingLines
  by_cases asked : r.accept = []
  · simp [asked, first, fields, isContentLength_fieldLine, host, agent, connection, charset, type,
      length]
  · simp [asked, first, fields, isContentLength_fieldLine, host, agent, connection, accept,
      charset, type, length]

theorem postPieces_framed {haveZlib : Bool} (made : Made haveZlib r) (plain : r.Plain)
    (others : ∀ f ∈ r.headers, isContentLength f.name = false)
    (some_body : r.contentData ≠ []) (announced : r.contentType ≠ .none)
    (short : r.contentData.length < 2 ^ 32) (text : BodyMethodText method) :
    Framed (r.postPieces method).flatten r.contentData := by
  have charset := made.members.1
  refine ⟨r.headingLines method, headingLines_plain plain charset text,
    postPieces_lines some_body announced, ?_⟩
  rw [headingLines_contentLength others text, Nat.mod_eq_of_lt short,
    uintToStrdec_decimal (by decide) (Nat.lt_trans short (by decide))]

theorem pieces_passed {texts : List (List UInt8)} (short : ∀ t ∈ texts, t.length < 2 ^ 32) :
    pieces (texts.map passed) = texts.flatten := by
  induction texts with
  | nil => rfl
  | cons t texts ih =>
    have first : t.length < 2 ^ 32 := short t List.mem_cons_self
    have whole : piece (passed t) = t := by
      rw [piece, passed, UInt32.toNat_ofNat_of_lt' first, List.take_length]
    have rest := ih fun u mem => short u (List.mem_cons_of_mem t mem)
    rw [List.map_cons, List.flatten_cons, ← rest, pieces, List.flatMap_cons, whole, pieces]

theorem calls_framed {haveZlib : Bool} (made : Made haveZlib r) (body : HasBody r.serviceMethod)
    (plain : r.Plain) (others : ∀ f ∈ r.headers, isContentLength f.name = false)
    (some_body : r.contentData ≠ []) (short : ∀ call ∈ r.calls, call.1.length < 2 ^ 32) :
    Framed (pieces r.calls) r.contentData := by
  obtain ⟨method, text, written⟩ := writtenAs_body r body
  rw [calls_of_writtenAs written] at short ⊢
  have texts : ∀ t ∈ r.postPieces method, t.length < 2 ^ 32 := by
    intro t mem
    exact short (passed t) (List.mem_map_of_mem mem)
  have announced : r.contentType ≠ .none := by
    rcases made.members.2 with same | same <;> rw [same] <;> decide
  have last : r.contentData ∈ r.postPieces method := by
    rw [postPieces, if_pos ⟨some_body, announced⟩]
    simp
  rw [pieces_passed texts]
  exact postPieces_framed made plain others some_body announced (texts _ last) text

end Heading

section Written

variable {S : Type} [NetSocket S] {Sent : S → List UInt8 → Prop}

/-- The socket gets the pieces as they are passed. Where each one is shorter than 2^32 bytes
and there is a body, they are a message with one blank line before its body and one length. -/
theorem message_written (accepting : RequestStream.Accepting Sent) {haveZlib : Bool}
    {r : WSRequest} (made : Made haveZlib r) {s : S} {bytes : List UInt8} (sent : Sent s bytes) :
    Sent (writeMessage RequestStream.sink r ⟨s, none⟩).2.socket (bytes ++ pieces r.calls) ∧
    (HasBody r.serviceMethod → r.contentData ≠ [] → r.Plain →
      (∀ f ∈ r.headers, isContentLength f.name = false) →
      (∀ call ∈ r.calls, call.1.length < 2 ^ 32) → Framed (pieces r.calls) r.contentData) := by
  constructor
  · exact writeMessage_sends accepting r sent
  · intro body some_body plain others short
    exact calls_framed made body plain others some_body short

def posted : WSRequest :=
  ((ofServer true [104] 80).requestService [47, 112] .post).setContentParam [107] [118, 38]

theorem posted_made : Made true posted :=
  .set (.contentParam [107] [118, 38]) (.set (.service [47, 112] .post) (.server [104] 80))

theorem message_written_posted :
    RequestStream.Open
      (writeMessage RequestStream.sink posted
        ⟨TcpSocket.connected [] (fun _ => .timeout) fun _ => true, none⟩).2.socket
      ([] ++ pieces posted.calls) ∧ Framed (pieces posted.calls) posted.contentData :=
  have written := message_written RequestStream.open_accepting posted_made
    (s := TcpSocket.connected [] (fun _ => .timeout) fun _ => true) ⟨rfl, fun _ => rfl, rfl⟩
  have plain : posted.Plain := by constructor <;> decide +kernel
  ⟨written.1, written.2 (.inl rfl) (by decide +kernel) plain (by decide +kernel)
    (by decide +kernel)⟩

end Written

section Oversized

def typed (contentType : List UInt8) : WSRequest :=
  ((ofServer false [104] 80).requestService [47] .post).setContentCustom contentType [98]

theorem typed_entityHeading (contentType : List UInt8) :
    (typed contentType).entityHeading.length = contentType.length + 52 := by
  have body : (typed contentType).contentData = [98] := rfl
  have type : (typed contentType).contentType = .unknown := rfl
  have text : (typed contentType).contentTypeStr = contentType := rfl
  have digits : uintToStrdec 1 12 false = [49] := by decide
  rw [entityHeading, body, type, text]
  simp [fieldLine, crlf, ascii, requestStdCharset, digits]

theorem lines_getLast (lines : List (List UInt8)) :
    (lines.flatMap fun line => line ++ crlf) = [] ∨
      (lines.flatMap fun line => line ++ crlf).getLast? = some 10 := by
  rcases List.eq_nil_or_concat lines with rfl | ⟨front, last, rfl⟩
  · exact .inl rfl
  · right
    simp [crlf]

/-- A piece of 2^32 bytes is passed with the length 0: the body follows the header fields
without a blank line and without a length. -/
theorem typed_unframed {contentType : List UInt8} (long : contentType.length + 52 = 2 ^ 32) :
    ¬ Framed (pieces (typed contentType).calls) (typed contentType).contentData := by
  obtain ⟨method, -, written⟩ := writtenAs_body (typed contentType) (.inl rfl)
  have body : (typed contentType).contentData = [98] := rfl
  have headers : (typed contentType).headers = [⟨ascii "Accept-Encoding", []⟩] := rfl
  have type : (typed contentType).contentType = .unknown := rfl
  have field : piece (passed (fieldLine (ascii "Accept-Encoding") [] ++ crlf)) =
      ascii "Accept-Encoding" ++ ascii ": " ++ crlf := by decide
  have lost : piece (passed (typed contentType).entityHeading) = [] := by
    rw [piece, passed, typed_entityHeading, long]
    rfl
  have last : piece (passed [98]) = [98] := by decide
  rw [calls_of_writtenAs written, postPieces, commonPieces, body, headers, type]
  rintro ⟨lines, -, message, -⟩
  simp only [ne_eq, List.cons_ne_nil, not_false_eq_true, reduceCtorEq, and_self, if_true, pieces,
    List.map_cons, List.map_nil, List.cons_append, List.nil_append, List.flatMap_cons,
    List.flatMap_nil, List.append_nil, field, lost, last, ← List.append_assoc] at message
  rw [List.append_cancel_right_eq, List.append_cancel_right_eq] at message
  rcases lines_getLast lines with none | feed
  · rw [none] at message
    simp [ascii] at message
  · rw [← message] at feed
    simp [ascii] at feed

theorem typed_plain {contentType : List UInt8} (text : PlainText contentType) :
    (typed contentType).Plain where
  serviceUrl := by
    have url : (typed contentType).serviceUrl = [47] := rfl
    simp [url, PlainText]
  server := by
    have server : (typed contentType).server = [104] := rfl
    simp [server, PlainText]
  userAgent := by
    have agent : (typed contentType).userAgent = [] := rfl
    simp [agent, PlainText]
  accept := by
    have accept : (typed contentType).accept = [] := rfl
    simp [accept, PlainText]
  contentTypeStr := text
  headers := by
    have headers : (typed contentType).headers = [⟨ascii "Accept-Encoding", []⟩] := rfl
    simp [headers, PlainText, ascii]

theorem letters_exist (n : Nat) : ∃ text : List UInt8, PlainText text ∧ text.length = n :=
  ⟨List.replicate n 97, by simp [PlainText, List.mem_replicate], List.length_replicate⟩

theorem oversized_unframed :
    ∃ r, Made false r ∧ HasBody r.serviceMethod ∧ r.contentData ≠ [] ∧
      r.contentData.length < 2 ^ 32 ∧ r.Plain ∧
      (∀ f ∈ r.headers, isContentLength f.name = false) ∧
      ¬ Framed (pieces r.calls) r.contentData := by
  obtain ⟨contentType, text, long⟩ := letters_exist (2 ^ 32 - 52)
  have headers : (typed contentType).headers = [⟨ascii "Accept-Encoding", []⟩] := rfl
  refine ⟨typed contentType, ?_, .inl rfl, List.cons_ne_nil _ _, ?_, typed_plain text, ?_, ?_⟩
  · exact .set (.contentCustom contentType [98]) (.set (.service [47] .post) (.server [104] 80))
  · have body : (typed contentType).contentData = [98] := rfl
    rw [body]
    decide
  · intro f mem
    rw [headers] at mem
    rw [List.mem_singleton.mp mem]
    decide
  · apply typed_unframed
    omega

end Oversized

end WSRequest

end CppMyth
