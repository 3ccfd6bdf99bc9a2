import CppMyth.Builtin.Numerals
import CppMyth.Http.Content
import CppMyth.Http.Uri

/-! The header section of a response, as `ReadResponse` takes it line by line, against the list
of fields that it was made of. -/
namespace CppMyth
open ProtoBase (cstr)

/-- `WSHeader`. `m_values` is never empty, so its last value stands apart. -/
structure WSHeader where
  name : List UInt8
  front : List (List UInt8)
  back : List UInt8
  deriving DecidableEq, Repr

namespace WSHeader

def empty : WSHeader := ⟨[], [], []⟩

def setName (h : WSHeader) (name : List UInt8) : WSHeader := { h with name }

def addValue (h : WSHeader) (value : List UInt8) : WSHeader :=
  if h.back = [] then { h with back := value }
  else { h with front := h.front ++ [h.back], back := value }

def appendBack (h : WSHeader) (text : List UInt8) : WSHeader := { h with back := h.back ++ text }

end WSHeader

/-- The entries of `ws_header_table` that ReadResponse looks for. -/
inductive KnownHeader where
  | contentEncoding | contentLength | contentType | etag | location | server | transferEncoding
  | unknown
  deriving DecidableEq, Repr

def wsHeaderFromUpperstr (upperstr : List UInt8) : KnownHeader :=
  if upperstr = ascii "CONTENT-ENCODING" then .contentEncoding
  else if upperstr = ascii "CONTENT-LENGTH" then .contentLength
  else if upperstr = ascii "CONTENT-TYPE" then .contentType
  else if upperstr = ascii "ETAG" then .etag
  else if upperstr = ascii "LOCATION" then .location
  else if upperstr = ascii "SERVER" then .server
  else if upperstr = ascii "TRANSFER-ENCODING" then .transferEncoding
  else .unknown

def wsCencodingFromStr (str : List UInt8) : ContentEncoding :=
  if str = [] then .none
  else if str = ascii "deflate" then .deflate
  else if str = ascii "gzip" then .gzip
  else .unknown

/-- The value of strtol, saturated as `long`. -/
def atol (text : List UInt8) : Int :=
  let text := text.dropWhile isspace
  let negative := text.head? = some 45
  let digits := (if negative ∨ text.head? = some 43 then text.tail else text).takeWhile isdigit
  if negative then -(min (digitsValue digits) (2 ^ 63) : Nat)
  else (min (digitsValue digits) (2 ^ 63 - 1) : Nat)

/-- `sscanf(line, "%*s %d", &status)`, with the number it stores. -/
def scanStatus (line : List UInt8) : Option Int :=
  let word := line.dropWhile isspace
  let text := (word.dropWhile fun c => ¬ isspace c).dropWhile isspace
  let negative := text.head? = some 45
  let digits := (if negative ∨ text.head? = some 43 then text.tail else text).takeWhile isdigit
  if word = [] ∨ digits = [] then none
  else some (if negative then -(digitsValue digits : Int) else digitsValue digits)

namespace WSResponse
open NetSocket

/-- `HTTP_TOKEN_MAXLEN` -/
def tokenMaxLen : Nat := 79
/-- `RESPONSE_MAX_SIZE` -/
def responseMaxSize : Nat := 0x20000

/-- What ReadResponse writes of `_response`. The fields are kept under their names in upper
case. -/
structure ResponseHeader where
  statusCode : Int
  serverInfo : List UInt8
  etag : List UInt8
  location : List UInt8
  contentEncoding : ContentEncoding
  hasContent : Bool
  contentEmpty : Bool
  contentChunked : Bool
  chunkNext : Bool
  contentLength : Nat
  headers : List UInt8 → Option WSHeader

def noHeader : ResponseHeader :=
  ⟨0, [], [], [], .none, false, false, false, false, 0, fun _ => none⟩

def blank (c : UInt8) : Bool := c == 32 || c == 9

/-- The loop that looks for the value, from the colon on; `valueLen` bounds its steps. -/
def skipLws : Nat → List UInt8 → List UInt8
  | 0, val => val
  | valueLen + 1, val => if val.tail.head?.any blank then skipLws valueLen val.tail else val.tail

/-- The last value of the token, extended, is told to the member it is for. -/
def ResponseHeader.append (h : ResponseHeader) (token val : List UInt8) : ResponseHeader :=
  let header := ((h.headers token).getD .empty).appendBack val
  let newval := header.back
  let h := { h with headers := Function.update h.headers token (some header) }
  match wsHeaderFromUpperstr token with
  | .etag => { h with etag := newval }
  | .server => { h with serverInfo := newval }
  | .location => { h with location := newval }
  | .contentType => { h with hasContent := true }
  | .contentLength =>
    let num := atol newval
    if num ≥ 0 then { h with contentLength := num.toNat, contentEmpty := num = 0 } else h
  | .contentEncoding => { h with contentEncoding := wsCencodingFromStr newval }
  | .transferEncoding =>
    if ascii "chunked" <:+: newval then { h with contentChunked := true, chunkNext := true }
    else h
  | .unknown => h

/-- `m_headers[token]`, with the name as it came and a new value. -/
def ResponseHeader.open_ (h : ResponseHeader) (token name : List UInt8) : ResponseHeader :=
  { h with
    headers := Function.update h.headers token
      (some ((((h.headers token).getD .empty).setName name).addValue [])) }

/-- What one line leaves of the header and of the token that a folded line would extend. -/
def headerField (h : ResponseHeader) (token line : List UInt8) (len : Nat) :
    ResponseHeader × List UInt8 :=
  if line.head?.any blank ∧ token ≠ [] then (h.append token line, token)
  else
    match URI.cutAt 58 line with
    | (name, some rest) =>
      let token := (name.take tokenMaxLen).map toupper
      let val := skipLws (len - (name.length + 1)) (58 :: rest)
      let h := h.open_ token (name.take tokenMaxLen)
      (if token ≠ [] then h.append token val else h, token)
    -- Unknown syntax! Close previous token
    | (_, none) => (h, [])

/-- The status of a first line, if it is one of a response. -/
def statusLine (line : List UInt8) (len : Nat) : Option Int :=
  if len > 5 ∧ line.take 4 = ascii "HTTP" then scanStatus line else none

variable {S : Type} [NetSocket S]

/-- The lines after the status line. -/
def readFields : Nat → S → Nat → ResponseHeader → List UInt8 → Bool × ResponseHeader × S
  | 0, s, _, h, _ => (true, h, s)
  | fuel + 1, s, sum, h, token =>
    let read := readHeaderLine crlf s
    if ¬ read.1.complete then (true, h, read.2)
    -- The response length shouldn't exceed the limit
    else if sum + read.1.len > responseMaxSize then (false, h, read.2)
    -- End of header
    else if read.1.len = 0 then (true, h, read.2)
    else
      let field := headerField h token read.1.line read.1.len
      readFields fuel read.2 (sum + read.1.len) field.1 field.2

/-- ReadResponse, on a connection that nothing was read from. -/
def readResponse (s : S) : Bool × ResponseHeader × S :=
  let read := readHeaderLine crlf s
  if ¬ read.1.complete then (false, noHeader, read.2)
  else if read.1.len > responseMaxSize then (false, noHeader, read.2)
  else
    match statusLine read.1.line read.1.len with
    -- Not a response header
    | none => (false, noHeader, read.2)
    | some status =>
      let field := headerField { noHeader with statusCode := status } [] read.1.line read.1.len
      readFields (pending read.2 + 1) read.2 read.1.len field.1 field.2

def ResponseHeader.getHeaderValue (h : ResponseHeader) (header : List UInt8) :
    Option (List UInt8) := (h.headers header).map WSHeader.back

end WSResponse

/-- A field as it was meant: the name, the value on its line, and the lines that it is folded
on to. -/
structure FieldText where
  name : List UInt8
  value : List UInt8
  folded : List (List UInt8)
  name_some : name ≠ []
  name_short : name.length ≤ WSResponse.tokenMaxLen
  name_plain : ∀ c ∈ name, c ≠ 58 ∧ WSResponse.blank c = false
  folded_blank : ∀ line ∈ folded, line.head?.any WSResponse.blank = true

namespace FieldText

def key (f : FieldText) : List UInt8 := f.name.map toupper

def lines (f : FieldText) : List (List UInt8) := (f.name ++ 58 :: f.value) :: f.folded

/-- The value without the whitespace before it, with its other lines as they are. -/
def text (f : FieldText) : List UInt8 := f.value.dropWhile WSResponse.blank ++ f.folded.flatten

/-- Something other than whitespace stands on the line of the name. -/
def Filled (f : FieldText) : Prop := ∃ c ∈ f.value, WSResponse.blank c = false

instance (f : FieldText) : Decidable f.Filled :=
  decidable_of_iff ((f.value.all WSResponse.blank) = false) (by simp [Filled])

end FieldText

namespace WSResponse
open NetSocket

/-- What the code takes for a value: without anything but whitespace, the last byte passed. -/
def taken (value : List UInt8) : List UInt8 := skipLws value.length (58 :: value)

theorem skipLws_filled {value : List UInt8} (filled : ∃ c ∈ value, blank c = false) (c : UInt8) :
    skipLws value.length (c :: value) = value.dropWhile blank := by
  induction value generalizing c with
  | nil =>
    obtain ⟨d, mem, -⟩ := filled
    cases mem
  | cons d value ih =>
    rw [List.length_cons, skipLws, List.tail_cons]
    by_cases white : blank d = true
    · have later : ∃ c ∈ value, blank c = false := by
        obtain ⟨e, mem, plain⟩ := filled
        rcases List.mem_cons.mp mem with rfl | mem
        · rw [white] at plain
          cases plain
        · exact ⟨e, mem, plain⟩
      rw [if_pos (by simpa using white), ih later, List.dropWhile_cons_of_pos white]
    · rw [if_neg (by simpa using white), List.dropWhile_cons_of_neg white]

theorem skipLws_white {value : List UInt8} (white : ∀ c ∈ value, blank c = true) (c : UInt8) :
    (skipLws value.length (c :: value)).length = 1 := by
  induction value generalizing c with
  | nil => rfl
  | cons d value ih =>
    have first := white d (by simp)
    rw [List.length_cons, skipLws, List.tail_cons, if_pos (by simpa using first)]
    exact ih (fun c mem => white c (by simp [mem])) d

/-- The value is taken right exactly where it has something to take. -/
theorem taken_iff (value : List UInt8) :
    taken value = value.dropWhile blank ↔ ∃ c ∈ value, blank c = false := by
  constructor
  · intro right
    by_contra none
    have white : ∀ c ∈ value, blank c = true := by
      intro c mem
      by_contra plain
      exact none ⟨c, mem, by simpa using plain⟩
    have one := skipLws_white white 58
    rw [← taken, right, List.dropWhile_eq_nil_iff.mpr white] at one
    cases one
  · intro filled
    exact skipLws_filled filled 58

theorem append_headers (h : ResponseHeader) (token val : List UInt8) :
    (h.append token val).headers = Function.update h.headers token
      (some (((h.headers token).getD .empty).appendBack val)) := by
  unfold ResponseHeader.append
  cases wsHeaderFromUpperstr token with
  | contentLength =>
    simp only
    split <;> rfl
  | transferEncoding =>
    simp only
    split <;> rfl
  | _ => rfl

theorem append_value (h : ResponseHeader) (token val : List UInt8) :
    (h.append token val).getHeaderValue = Function.update h.getHeaderValue token
      (some ((h.getHeaderValue token).getD [] ++ val)) := by
  funext key
  simp only [ResponseHeader.getHeaderValue, append_headers]
  by_cases same : key = token
  · subst same
    cases h.headers key <;> simp [WSHeader.appendBack, WSHeader.empty]
  · simp [Function.update_of_ne same, ResponseHeader.getHeaderValue]

theorem addValue_back (h : WSHeader) : (h.addValue []).back = [] := by
  unfold WSHeader.addValue
  split <;> rfl

theorem open_value (h : ResponseHeader) (token name : List UInt8) :
    (h.open_ token name).getHeaderValue = Function.update h.getHeaderValue token (some []) := by
  funext key
  simp only [ResponseHeader.getHeaderValue, ResponseHeader.open_]
  by_cases same : key = token
  · subst same
    simp [addValue_back]
  · simp [Function.update_of_ne same, ResponseHeader.getHeaderValue]

theorem headerField_folded (h : ResponseHeader) {token line : List UInt8}
    (folded : line.head?.any blank = true) (open_ : token ≠ []) (len : Nat) :
    headerField h token line len = (h.append token line, token) := by
  unfold headerField
  rw [if_pos ⟨folded, open_⟩]

theorem headerField_colon (h : ResponseHeader) (token : List UInt8) {name : List UInt8}
    (plain : 58 ∉ name) (some_ : name ≠ [])
    (start : name.head?.any blank = false) (value : List UInt8) :
    headerField h token (name ++ 58 :: value) (name ++ 58 :: value).length =
      ((h.open_ ((name.take tokenMaxLen).map toupper) (name.take tokenMaxLen)).append
        ((name.take tokenMaxLen).map toupper) (taken value),
        (name.take tokenMaxLen).map toupper) := by
  have head : (name ++ 58 :: value).head?.any blank = false := by
    rw [List.head?_append_of_ne_nil _ some_]
    exact start
  have left : (name ++ 58 :: value).length - (name.length + 1) = value.length := by
    rw [List.length_append, List.length_cons]
    omega
  have token_some : (name.take tokenMaxLen).map toupper ≠ [] := by
    cases name with
    | nil => exact absurd rfl some_
    | cons c name => simp [tokenMaxLen]
  unfold headerField
  rw [head, if_neg (by simp), URI.cutAt_some plain]
  simp only [left, if_pos token_some, taken]

/-- The lines of a header section, one after the other. -/
def recordLines (state : ResponseHeader × List UInt8) (lines : List (List UInt8)) :
    ResponseHeader × List UInt8 :=
  lines.foldl (fun state line => headerField state.1 state.2 line line.length) state

theorem recordLines_append (state : ResponseHeader × List UInt8) (front back : List (List UInt8)) :
    recordLines state (front ++ back) = recordLines (recordLines state front) back :=
  List.foldl_append

theorem recordLines_folded (lines : List (List UInt8))
    (folded : ∀ line ∈ lines, line.head?.any blank = true) (h : ResponseHeader)
    {token : List UInt8} (open_ : token ≠ []) {value : List UInt8}
    (before : h.getHeaderValue token = some value) :
    (recordLines (h, token) lines).1.getHeaderValue =
        Function.update h.getHeaderValue token (some (value ++ lines.flatten)) ∧
      (recordLines (h, token) lines).2 = token := by
  induction lines generalizing h value with
  | nil =>
    refine ⟨?_, rfl⟩
    rw [List.flatten_nil, List.append_nil, ← before, Function.update_eq_self]
    rfl
  | cons line lines ih =>
    have first := append_value h token line
    rw [before, Option.getD_some] at first
    have next : (h.append token line).getHeaderValue token = some (value ++ line) := by
      rw [first, Function.update_self]
    obtain ⟨values, tokens⟩ := ih (fun l mem => folded l (by simp [mem])) _ next
    have step : recordLines (h, token) (line :: lines) =
        recordLines (h.append token line, token) lines := by
      rw [recordLines, List.foldl_cons, headerField_folded h (folded line (by simp)) open_]
      rfl
    rw [step]
    refine ⟨?_, tokens⟩
    rw [values, first, Function.update_idem, List.flatten_cons, List.append_assoc]

end WSResponse

namespace FieldText
open WSResponse

/-- What is recorded of a field. -/
def recorded (f : FieldText) : List UInt8 := taken f.value ++ f.folded.flatten

theorem recorded_iff (f : FieldText) : f.recorded = f.text ↔ f.Filled := by
  unfold recorded text
  rw [List.append_left_inj, taken_iff]
  rfl

theorem lines_some (f : FieldText) : ∀ line ∈ f.lines, line ≠ [] := by
  intro line mem
  rw [lines, List.mem_cons] at mem
  rcases mem with rfl | mem
  · simp
  · rintro rfl
    simpa using f.folded_blank [] mem

theorem recordLines_lines (f : FieldText) (state : ResponseHeader × List UInt8) :
    (recordLines state f.lines).1.getHeaderValue =
      Function.update state.1.getHeaderValue f.key (some f.recorded) := by
  have colon : 58 ∉ f.name := fun mem => (f.name_plain 58 mem).1 rfl
  have whole : f.name.take tokenMaxLen = f.name := List.take_of_length_le f.name_short
  have start : f.name.head?.any blank = false := by
    cases hn : f.name with
    | nil => rfl
    | cons c name => exact (f.name_plain c (by simp [hn])).2
  have line := headerField_colon state.1 state.2 colon f.name_some start f.value
  rw [whole] at line
  have opened := append_value (state.1.open_ f.key f.name) f.key (taken f.value)
  rw [open_value, Function.update_self, Option.getD_some, List.nil_append,
    Function.update_idem] at opened
  have before : ((state.1.open_ f.key f.name).append f.key (taken f.value)).getHeaderValue f.key =
      some (taken f.value) := by
    rw [opened, Function.update_self]
  have token : f.key ≠ [] := fun none => f.name_some (List.map_eq_nil_iff.mp none)
  have folded := (recordLines_folded f.folded f.folded_blank _ token before).1
  have step : recordLines state f.lines =
      recordLines ((state.1.open_ f.key f.name).append f.key (taken f.value), f.key) f.folded := by
    rw [lines, recordLines, List.foldl_cons, line]
    rfl
  rw [step, folded, opened, Function.update_idem]
  rfl

end FieldText

namespace WSResponse

/-- The last of the fields with a name. -/
def lastField (fields : List FieldText) (key : List UInt8) : Option FieldText :=
  (fields.filter fun f => f.key = key).getLast?

theorem lastField_concat (fields : List FieldText) (f : FieldText) (key : List UInt8) :
    lastField (fields ++ [f]) key = if f.key = key then some f else lastField fields key := by
  unfold lastField
  rw [List.filter_append]
  by_cases same : f.key = key
  · rw [if_pos same, List.filter_cons_of_pos (by simpa using same), List.filter_nil,
      List.getLast?_concat]
  · rw [if_neg same, List.filter_cons_of_neg (by simpa using same), List.filter_nil,
      List.append_nil]

theorem lastField_some {fields : List FieldText} {key : List UInt8} {f : FieldText}
    (found : lastField fields key = some f) : f ∈ fields ∧ f.key = key := by
  have mem := List.mem_of_getLast? found
  simpa using List.mem_filter.mp mem

/-- After all the fields, each name has what was recorded of its last field. -/
theorem recordLines_fields (fields : List FieldText) (state : ResponseHeader × List UInt8)
    (key : List UInt8) :
    (recordLines state (fields.flatMap FieldText.lines)).1.getHeaderValue key =
      ((lastField fields key).map fun f => some f.recorded).getD (state.1.getHeaderValue key) := by
  induction fields using List.reverseRecOn with
  | nil => rfl
  | append_singleton fields f ih =>
    rw [List.flatMap_append, List.flatMap_singleton, recordLines_append, f.recordLines_lines,
      lastField_concat]
    by_cases same : f.key = key
    · subst same
      rw [Function.update_self, if_pos rfl]
      rfl
    · rw [Function.update_of_ne (Ne.symm same), if_neg same, ih]

end WSResponse

/-- A status line: the version, the code and, where there is one, a space and the reason. -/
structure StatusText where
  version : List UInt8
  code : List UInt8
  reason : List UInt8
  version_http : ascii "HTTP" <+: version
  version_plain : ∀ c ∈ version, c ≠ 58 ∧ isspace c = false
  version_short : version.length < WSResponse.tokenMaxLen
  code_some : code ≠ []
  code_digits : ∀ c ∈ code, isdigit c = true
  reason_apart : ∀ c ∈ reason.head?, c = 32

namespace StatusText
open WSResponse

def line (t : StatusText) : List UInt8 := t.version ++ 32 :: (t.code ++ t.reason)

theorem isdigit_plain {c : UInt8} (digit : isdigit c = true) :
    isspace c = false ∧ c ≠ 58 ∧ c ≠ 45 ∧ c ≠ 43 := by
  simp only [isdigit, isspace, Bool.and_eq_true, decide_eq_true_eq, Bool.or_eq_false_iff] at *
  grind

theorem version_colon (t : StatusText) : 58 ∉ t.version :=
  fun mem => (t.version_plain 58 mem).1 rfl

theorem code_colon (t : StatusText) : 58 ∉ t.code :=
  fun mem => (isdigit_plain (t.code_digits 58 mem)).2.1 rfl

theorem colon_mem_line (t : StatusText) : 58 ∈ t.line ↔ 58 ∈ t.reason := by
  simp [line, t.version_colon, t.code_colon]

theorem version_length (t : StatusText) : 4 ≤ t.version.length := t.version_http.length_le

theorem scanStatus_line (t : StatusText) : scanStatus t.line = some (digitsValue t.code : Int) := by
  obtain ⟨d, digits, hcode⟩ := List.exists_cons_of_ne_nil t.code_some
  have first := isdigit_plain (t.code_digits d (by simp [hcode]))
  have plain : ∀ c ∈ t.version, isspace c = false := fun c mem => (t.version_plain c mem).2
  have word : t.line.dropWhile isspace = t.line := by
    obtain ⟨more, hv⟩ := t.version_http
    rw [line, ← hv]
    rfl
  have behind : ((t.line.dropWhile fun c => ¬ isspace c).dropWhile isspace) =
      t.code ++ t.reason := by
    rw [line, List.dropWhile_append_of_pos (by simpa using plain),
      List.dropWhile_cons_of_neg (by decide), List.dropWhile_cons_of_pos (by decide), hcode,
      List.cons_append, List.dropWhile_cons_of_neg (by simp [first.1])]
  have number : (t.code ++ t.reason).takeWhile isdigit = t.code := by
    rw [List.takeWhile_append_of_pos t.code_digits]
    cases hr : t.reason with
    | nil => simp
    | cons c reason =>
      have space := t.reason_apart c (by simp [hr])
      subst space
      simp [isdigit]
  have sign : (t.code ++ t.reason).head? = some d := by
    rw [hcode]
    rfl
  have some_line : t.line ≠ [] := by simp [line]
  unfold scanStatus
  simp only [word, behind, sign, Option.some.injEq, first.2.2.1, first.2.2.2, or_self, if_false,
    number, some_line, t.code_some]

theorem statusLine_line (t : StatusText) :
    statusLine t.line t.line.length = some (digitsValue t.code : Int) := by
  have four : t.line.take 4 = ascii "HTTP" := by
    obtain ⟨more, hv⟩ := t.version_http
    rw [line, ← hv]
    rfl
  have enough : t.line.length > 5 := by
    have one := List.length_pos_of_ne_nil t.code_some
    have version := t.version_length
    simp only [line, List.length_append, List.length_cons]
    omega
  rw [statusLine, if_pos ⟨enough, four⟩, scanStatus_line]

end StatusText

namespace WSResponse

def headerLines (status : StatusText) (fields : List FieldText) : List (List UInt8) :=
  status.line :: fields.flatMap FieldText.lines

end WSResponse

/-- A header section whose lines ReadHeaderLine and ReadResponse have room for. -/
structure HeaderText where
  status : StatusText
  fields : List FieldText
  clean : ∀ line ∈ WSResponse.headerLines status fields, 0 ∉ line ∧ 13 ∉ line
  short : ∀ line ∈ WSResponse.headerLines status fields, line.length < WSResponse.headerMaxLen
  sized : ((WSResponse.headerLines status fields).map List.length).sum ≤
    WSResponse.responseMaxSize

namespace HeaderText
open WSResponse

def bytes (t : HeaderText) : List UInt8 :=
  (headerLines t.status t.fields).flatMap (· ++ crlf) ++ crlf

end HeaderText

namespace WSResponse
open NetSocket

variable {S : Type} [NetSocket S] {Arrives : S → List UInt8 → Prop}

theorem readHeaderLine_arrived (delivery : Delivery Arrives) {s : S} (text : List UInt8)
    {rest : List UInt8} (clean : 0 ∉ text ∧ 13 ∉ text) (short : text.length < headerMaxLen)
    (arrives : Arrives s (text ++ crlf ++ rest)) :
    (readHeaderLine crlf s).1 = ⟨true, text, text.length⟩ ∧
      Arrives (readHeaderLine crlf s).2 rest := by
  have read := readHeaderLine_arrives delivery crlf arrives
  rw [readHeaderLine_text clean.1 clean.2 short] at read
  exact read

theorem lines_length (lines : List (List UInt8)) (rest : List UInt8) :
    lines.length ≤ (lines.flatMap (· ++ crlf) ++ crlf ++ rest).length := by
  induction lines with
  | nil => exact Nat.zero_le _
  | cons line lines ih =>
    simp only [List.flatMap_cons, List.length_append, List.length_cons, crlf] at ih ⊢
    omega

theorem readFields_lines (delivery : Delivery Arrives) (lines : List (List UInt8))
    (clean : ∀ line ∈ lines, 0 ∉ line ∧ 13 ∉ line)
    (short : ∀ line ∈ lines, line.length < headerMaxLen) (some_ : ∀ line ∈ lines, line ≠ [])
    {fuel : Nat} (enough : lines.length < fuel) {s : S} {rest : List UInt8}
    (arrives : Arrives s (lines.flatMap (· ++ crlf) ++ crlf ++ rest)) (sum : Nat)
    (sized : sum + (lines.map List.length).sum ≤ responseMaxSize)
    (state : ResponseHeader × List UInt8) :
    (readFields fuel s sum state.1 state.2).1 = true ∧
      (readFields fuel s sum state.1 state.2).2.1 = (recordLines state lines).1 ∧
      Arrives (readFields fuel s sum state.1 state.2).2.2 rest := by
  induction lines generalizing fuel s sum state with
  | nil =>
    obtain ⟨fuel, rfl⟩ := Nat.exists_eq_add_one_of_ne_zero (Nat.ne_of_gt enough)
    obtain ⟨read, next⟩ := readHeaderLine_arrived delivery [] (by simp)
      (by decide) arrives
    have fits : ¬ sum > responseMaxSize := by simpa using sized
    unfold readFields
    simp only [read, not_true_eq_false, if_false, List.length_nil, Nat.add_zero, if_neg fits,
      if_true, true_and]
    exact ⟨rfl, next⟩
  | cons line lines ih =>
    obtain ⟨fuel, rfl⟩ := Nat.exists_eq_add_one_of_ne_zero (Nat.ne_of_gt (Nat.zero_lt_of_lt enough))
    obtain ⟨read, next⟩ := readHeaderLine_arrived delivery line (clean line (by simp))
      (short line (by simp)) (by simpa [List.append_assoc] using arrives)
    rw [List.map_cons, List.sum_cons] at sized
    have fits : ¬ sum + line.length > responseMaxSize := by omega
    have more : line.length ≠ 0 := by
      intro none
      exact some_ line (by simp) (List.length_eq_zero_iff.mp none)
    have later := ih (fun l mem => clean l (by simp [mem])) (fun l mem => short l (by simp [mem]))
      (fun l mem => some_ l (by simp [mem])) (Nat.lt_of_succ_lt_succ enough)
      (by simpa [List.append_assoc] using next) (sum + line.length) (by omega)
      (headerField state.1 state.2 line line.length)
    unfold readFields
    simp only [read, not_true_eq_false, if_false, if_neg fits, if_neg more]
    exact later


def statusField (t : StatusText) : ResponseHeader × List UInt8 :=
  headerField { noHeader with statusCode := digitsValue t.code } [] t.line t.line.length

/-- The header section is read to its end, whatever its lines are. -/
theorem readResponse_arrives (delivery : Delivery Arrives) (t : HeaderText) {s : S}
    {rest : List UInt8} (arrives : Arrives s (t.bytes ++ rest)) :
    (readResponse s).1 = true ∧
      (readResponse s).2.1 =
        (recordLines (statusField t.status) (t.fields.flatMap FieldText.lines)).1 ∧
      Arrives (readResponse s).2.2 rest := by
  have status := t.status.statusLine_line
  have clean := t.clean
  have short := t.short
  have sized := t.sized
  rw [HeaderText.bytes] at arrives
  unfold headerLines at clean short sized arrives
  rw [List.map_cons, List.sum_cons] at sized
  rw [List.flatMap_cons] at arrives
  obtain ⟨read, next⟩ := readHeaderLine_arrived delivery _ (clean t.status.line (by simp))
    (short t.status.line (by simp)) (by simpa [List.append_assoc] using arrives)
  have fits : ¬ t.status.line.length > responseMaxSize := by omega
  have some_ : ∀ line ∈ t.fields.flatMap FieldText.lines, line ≠ [] := by
    intro line mem
    obtain ⟨f, -, mem⟩ := List.mem_flatMap.mp mem
    exact f.lines_some line mem
  have enough := delivery.bound next
  have later := readFields_lines delivery (t.fields.flatMap FieldText.lines)
    (fun line mem => clean line (by simp [mem])) (fun line mem => short line (by simp [mem]))
    some_ (Nat.lt_succ_of_le (Nat.le_trans (lines_length _ rest) (by simpa using enough)))
    (by simpa [List.append_assoc] using next) _ sized (statusField t.status)
  unfold readResponse
  simp only [read, not_true_eq_false, if_false, if_neg fits, status]
  exact later

/-- Under each name is the value of the last field with it, and nothing else is there. -/
def Recorded (h : ResponseHeader) (fields : List FieldText) : Prop :=
  ∀ key, h.getHeaderValue key = (lastField fields key).map FieldText.text

theorem statusField_plain (t : StatusText) (plain : 58 ∉ t.reason) (key : List UInt8) :
    (statusField t).1.getHeaderValue key = none := by
  have absent : 58 ∉ t.line := fun mem => plain (t.colon_mem_line.mp mem)
  unfold statusField headerField
  rw [if_neg (by simp), URI.cutAt_none absent]
  rfl

/-- A status line with a colon is recorded under a name that no field has. -/
theorem statusField_colon (t : StatusText) (colon : 58 ∈ t.reason) :
    ∃ key, 32 ∈ key ∧ ((statusField t).1.getHeaderValue key).isSome = true := by
  obtain ⟨front, back, hr, absent⟩ := List.eq_append_cons_of_mem colon
  have split : t.line = (t.version ++ 32 :: (t.code ++ front)) ++ 58 :: back := by
    simp [StatusText.line, hr]
  have start : (t.version ++ 32 :: (t.code ++ front)).head?.any blank = false := by
    obtain ⟨more, hv⟩ := t.version_http
    rw [← hv]
    rfl
  have plain : 58 ∉ t.version ++ 32 :: (t.code ++ front) := by
    simp [t.version_colon, t.code_colon, absent]
  have field := headerField_colon { noHeader with statusCode := digitsValue t.code } [] plain
    (by simp) start back
  have space : 32 ∈ ((t.version ++ 32 :: (t.code ++ front)).take tokenMaxLen).map toupper := by
    apply List.mem_map.mpr
    refine ⟨32, ?_, rfl⟩
    obtain ⟨k, hk⟩ := Nat.exists_eq_add_one_of_ne_zero
      (Nat.ne_of_gt (Nat.sub_pos_of_lt t.version_short))
    rw [List.take_append, hk, List.take_succ_cons]
    simp
  refine ⟨_, space, ?_⟩
  rw [statusField, split, field, append_value, Function.update_self]
  rfl

theorem lastField_space {fields : List FieldText} {key : List UInt8} (space : 32 ∈ key) :
    lastField fields key = none := by
  cases found : lastField fields key with
  | none => rfl
  | some f =>
    obtain ⟨-, rfl⟩ := lastField_some found
    obtain ⟨c, mem, upper⟩ := List.mem_map.mp space
    have plain := (f.name_plain c mem).2
    obtain rfl : c = 32 := by
      unfold toupper at upper
      grind
    cases plain

theorem recorded_iff {h : ResponseHeader} {t : HeaderText}
    (read : h = (recordLines (statusField t.status) (t.fields.flatMap FieldText.lines)).1) :
    Recorded h t.fields ↔
      58 ∉ t.status.reason ∧ ∀ key, ∀ f ∈ lastField t.fields key, f.Filled := by
  have value := recordLines_fields t.fields (statusField t.status)
  rw [← read] at value
  constructor
  · intro right
    constructor
    · intro colon
      obtain ⟨key, space, isSome⟩ := statusField_colon t.status colon
      have none := right key
      rw [value key, lastField_space space] at none
      simp only [Option.map_none, Option.getD_none] at none
      rw [none] at isSome
      cases isSome
    · intro key f found
      have same := right key
      rw [value key, Option.mem_def.mp found] at same
      exact f.recorded_iff.mp (Option.some.inj same)
  · rintro ⟨plain, filled⟩ key
    rw [value key]
    cases found : lastField t.fields key with
    | none => exact statusField_plain t.status plain key
    | some f => exact congrArg some (f.recorded_iff.mpr (filled key f found))

/-- The header section is recorded as it was meant exactly if the reason is without a colon and
the last field of each name is filled. -/
theorem readResponse_records_iff (delivery : Delivery Arrives) (t : HeaderText) {s : S}
    {rest : List UInt8} (arrives : Arrives s (t.bytes ++ rest)) :
    (readResponse s).1 = true ∧ (Recorded (readResponse s).2.1 t.fields ↔
      58 ∉ t.status.reason ∧ ∀ key, ∀ f ∈ lastField t.fields key, f.Filled) := by
  obtain ⟨whole, header, -⟩ := readResponse_arrives delivery t arrives
  exact ⟨whole, recorded_iff header⟩

/-- `HTTP/1.1 200 OK` -/
def ok : StatusText :=
  ⟨ascii "HTTP/1.1", ascii "200", ascii " OK", by decide, by simp [ascii, isspace], by decide,
    by decide, by simp [ascii, isdigit], by simp [ascii]⟩

def etag (value : List UInt8) : FieldText :=
  ⟨ascii "ETag", value, [], by decide, by decide, by simp [ascii, blank], by simp⟩

theorem readResponse_records_iff_tag :
    let s := TcpSocket.connected (ascii "HTTP/1.1 200 OK\r\nETag: a\r\n\r\n")
      (fun _ => .ready 2) fun _ => true
    Recorded (readResponse s).2.1 [etag (ascii " a")] := by
  intro s
  let t : HeaderText := ⟨ok, [etag (ascii " a")], by decide, by decide, by decide⟩
  have ready : Ready s (t.bytes ++ []) := ⟨rfl, fun _ => ⟨2, rfl⟩, by decide⟩
  have found : ∀ key, ∀ f ∈ lastField t.fields key, f.Filled := by
    intro key f last
    rw [List.mem_singleton.mp (lastField_some last).1]
    decide
  exact (readResponse_records_iff ready_delivery t ready).2.mpr ⟨by decide, found⟩

/-- A tag without a value is recorded as a colon. -/
theorem not_always_recorded :
    ¬ ∀ (t : HeaderText) (s : TcpSocket) (rest : List UInt8), Ready s (t.bytes ++ rest) →
      Recorded (readResponse s).2.1 t.fields := by
  intro claim
  let t : HeaderText := ⟨ok, [etag []], by decide, by decide, by decide⟩
  let s := TcpSocket.connected t.bytes (fun _ => .ready 2) fun _ => true
  have ready : Ready s (t.bytes ++ []) := ⟨rfl, fun _ => ⟨2, rfl⟩, by decide⟩
  have recorded := claim t s [] ready
  have filled := (recorded_iff (readResponse_arrives ready_delivery t ready).2.1).mp recorded
  exact absurd (filled.2 (ascii "ETAG") (etag []) rfl) (by decide)

end WSResponse

end CppMyth
