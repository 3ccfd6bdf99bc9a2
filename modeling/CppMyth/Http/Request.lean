import CppMyth.Http.Redirect
import CppMyth.Http.UriEncoder

/-! The requests of `wsrequest.cpp`: how they are made, and what can be set on them before they
are sent. -/
namespace CppMyth
open ProtoBase (cstr)

namespace WSRequest

/-- `REQUEST_TIMEOUT` -/
def requestTimeout : Int := 60000
/-- `REQUEST_STD_CHARSET` -/
def requestStdCharset : List UInt8 := ascii "utf-8"

/-- An assignment to the map of fields, whose order is that of the keys. -/
def insertField (f : HeaderField) : List HeaderField → List HeaderField
  | [] => [f]
  | g :: rest =>
    if f.key = g.key then f :: rest
    else if f.key < g.key then f :: g :: rest
    else g :: insertField f rest

def setHeader (r : WSRequest) (field value : List UInt8) : WSRequest :=
  { r with headers := insertField ⟨field, value⟩ r.headers }

def requestService (r : WSRequest) (url : List UInt8) (method : WSMethod) : WSRequest :=
  { r with serviceUrl := url, serviceMethod := method }

def requestAccept (r : WSRequest) (contentType : List UInt8) : WSRequest :=
  { r with accept := contentType }

/-- `haveZlib` is `HAVE_ZLIB` of the configured library. -/
def requestAcceptEncoding (haveZlib : Bool) (r : WSRequest) (yesno : Bool) : WSRequest :=
  if haveZlib ∧ yesno then r.setHeader (ascii "Accept-Encoding") (ascii "gzip, deflate")
  else r.setHeader (ascii "Accept-Encoding") []

def setUserAgent (r : WSRequest) (value : List UInt8) : WSRequest := { r with userAgent := value }
def setTimeout (r : WSRequest) (timeout : Int) : WSRequest := { r with timeout := timeout }

def setContentParam (r : WSRequest) (param value : List UInt8) : WSRequest :=
  if r.contentType ≠ .form then r
  else
    let content := if r.contentData ≠ [] then r.contentData ++ ascii "&" else r.contentData
    { r with contentData := content ++ param ++ ascii "=" ++ urlencode value }

def setContentCustom (r : WSRequest) (contentType content : List UInt8) : WSRequest :=
  { r with contentType := .unknown, contentTypeStr := contentType, contentData := cstr content }

def clearContent (r : WSRequest) : WSRequest :=
  { r with contentData := [], contentType := .form, contentTypeStr := [] }

def blank : WSRequest where
  server := []
  port := 0
  timeout := requestTimeout
  secureUri := false
  serviceUrl := []
  serviceMethod := .get
  charset := requestStdCharset
  accept := []
  contentType := .form
  contentTypeStr := []
  contentData := []
  headers := []
  userAgent := []

def ofServer (haveZlib : Bool) (server : List UInt8) (port : Nat) : WSRequest :=
  requestAcceptEncoding haveZlib
    { blank with server := server, port := port, secureUri := port == 443 } true

def ofSecureServer (haveZlib : Bool) (server : List UInt8) (port : Nat)
    (secureUri : Bool) : WSRequest :=
  requestAcceptEncoding haveZlib
    { blank with server := server, port := port, secureUri := secureUri } true

def ofUri (haveZlib : Bool) (uri : URI) (method : WSMethod) : WSRequest :=
  let secure := uri.scheme.any isHttps
  let url := ascii "/" ++ uri.path.getD []
  requestAcceptEncoding haveZlib
    { blank with
      server := uri.host.getD []
      port := if uri.port ≠ 0 then uri.port else defaultPort secure
      secureUri := secure
      serviceMethod := method
      serviceUrl :=
        match uri.fragment with
        | some fragment => url ++ ascii "#" ++ fragment
        | none => url
      contentData := uri.params.getD [] } true

inductive Setting where
  | service (url : List UInt8) (method : WSMethod)
  | accept (contentType : List UInt8)
  | acceptEncoding (yesno : Bool)
  | userAgent (value : List UInt8)
  | timeout (timeout : Int)
  | header (field value : List UInt8)
  | dropHeader (field : List UInt8)
  | contentParam (param value : List UInt8)
  | contentCustom (contentType content : List UInt8)
  | dropContent

def set (haveZlib : Bool) (r : WSRequest) : Setting → WSRequest
  | .service url method => r.requestService url method
  | .accept contentType => r.requestAccept contentType
  | .acceptEncoding yesno => requestAcceptEncoding haveZlib r yesno
  | .userAgent value => r.setUserAgent value
  | .timeout timeout => r.setTimeout timeout
  | .header field value => r.setHeader field value
  | .dropHeader field => r.clearHeader field
  | .contentParam param value => r.setContentParam param value
  | .contentCustom contentType content => r.setContentCustom contentType content
  | .dropContent => r.clearContent

/-- The requests that a program can have: made by a constructor, then set or redirected. -/
inductive Made (haveZlib : Bool) : WSRequest → Prop where
  | server (server : List UInt8) (port : Nat) : Made haveZlib (ofServer haveZlib server port)
  | secureServer (server : List UInt8) (port : Nat) (secureUri : Bool) :
      Made haveZlib (ofSecureServer haveZlib server port secureUri)
  | uri (uri : URI) (method : WSMethod) : Made haveZlib (ofUri haveZlib uri method)
  | redirected {r : WSRequest} (uri : URI) : Made haveZlib r → Made haveZlib (r.redirected uri)
  | set {r : WSRequest} (setting : Setting) :
    Made haveZlib r → Made haveZlib (r.set haveZlib setting)

section Params

/-- The pairs of a form: pieces between ampersands, split at their first equals sign, and both
parts decoded. -/
def readParams (content : List UInt8) : List (Option (List UInt8) × Option (List UInt8)) :=
  if content = [] then []
  else (content.splitOn 38).map fun piece =>
    (urldecode (piece.takeWhile (· ≠ 61)), urldecode (piece.dropWhile (· ≠ 61)).tail)

def setContentParams (r : WSRequest) (pairs : List (List UInt8 × List UInt8)) : WSRequest :=
  pairs.foldl (fun r p => r.setContentParam p.1 p.2) r

/-- The bytes that have a meaning in a form or in the URL that it is appended to. -/
def Delimiter (c : UInt8) : Prop := c = 38 ∨ c = 61 ∨ c = 43 ∨ c = 35 ∨ c = 32

instance (c : UInt8) : Decidable (Delimiter c) := inferInstanceAs (Decidable (_ ∨ _))

variable {r : WSRequest} {pairs : List (List UInt8 × List UInt8)}

theorem urlencode_no_delimiter {c : UInt8} {str : List UInt8} (mem : c ∈ urlencode str) :
    ¬ Delimiter c := by
  rintro (rfl | rfl | rfl | rfl | rfl) <;>
    rcases mem_uriEncode uchar_digits mem with literal | percent <;> contradiction

def paramText (p : List UInt8 × List UInt8) : List UInt8 := p.1 ++ 61 :: urlencode p.2

theorem setContentParam_form (form : r.contentType = .form) (p : List UInt8 × List UInt8) :
    r.setContentParam p.1 p.2 = { r with contentData :=
      (if r.contentData = [] then [] else r.contentData ++ [38]) ++ paramText p } := by
  rw [setContentParam, if_neg (not_not_intro form)]
  by_cases none : r.contentData = []
  · simp [none, paramText, ascii]
  · simp [none, paramText, ascii]

theorem paramText_ne_nil (p : List UInt8 × List UInt8) : paramText p ≠ [] := by simp [paramText]

theorem setContentParams_more (form : r.contentType = .form) (more : r.contentData ≠ []) :
    (r.setContentParams pairs).contentData =
      r.contentData ++ pairs.flatMap fun p => 38 :: paramText p := by
  induction pairs generalizing r with
  | nil => simp [setContentParams]
  | cons p pairs ih =>
    have first := setContentParam_form form p
    rw [if_neg more] at first
    have tail := ih (r := r.setContentParam p.1 p.2) (by rw [first]; exact form)
      (by rw [first]; simp)
    rw [setContentParams, List.foldl_cons]
    apply tail.trans
    rw [first]
    simp

theorem setContentParams_first (form : r.contentType = .form) (empty : r.contentData = [])
    (p : List UInt8 × List UInt8) :
    (r.setContentParams (p :: pairs)).contentData =
      paramText p ++ pairs.flatMap fun p => 38 :: paramText p := by
  have first := setContentParam_form form p
  rw [if_pos empty, List.nil_append] at first
  have tail : ((r.setContentParam p.1 p.2).setContentParams pairs).contentData =
      (r.setContentParam p.1 p.2).contentData ++ pairs.flatMap fun p => 38 :: paramText p :=
    setContentParams_more (by rw [first]; exact form) (by rw [first]; exact paramText_ne_nil p)
  rw [setContentParams, List.foldl_cons]
  apply tail.trans
  rw [first]

theorem paramText_no_ampersand {p : List UInt8 × List UInt8} (name : 38 ∉ p.1) :
    38 ∉ paramText p := by
  intro mem
  rcases List.mem_append.mp mem with front | back
  · exact name front
  · rcases List.mem_cons.mp back with equals | value
    · cases equals
    · exact urlencode_no_delimiter value (.inl rfl)

theorem splitOn_paramTexts {text : List UInt8} (first : 38 ∉ text)
    (names : ∀ p ∈ pairs, 38 ∉ p.1) :
    (text ++ pairs.flatMap fun p => 38 :: paramText p).splitOn 38 =
      text :: pairs.map paramText := by
  induction pairs generalizing text with
  | nil =>
    rw [List.flatMap_nil, List.append_nil, List.splitOn_eq_singleton first]
    rfl
  | cons p pairs ih =>
    have next := ih (paramText_no_ampersand (names p List.mem_cons_self))
      fun q mem => names q (List.mem_cons_of_mem p mem)
    rw [List.flatMap_cons, List.cons_append, List.splitOn_append_cons_self_of_not_mem first, next]
    rfl

theorem paramText_read {p : List UInt8 × List UInt8} (name : 61 ∉ p.1)
    (plain : 0 ∉ p.1 ∧ 37 ∉ p.1) (value : 0 ∉ p.2) :
    (urldecode ((paramText p).takeWhile (· ≠ 61)),
        urldecode ((paramText p).dropWhile (· ≠ 61)).tail) = (some p.1, some p.2) := by
  have apart : ∀ c ∈ p.1, decide (c ≠ 61) = true := by
    intro c mem
    have other : c ≠ 61 := fun same => name (same ▸ mem)
    simpa using other
  have front : (paramText p).takeWhile (· ≠ 61) = p.1 := by
    rw [paramText, List.takeWhile_append_of_pos apart]
    simp
  have back : (paramText p).dropWhile (· ≠ 61) = 61 :: urlencode p.2 := by
    rw [paramText, List.dropWhile_append_of_pos apart]
    simp
  rw [front, back, List.tail_cons, urldecode_urlencode value, urldecode_plain plain.1 plain.2]

theorem readParams_setContentParams (form : r.contentType = .form) (empty : r.contentData = [])
    (names : ∀ p ∈ pairs, 38 ∉ p.1 ∧ 61 ∉ p.1) (plain : ∀ p ∈ pairs, 0 ∉ p.1 ∧ 37 ∉ p.1)
    (values : ∀ p ∈ pairs, 0 ∉ p.2) :
    readParams (r.setContentParams pairs).contentData =
      pairs.map fun p => (some p.1, some p.2) := by
  cases pairs with
  | nil =>
    rw [setContentParams, List.foldl_nil, empty]
    rfl
  | cons p pairs =>
    have first : 38 ∉ paramText p := paramText_no_ampersand (names p List.mem_cons_self).1
    have split := splitOn_paramTexts first
      fun q mem => (names q (List.mem_cons_of_mem p mem)).1
    rw [setContentParams_first form empty, readParams, if_neg (by simp [paramText]), split,
      ← List.map_cons, List.map_map]
    apply List.map_congr_left
    intro q mem
    exact paramText_read (names q mem).2 (plain q mem) (values q mem)

/-- Coding a value loses nothing and leaves no delimiter, so a form gives back the pairs that
were set. A name is not coded; one without a percent sign is its own code. -/
theorem form_round_trip (r : WSRequest) (form : r.contentType = .form) (empty : r.contentData = [])
    (pairs : List (List UInt8 × List UInt8))
    (names : ∀ p ∈ pairs, ∀ c ∈ p.1, ¬ Delimiter c) (plain : ∀ p ∈ pairs, 0 ∉ p.1 ∧ 37 ∉ p.1)
    (values : ∀ p ∈ pairs, 0 ∉ p.2) :
    (∀ str : List UInt8, 0 ∉ str →
      urldecode (urlencode str) = some str ∧ ∀ c ∈ urlencode str, ¬ Delimiter c) ∧
    readParams (r.setContentParams pairs).contentData =
      pairs.map fun p => (some p.1, some p.2) := by
  refine ⟨?_, ?_⟩
  · intro str nul_free
    exact ⟨urldecode_urlencode nul_free, fun c mem => urlencode_no_delimiter mem⟩
  · apply readParams_setContentParams form empty _ plain values
    intro p mem
    exact ⟨fun h => names p mem 38 h (.inl rfl), fun h => names p mem 61 h (.inr (.inl rfl))⟩

theorem form_round_trip_two :
    (∀ str : List UInt8, 0 ∉ str →
      urldecode (urlencode str) = some str ∧ ∀ c ∈ urlencode str, ¬ Delimiter c) ∧
    readParams (blank.setContentParams [([107], [97, 38, 255]), ([], [37])]).contentData =
      [(some [107], some [97, 38, 255]), (some [], some [37])] :=
  form_round_trip blank rfl rfl [([107], [97, 38, 255]), ([], [37])] (by simp [Delimiter])
    (by decide) (by decide)

/-- A name is written as it is, so `%41` is decoded. -/
theorem not_always_round_trip :
    ¬ ∀ (r : WSRequest) (pairs : List (List UInt8 × List UInt8)), r.contentType = .form →
      r.contentData = [] → (∀ p ∈ pairs, ∀ c ∈ p.1, ¬ Delimiter c) → (∀ p ∈ pairs, 0 ∉ p.2) →
      readParams (r.setContentParams pairs).contentData =
        pairs.map fun p => (some p.1, some p.2) := by
  intro claim
  have text : ascii "%41" = [37, 52, 49] := by decide
  exact absurd (claim blank [(ascii "%41", ascii "x")] rfl rfl (by simp [text, Delimiter])
    (by decide)) (by decide)

end Params

end WSRequest

end CppMyth
