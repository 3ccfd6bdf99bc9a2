import CppMyth.Http.Uri

/-! The redirections that a response follows, `WSResponse::init`. Each new request is made from
the initial one, and keeps its header fields when the location is of the same origin. -/
namespace CppMyth

/-- `WS_METHOD` -/
inductive WSMethod where
  | get | post | head | options | subscribe | unsubscribe | notify | put | delete | patch | unknown
  deriving DecidableEq, Repr

/-- `WS_CTYPE` -/
inductive WSContentType where
  | none | form | raw | any | unknown
  deriving DecidableEq, Repr

/-- A header field. The map of a request has it under its name in upper case. -/
structure HeaderField where
  name : List UInt8
  value : List UInt8
  deriving DecidableEq, Repr

def HeaderField.key (f : HeaderField) : List UInt8 := f.name.map toupper

structure WSRequest where
  server : List UInt8
  port : Nat
  timeout : Int
  secureUri : Bool
  serviceUrl : List UInt8
  serviceMethod : WSMethod
  charset : List UInt8
  accept : List UInt8
  contentType : WSContentType
  contentTypeStr : List UInt8
  contentData : List UInt8
  headers : List HeaderField
  userAgent : List UInt8
  deriving DecidableEq, Repr

/-- What a response says about a redirection: its status and the value of its Location field. -/
structure Answer where
  statusCode : Int
  location : List UInt8
  deriving DecidableEq, Repr

namespace WSRequest

def clearHeader (r : WSRequest) (field : List UInt8) : WSRequest :=
  { r with headers := r.headers.filter fun f => f.key ≠ field.map toupper }

/-- A scheme that starts as `https` does. -/
def isHttps (scheme : List UInt8) : Bool := scheme.take 5 == ascii "https"

def defaultPort (secure : Bool) : Nat := if secure then 443 else 80

/-- The request of a redirection, made from the one it clones. -/
def redirected (o : WSRequest) (redirection : URI) : WSRequest :=
  let r := { o with server := redirection.host.getD o.server }
  let r := match redirection.scheme with
    | some scheme =>
      let secure := isHttps scheme
      { r with
        secureUri := secure
        port := if redirection.port ≠ 0 then redirection.port else defaultPort secure }
    | none => r
  let url := ascii "/" ++ redirection.path.getD []
  -- the redirection inherits the original reference's fragment, if any
  match redirection.fragment.or (URI.parse o.serviceUrl).fragment with
  | some fragment => { r with serviceUrl := url ++ ascii "#" ++ fragment }
  | none => { r with serviceUrl := url }

end WSRequest

namespace WSResponse
open WSRequest

def trusted (uri : URI) : Bool := uri.scheme.any isHttps

def locationPort (uri : URI) : Nat :=
  if uri.port = 0 then defaultPort (trusted uri) else uri.port

def SameHost (request : WSRequest) (uri : URI) : Prop :=
  uri.host = none ∨ uri.host = some request.server

def SameOrigin (request : WSRequest) (uri : URI) : Prop :=
  uri.host = none ∨ (SameHost request uri ∧ request.port = locationPort uri)

instance (request : WSRequest) (uri : URI) : Decidable (SameHost request uri) :=
  inferInstanceAs (Decidable (_ ∨ _))

instance (request : WSRequest) (uri : URI) : Decidable (SameOrigin request uri) :=
  inferInstanceAs (Decidable (_ ∨ (_ ∧ _)))

/-- The test of init for a location. -/
def Follows (request : WSRequest) (trustedLocation followAny : Bool) (answer : Answer) : Prop :=
  (answer.statusCode = 301 ∨ answer.statusCode = 302) ∧
    let uri := URI.parse answer.location
    (SameOrigin request uri ∨
      (SameHost request uri ∧ (trustedLocation = false ∨ trusted uri = true)) ∨
      (followAny = true ∧ (trustedLocation = false ∨ trusted uri = true)))

instance (request : WSRequest) (trustedLocation followAny : Bool) (answer : Answer) :
    Decidable (Follows request trustedLocation followAny answer) :=
  inferInstanceAs (Decidable ((_ ∨ _) ∧ (_ ∨ _ ∨ _)))

def redirection (request : WSRequest) (answer : Answer) : WSRequest :=
  let uri := URI.parse answer.location
  let redir := request.redirected uri
  if SameOrigin request uri then redir
  else
    -- clear credentials
    (redir.clearHeader (ascii "AUTHORIZATION")).clearHeader (ascii "COOKIE")

/-- The loop of init: the requests that follow the one that was answered by `answers 0`. -/
def redirLoop (request : WSRequest) (trustedLocation followAny : Bool) :
    Nat → (Nat → Answer) → List WSRequest
  | 0, _ => []
  | maxRedirs + 1, answers =>
    if Follows request trustedLocation followAny (answers 0) then
      redirection request (answers 0) ::
        redirLoop request trustedLocation followAny maxRedirs fun i => answers (i + 1)
    else []

/-- All requests that are sent, with `answers` to them in order. -/
def init (request : WSRequest) (maxRedirs : Int) (trustedLocation followAny : Bool)
    (answers : Nat → Answer) : List WSRequest :=
  request :: redirLoop request trustedLocation followAny maxRedirs.toNat answers

def Credential (f : HeaderField) : Prop :=
  f.key = ascii "AUTHORIZATION" ∨ f.key = ascii "COOKIE"

def Carries (r : WSRequest) : Prop := ∃ f ∈ r.headers, Credential f

instance (f : HeaderField) : Decidable (Credential f) := inferInstanceAs (Decidable (_ ∨ _))

instance (r : WSRequest) : Decidable (Carries r) :=
  inferInstanceAs (Decidable (∃ f ∈ r.headers, Credential f))

def SameTarget (request r : WSRequest) : Prop :=
  r.secureUri = request.secureUri ∧ r.server = request.server ∧ r.port = request.port

/-- Credentials go to the origin of the initial request only, and after a secure request that
carries them no request carries them in clear. -/
structure CredentialsStay (request : WSRequest) (sent : List WSRequest) : Prop where
  origin : ∀ r ∈ sent, Carries r → SameTarget request r
  secure : ∀ front r r' back, sent = front ++ r :: r' :: back → r.secureUri = true → Carries r →
    Carries r' → r'.secureUri = true

/-- A location without a scheme, or with the scheme of the request. Without a host the port is
the default one of the scheme. -/
def KeepsTarget (request : WSRequest) (uri : URI) : Prop :=
  uri.scheme = none ∨ (trusted uri = request.secureUri ∧
    (uri.host ≠ none ∨ request.port = defaultPort request.secureUri))

theorem redirLoop_getElem {request r : WSRequest} {trustedLocation followAny : Bool} {n i : Nat}
    {answers : Nat → Answer} :
    (redirLoop request trustedLocation followAny n answers)[i]? = some r ↔
      i < n ∧ (∀ j, j ≤ i → Follows request trustedLocation followAny (answers j)) ∧
        r = redirection request (answers i) := by
  induction n generalizing i answers with
  | zero =>
    constructor
    · intro found
      cases found
    · rintro ⟨less, -⟩
      exact absurd less (Nat.not_lt_zero i)
  | succ n ih =>
    unfold redirLoop
    by_cases first : Follows request trustedLocation followAny (answers 0)
    · rw [if_pos first]
      cases i with
      | zero =>
        constructor
        · intro found
          refine ⟨Nat.zero_lt_succ n, ?_, (Option.some.inj found).symm⟩
          intro j le
          obtain rfl : j = 0 := Nat.le_zero.mp le
          exact first
        · rintro ⟨-, -, rfl⟩
          rfl
      | succ i =>
        rw [List.getElem?_cons_succ, ih]
        constructor
        · rintro ⟨less, all, same⟩
          refine ⟨Nat.succ_lt_succ less, ?_, same⟩
          intro j le
          cases j with
          | zero => exact first
          | succ j => exact all j (Nat.le_of_succ_le_succ le)
        · rintro ⟨less, all, same⟩
          exact ⟨Nat.lt_of_succ_lt_succ less,
            fun j le => all (j + 1) (Nat.succ_le_succ le), same⟩
    · rw [if_neg first]
      constructor
      · intro found
        cases found
      · rintro ⟨-, all, -⟩
        exact absurd (all 0 (Nat.zero_le i)) first

theorem mem_redirLoop {request : WSRequest} {trustedLocation followAny : Bool} {n : Nat}
    {answers : Nat → Answer} {r : WSRequest} :
    r ∈ redirLoop request trustedLocation followAny n answers ↔
      ∃ i, i < n ∧ (∀ j, j ≤ i → Follows request trustedLocation followAny (answers j)) ∧
        r = redirection request (answers i) := by
  rw [List.mem_iff_getElem?]
  exact exists_congr fun i => redirLoop_getElem

theorem redirected_parts (o : WSRequest) (uri : URI) :
    (o.redirected uri).headers = o.headers ∧
    (o.redirected uri).server = uri.host.getD o.server ∧
    (o.redirected uri).secureUri = (uri.scheme.map isHttps).getD o.secureUri ∧
    (o.redirected uri).port =
      if uri.scheme = none then o.port else locationPort uri := by
  unfold WSRequest.redirected
  cases hs : uri.scheme with
  | none =>
    cases uri.fragment.or (URI.parse o.serviceUrl).fragment <;> exact ⟨rfl, rfl, rfl, rfl⟩
  | some scheme =>
    have port : locationPort uri =
        if uri.port ≠ 0 then uri.port else defaultPort (isHttps scheme) := by
      rw [locationPort, trusted, hs]
      by_cases zero : uri.port = 0
      · rw [if_pos zero, if_neg (not_not.mpr zero)]
        rfl
      · rw [if_neg zero, if_pos zero]
    rw [port]
    cases uri.fragment.or (URI.parse o.serviceUrl).fragment <;> exact ⟨rfl, rfl, rfl, rfl⟩

theorem carries_redirection {request : WSRequest} {answer : Answer} :
    Carries (redirection request answer) ↔
      SameOrigin request (URI.parse answer.location) ∧ Carries request := by
  have headers := (redirected_parts request (URI.parse answer.location)).1
  by_cases same : SameOrigin request (URI.parse answer.location)
  · rw [redirection, if_pos same, Carries, headers]
    exact ⟨fun carries => ⟨same, carries⟩, And.right⟩
  · rw [redirection, if_neg same]
    constructor
    · rintro ⟨f, mem, credential⟩
      simp only [WSRequest.clearHeader, List.mem_filter, decide_eq_true_eq] at mem
      have upper : (ascii "AUTHORIZATION").map toupper = ascii "AUTHORIZATION" ∧
          (ascii "COOKIE").map toupper = ascii "COOKIE" := by decide
      rw [upper.1, upper.2] at mem
      cases credential with
      | inl authorization => exact absurd authorization mem.1.2
      | inr cookie => exact absurd cookie mem.2
    · intro h
      exact absurd h.1 same

theorem redirection_target {request : WSRequest} {answer : Answer}
    (same : SameOrigin request (URI.parse answer.location)) :
    SameTarget request (redirection request answer) ↔
      KeepsTarget request (URI.parse answer.location) := by
  have none_port := URI.parse_port answer.location
  obtain ⟨-, server, secure, port⟩ := redirected_parts request (URI.parse answer.location)
  rw [redirection, if_pos same, SameTarget, server, secure, port]
  generalize URI.parse answer.location = uri at same none_port ⊢
  have named : uri.host.getD request.server = request.server := by
    rcases same with h | ⟨h | h, -⟩ <;> rw [h] <;> rfl
  cases hs : uri.scheme with
  | none => simp [KeepsTarget, hs, named]
  | some scheme =>
    have https : trusted uri = isHttps scheme := by
      rw [trusted, hs]
      rfl
    constructor
    · rintro ⟨secure, -, port⟩
      refine .inr ⟨https.trans secure, ?_⟩
      cases hh : uri.host with
      | some host => exact .inl (by simp)
      | none =>
        right
        have secured : isHttps scheme = request.secureUri := secure
        rw [← port, if_neg (by simp), locationPort, if_pos (none_port hh), https, secured]
    · rintro (none | ⟨secure, target⟩)
      · rw [hs] at none
        cases none
      · refine ⟨https.symm.trans secure, named, ?_⟩
        rw [if_neg (by simp)]
        rcases same with hh | ⟨-, port⟩
        · have default := target.resolve_left (fun h => h hh)
          rw [locationPort, if_pos (none_port hh), secure, default]
        · exact port.symm

/-- The exact condition for the credentials to stay: there are none, or every location of the
same origin that is followed keeps the scheme, and the port where it names no host. -/
theorem credentials_stay_iff (request : WSRequest) (maxRedirs : Int)
    (trustedLocation followAny : Bool) (answers : Nat → Answer) :
    CredentialsStay request (init request maxRedirs trustedLocation followAny answers) ↔
      ¬ Carries request ∨ ∀ i : Nat, (i : Int) < maxRedirs →
        (∀ j, j ≤ i → Follows request trustedLocation followAny (answers j)) →
        SameOrigin request (URI.parse (answers i).location) →
        KeepsTarget request (URI.parse (answers i).location) := by
  constructor
  · intro stay
    by_cases carries : Carries request
    · right
      intro i less all same
      have mem : redirection request (answers i) ∈
          init request maxRedirs trustedLocation followAny answers :=
        List.mem_cons_of_mem _ (mem_redirLoop.mpr ⟨i, by omega, all, rfl⟩)
      exact (redirection_target same).mp
        (stay.origin _ mem (carries_redirection.mpr ⟨same, carries⟩))
    · exact .inl carries
  · intro kept
    have origin : ∀ r ∈ init request maxRedirs trustedLocation followAny answers, Carries r →
        SameTarget request r := by
      intro r mem carries
      cases List.mem_cons.mp mem with
      | inl first =>
        subst first
        exact ⟨rfl, rfl, rfl⟩
      | inr later =>
        obtain ⟨i, less, all, rfl⟩ := mem_redirLoop.mp later
        obtain ⟨same, had⟩ := carries_redirection.mp carries
        have target := kept.resolve_left (fun none => none had) i (by omega) all same
        exact (redirection_target same).mpr target
    refine ⟨origin, ?_⟩
    intro front r r' back split secure carries carries'
    have first := origin r (by simp [split]) carries
    have second := origin r' (by simp [split]) carries'
    exact second.1.trans (first.1.symm.trans secure)

/-- The request of a client that has logged in, over TLS. -/
def securedRequest : WSRequest :=
  { server := ascii "h", port := 443, timeout := 60000, secureUri := true
    serviceUrl := ascii "/Myth/GetHostName", serviceMethod := .get, charset := ascii "utf-8"
    accept := ascii "application/json", contentType := .form, contentTypeStr := []
    contentData := [], headers := [⟨ascii "Authorization", ascii "Basic bWU6cHc="⟩]
    userAgent := [] }

/-- `http://h:443/` is the same host and port, in clear. -/
theorem not_always_credentials_stay :
    ¬ ∀ (request : WSRequest) (maxRedirs : Int) (trustedLocation followAny : Bool)
      (answers : Nat → Answer),
      CredentialsStay request (init request maxRedirs trustedLocation followAny answers) := by
  intro claim
  have stay := claim securedRequest 1 true false fun _ => ⟨302, ascii "http://h:443/"⟩
  have sent : redirection securedRequest ⟨302, ascii "http://h:443/"⟩ ∈
      init securedRequest 1 true false fun _ => ⟨302, ascii "http://h:443/"⟩ := by decide
  have origin := stay.origin _ sent (by decide)
  exact absurd origin.1 (by decide)

end WSResponse

end CppMyth
