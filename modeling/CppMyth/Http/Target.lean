import CppMyth.Http.Redirect

/-! Where the redirections of a chain lead. A part that a location leaves out is that of the
request it answers; the loop of `WSResponse::init` takes it from the initial request. -/
namespace CppMyth

/-- Where a request goes, with its scheme in upper case. -/
structure Target where
  scheme : List UInt8
  server : List UInt8
  port : Nat
  deriving DecidableEq, Repr

def schemePort (scheme : List UInt8) : Nat := if scheme = ascii "HTTPS" then 443 else 80

def schemeName (secure : Bool) : List UInt8 := if secure then ascii "HTTPS" else ascii "HTTP"

def WSRequest.target (r : WSRequest) : Target := ⟨schemeName r.secureUri, r.server, r.port⟩

namespace Target

/-- The target a location stands for in an answer from here. -/
def resolve (t : Target) (uri : URI) : Target :=
  let scheme := (uri.scheme.map fun s => s.map toupper).getD t.scheme
  let port :=
    if uri.port ≠ 0 then uri.port else if uri.host = none then t.port else schemePort scheme
  ⟨scheme, uri.host.getD t.server, port⟩

/-- A location by which the initial request and the one answered, whose target is `t`, lead to
the same place: what it leaves out they have in common. Its scheme is `https` in lower case or
`http`; without a scheme the port is not looked at, and with one it is never inherited. -/
structure Agrees (request : WSRequest) (t : Target) (uri : URI) : Prop where
  server : uri.host = none → t.server = request.server
  scheme : uri.scheme = none → t.scheme = schemeName request.secureUri
  named : ∀ s, uri.scheme = some s → s = ascii "https" ∨ s.map toupper = ascii "HTTP"
  kept : uri.scheme = none → request.port = (t.resolve uri).port
  default : uri.scheme ≠ none → uri.host = none →
    t.port = WSRequest.defaultPort (WSResponse.trusted uri)

end Target

namespace WSResponse
open WSRequest

/-- The targets of a chain of locations, each resolved from the one before. -/
def targets (request : WSRequest) (answers : Nat → Answer) : Nat → Target
  | 0 => request.target
  | i + 1 => (targets request answers i).resolve (URI.parse (answers i).location)

/-- Each request after the first goes where the answer to the one before it says. -/
def TargetsFollow (answers : Nat → Answer) (sent : List WSRequest) : Prop :=
  ∀ i r r', sent[i]? = some r → sent[i + 1]? = some r' →
    r'.target = r.target.resolve (URI.parse (answers i).location)

theorem schemeName_iff (s : List UInt8) :
    schemeName (isHttps s) = s.map toupper ↔ s = ascii "https" ∨ s.map toupper = ascii "HTTP" := by
  cases secure : isHttps s with
  | true =>
    have front : s.take 5 = ascii "https" := eq_of_beq secure
    constructor
    · intro same
      left
      have length : s.length = 5 := by
        have lengths := congrArg List.length same
        simpa [schemeName, ascii] using lengths.symm
      rwa [List.take_of_length_le (by omega)] at front
    · rintro (rfl | clear)
      · decide
      · have short : s.length = 4 := by
          have lengths := congrArg List.length clear
          simpa [ascii] using lengths
        have lengths := congrArg List.length front
        simp [ascii, short] at lengths
  | false =>
    constructor
    · intro same
      exact Or.inr same.symm
    · rintro (rfl | clear)
      · cases secure
      · exact clear.symm

theorem schemePort_name (secure : Bool) : schemePort (schemeName secure) = defaultPort secure := by
  cases secure <;> decide

theorem redirection_parts (request : WSRequest) (answer : Answer) :
    (redirection request answer).target =
      (request.redirected (URI.parse answer.location)).target := by
  by_cases same : SameOrigin request (URI.parse answer.location)
  · rw [redirection, if_pos same]
  · rw [redirection, if_neg same]
    rfl

theorem server_iff (request : WSRequest) (t : Target) (uri : URI) :
    uri.host.getD request.server = uri.host.getD t.server ↔
      (uri.host = none → t.server = request.server) := by
  cases uri.host with
  | none => simp [eq_comm]
  | some host => simp

theorem locationPort_iff {uri : URI} (hostless : uri.port ≠ 0 → uri.host ≠ none) {s : List UInt8}
    (trusts : trusted uri = isHttps s) (name : schemeName (isHttps s) = s.map toupper)
    (t : Target) :
    locationPort uri = (if uri.port ≠ 0 then uri.port else if uri.host = none then t.port
        else schemePort (s.map toupper)) ↔
      (uri.host = none → t.port = defaultPort (isHttps s)) := by
  rw [← name, schemePort_name, locationPort, trusts]
  by_cases given : uri.port = 0
  · rw [if_pos given, if_neg (not_not.mpr given)]
    by_cases host : uri.host = none
    · simp [host, eq_comm]
    · simp [host]
  · simp [given, hostless given]

/-- A redirection leads where the location says exactly when the two requests agree on it. -/
theorem redirection_target_iff (request : WSRequest) (answer : Answer) (t : Target) :
    (redirection request answer).target = t.resolve (URI.parse answer.location) ↔
      t.Agrees request (URI.parse answer.location) := by
  have hostless := URI.parse_port answer.location
  rw [redirection_parts]
  generalize URI.parse answer.location = uri at hostless
  obtain ⟨-, server, secure, port⟩ := redirected_parts request uri
  rw [target, server, secure, port]
  have servers := server_iff request t uri
  cases hs : uri.scheme with
  | none =>
    simp only [Option.map_none, Option.getD_none, if_true, Target.resolve, hs, Target.mk.injEq,
      servers]
    constructor
    · rintro ⟨scheme, server, port⟩
      exact ⟨server, fun _ => scheme.symm, by simp [hs],
        fun _ => by simp [Target.resolve, hs, port], fun given => absurd hs given⟩
    · intro h
      have kept := h.kept hs
      simp only [Target.resolve, hs, Option.map_none, Option.getD_none] at kept
      exact ⟨(h.scheme hs).symm, h.server, kept⟩
  | some s =>
    have trusts : trusted uri = isHttps s := by
      rw [trusted, hs]
      rfl
    have given : uri.port ≠ 0 → uri.host ≠ none := fun some_ none => some_ (hostless none)
    simp only [Option.map_some, Option.getD_some, reduceCtorEq, if_false, Target.resolve, hs,
      Target.mk.injEq, servers]
    constructor
    · rintro ⟨name, server, port⟩
      have default := (locationPort_iff given trusts name t).mp port
      refine ⟨server, by simp [hs], ?_, by simp [hs], ?_⟩
      · intro s' same
        rw [hs] at same
        cases same
        exact (schemeName_iff s).mp name
      · intro _ host
        rw [trusts]
        exact default host
    · intro h
      have name := (schemeName_iff s).mpr (h.named s hs)
      have default := h.default (by simp [hs])
      rw [trusts] at default
      exact ⟨name, h.server, (locationPort_iff given trusts name t).mpr default⟩

theorem init_getElem_succ (request : WSRequest) (maxRedirs : Int)
    (trustedLocation followAny : Bool) (answers : Nat → Answer) (i : Nat) (r : WSRequest) :
    (init request maxRedirs trustedLocation followAny answers)[i + 1]? = some r ↔
      (i : Int) < maxRedirs ∧
        (∀ j, j ≤ i → Follows request trustedLocation followAny (answers j)) ∧
        r = redirection request (answers i) := by
  rw [init, List.getElem?_cons_succ, redirLoop_getElem]
  constructor
  · rintro ⟨less, all, same⟩
    exact ⟨by omega, all, same⟩
  · rintro ⟨less, all, same⟩
    exact ⟨by omega, all, same⟩

/-- A chain leads where its locations say exactly when the initial request agrees, on every
location that is followed, with the request that the location answers. -/
theorem targets_follow_iff (request : WSRequest) (maxRedirs : Int)
    (trustedLocation followAny : Bool) (answers : Nat → Answer) :
    TargetsFollow answers (init request maxRedirs trustedLocation followAny answers) ↔
      ∀ i : Nat, (i : Int) < maxRedirs →
        (∀ j, j ≤ i → Follows request trustedLocation followAny (answers j)) →
        (targets request answers i).Agrees request (URI.parse (answers i).location) := by
  have later := init_getElem_succ request maxRedirs trustedLocation followAny answers
  constructor
  · intro follow
    -- up to the hop in question the targets are those of the requests
    have reached : ∀ i r, (init request maxRedirs trustedLocation followAny answers)[i]? = some r →
        r.target = targets request answers i := by
      intro i
      induction i with
      | zero =>
        intro r found
        cases found
        rfl
      | succ i ih =>
        intro r found
        obtain ⟨less, all, -⟩ := (later i r).mp found
        cases i with
        | zero => exact follow 0 request r rfl found
        | succ i =>
          have before := (later i _).mpr ⟨by omega, fun j le => all j (by omega), rfl⟩
          rw [follow (i + 1) _ r before found, ih _ before]
          rfl
    intro i less all
    have next := (later i _).mpr ⟨less, all, rfl⟩
    rw [← redirection_target_iff]
    exact reached (i + 1) _ next
  · intro agree
    have reached : ∀ i r, (init request maxRedirs trustedLocation followAny answers)[i]? = some r →
        r.target = targets request answers i := by
      intro i r found
      cases i with
      | zero =>
        cases found
        rfl
      | succ i =>
        obtain ⟨less, all, rfl⟩ := (later i r).mp found
        exact (redirection_target_iff request (answers i) _).mpr (agree i less all)
    intro i r r' found next
    rw [reached i r found, reached (i + 1) r' next, targets]

/-- A request in clear to the first server of a chain. -/
def firstRequest : WSRequest :=
  { server := ascii "h1", port := 80, timeout := 60000, secureUri := false
    serviceUrl := ascii "/", serviceMethod := .get, charset := ascii "utf-8", accept := []
    contentType := .form, contentTypeStr := [], contentData := [], headers := [], userAgent := [] }

/-- The first server sends the client to a second one, which sends it to a path. -/
def sentAway (i : Nat) : Answer :=
  ⟨302, if i = 0 then ascii "http://h2/a" else ascii "/b"⟩

/-- The path is asked of the first server. -/
theorem path_asked_of_first :
    (init firstRequest 2 false true sentAway).map (fun r => r.target.server) =
        [ascii "h1", ascii "h2", ascii "h1"] ∧
      ¬ ∀ (request : WSRequest) (maxRedirs : Int) (trustedLocation followAny : Bool)
        (answers : Nat → Answer),
        TargetsFollow answers (init request maxRedirs trustedLocation followAny answers) := by
  have servers : (init firstRequest 2 false true sentAway).map (fun r => r.target.server) =
      [ascii "h1", ascii "h2", ascii "h1"] := by decide
  refine ⟨servers, ?_⟩
  intro claimed
  have last := claimed firstRequest 2 false true sentAway 1
    (redirection firstRequest (sentAway 0)) (redirection firstRequest (sentAway 1))
    (by decide) (by decide)
  revert last
  decide

end WSResponse

end CppMyth
