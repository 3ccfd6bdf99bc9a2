import CppMyth.Http.Uri
import CppMyth.Builtin.Numerals
import CppMyth.Proto.Fields

/-! The URIs of the generic form, and what the parser reports of their parts. -/
namespace CppMyth
open ProtoBase (cstr cstr_of_not_mem)

/-- A part of a URI: some text, without the delimiters that would end it. -/
def Free (delimiters : String) (text : List UInt8) : Prop :=
  text ≠ [] ∧ ∀ c ∈ text, c ≠ 0 ∧ c ≠ 32 ∧ c ∉ ascii delimiters

instance (delimiters : String) (text : List UInt8) : Decidable (Free delimiters text) :=
  inferInstanceAs (Decidable (_ ∧ _))

theorem Free.absent {delimiters : String} {text : List UInt8} (free : Free delimiters text)
    {c : UInt8} (ends : c = 0 ∨ c = 32 ∨ c ∈ ascii delimiters) : c ∉ text := by
  intro there
  obtain ⟨nul, space, delimiter⟩ := free.2 c there
  exact ends.elim nul fun ends => ends.elim space delimiter

/-- `scheme://[user[:pass]@]host[:port][/path][?query][#fragment]`. A host in brackets may hold
colons; its text is what the brackets enclose. -/
structure UriParts where
  scheme : List UInt8
  user : Option (List UInt8)
  pass : Option (List UInt8)
  bracketed : Bool
  host : List UInt8
  port : Option (List UInt8)
  path : Option (List UInt8)
  query : Option (List UInt8)
  fragment : Option (List UInt8)
  scheme_free : Free ":/?#" scheme
  scheme_other : (scheme.take 3).map toupper ≠ ascii "URL"
  user_free : ∀ text ∈ user, Free ":@/?#" text
  pass_free : ∀ text ∈ pass, Free "@/?#" text
  pass_user : pass.isSome → user.isSome
  host_free : Free (if bracketed then "@/?#[]" else ":@/?#[]") host
  port_digits : ∀ text ∈ port, text ≠ [] ∧ ∀ c ∈ text, isdigit c = true
  path_free : ∀ text ∈ path, Free "?#" text
  query_free : ∀ text ∈ query, Free "#" text
  fragment_free : ∀ text ∈ fragment, Free "" text

namespace UriParts

def behind (mark : UInt8) : Option (List UInt8) → List UInt8
  | some text => mark :: text
  | none => []

def login (u : UriParts) : List UInt8 :=
  match u.user with
  | some user => user ++ behind 58 u.pass ++ [64]
  | none => []

def server (u : UriParts) : List UInt8 :=
  (if u.bracketed then 91 :: (u.host ++ [93]) else u.host) ++ behind 58 u.port

def tail (u : UriParts) : List UInt8 := behind 63 u.query ++ behind 35 u.fragment

def text (u : UriParts) : List UInt8 :=
  u.scheme ++ 58 :: 47 :: 47 :: (u.login ++ u.server ++ (behind 47 u.path ++ u.tail))

/-- Every part is reported as its text, the port as its number, and no other part. -/
structure Reported (u : UriParts) (uri : URI) : Prop where
  scheme : uri.scheme = some u.scheme
  user : uri.user = u.user
  pass : uri.pass = u.pass
  host : uri.host = some u.host
  port : uri.port = (u.port.map digitsValue).getD 0
  path : uri.path = u.path
  params : uri.params = u.query
  fragment : uri.fragment = u.fragment

/-- The number of the port fits, there is a path where there is a query or a fragment, there
are not both, and there is no question mark in the fragment. -/
structure Kept (u : UriParts) : Prop where
  port : ∀ text ∈ u.port, digitsValue text < 2 ^ 32
  path : u.path = none → u.query = none ∧ u.fragment = none
  one : u.query = none ∨ u.fragment = none
  plain : ∀ text ∈ u.fragment, 63 ∉ text

section Absent

theorem behind_absent {mark c : UInt8} {part : Option (List UInt8)} (other : c ≠ mark)
    (absent : ∀ text ∈ part, c ∉ text) : c ∉ behind mark part := by
  cases part with
  | none => exact List.not_mem_nil
  | some text => exact fun there => (List.mem_cons.mp there).elim other (absent text rfl)

theorem cutAt_behind {mark : UInt8} {front : List UInt8} (absent : mark ∉ front)
    (part : Option (List UInt8)) : URI.cutAt mark (front ++ behind mark part) = (front, part) := by
  cases part with
  | none => simpa [behind] using URI.cutAt_none absent
  | some text => exact URI.cutAt_some absent text

theorem query_absent {path : List UInt8} (free : Free "?#" path) {query : Option (List UInt8)}
    (plain : ∀ text ∈ query, Free "#" text) : (35 : UInt8) ∉ path ++ behind 63 query := by
  rw [List.mem_append, not_or]
  refine ⟨free.absent (by decide), behind_absent (by decide) ?_⟩
  exact fun text is => (plain text is).absent (by decide)

variable (u : UriParts) {c : UInt8}

theorem login_absent (ends : c = 0 ∨ c = 32 ∨ c = 47) : c ∉ u.login := by
  unfold login
  cases name : u.user with
  | none => exact List.not_mem_nil
  | some user =>
    have free := u.user_free user name
    have outside : c ∉ user ∧ c ∉ behind 58 u.pass ∧ c ≠ 64 := by
      refine ⟨free.absent ?_, behind_absent ?_ fun pass is => (u.pass_free pass is).absent ?_, ?_⟩
      all_goals rcases ends with rfl | rfl | rfl <;> decide
    simp [outside]

theorem server_absent (ends : c = 0 ∨ c = 32 ∨ c = 47 ∨ c = 64) : c ∉ u.server := by
  have host : c ∉ u.host := by
    have free := u.host_free
    split at free <;> apply free.absent <;> rcases ends with rfl | rfl | rfl | rfl <;> decide
  have port : c ∉ behind 58 u.port := by
    refine behind_absent ?_ fun digits is => not_mem_of_isdigit (u.port_digits digits is).2 ?_
    all_goals rcases ends with rfl | rfl | rfl | rfl <;> decide
  have brackets : c ≠ 91 ∧ c ≠ 93 := by
    rcases ends with rfl | rfl | rfl | rfl <;> decide
  unfold server
  split <;> simp [host, port, brackets]

theorem text_clean (ends : c = 0 ∨ c = 32) : c ∉ u.text := by
  have marks : c ≠ 58 ∧ c ≠ 47 ∧ c ≠ 63 ∧ c ≠ 35 := by rcases ends with rfl | rfl <;> decide
  have free : ∀ {delimiters : String} {part : List UInt8}, Free delimiters part → c ∉ part :=
    fun part => part.absent (ends.imp_right Or.inl)
  have login : c ∉ u.login := u.login_absent (ends.imp_right Or.inl)
  have server : c ∉ u.server := u.server_absent (ends.imp_right Or.inl)
  have path := behind_absent marks.2.1 fun part is => free (u.path_free part is)
  have query := behind_absent marks.2.2.1 fun part is => free (u.query_free part is)
  have fragment := behind_absent marks.2.2.2 fun part is => free (u.fragment_free part is)
  simp [text, tail, free u.scheme_free, marks, login, server, path, query, fragment]

end Absent

end UriParts

namespace URI

theorem atoi_digits {digits : List UInt8} (some : digits ≠ [])
    (numeral : ∀ c ∈ digits, isdigit c = true) :
    atoi digits = min (digitsValue digits) (2 ^ 63 - 1) % 2 ^ 32 := by
  obtain ⟨c, rest, rfl⟩ := List.exists_cons_of_ne_nil some
  have first := isdigit_plain (numeral c (List.mem_cons_self ..))
  have plus : c ≠ 43 := by
    rintro rfl
    exact absurd (numeral 43 (List.mem_cons_self ..)) (by decide)
  have blank : (c :: rest).dropWhile isspace = c :: rest :=
    List.dropWhile_cons_of_neg (by simp [first.1])
  have digits : (c :: rest).takeWhile isdigit = c :: rest :=
    List.takeWhile_eq_self_iff.mpr numeral
  simp only [atoi, blank, List.head?_cons, Option.some.injEq, first.2.1, plus, or_self, if_false,
    digits]
  rfl

end URI

namespace UriParts

theorem scanPort_server (u : UriParts) :
    URI.scanPort u.server = (u.host, (u.port.map URI.atoi).getD 0) := by
  unfold server URI.scanPort
  cases bracket : u.bracketed with
  | true =>
    have free := u.host_free
    rw [bracket, if_pos rfl] at free
    have inner : 93 ∉ 91 :: u.host := by
      simp [free.absent (c := 93) (by decide)]
    have text : (91 :: (u.host ++ [93])) ++ behind 58 u.port =
        (91 :: u.host) ++ 93 :: behind 58 u.port := by simp
    rw [if_pos rfl, text, URI.cutAt_some inner]
    cases u.port <;> simp [behind]
  | false =>
    have free := u.host_free
    rw [bracket, if_neg Bool.false_ne_true] at free
    have open_ : 93 ∉ u.host ++ behind 58 u.port := by
      have port : 93 ∉ behind 58 u.port :=
        behind_absent (by decide) fun digits is =>
          not_mem_of_isdigit (u.port_digits digits is).2 (by decide)
      simp [free.absent (c := 93) (by decide), port]
    have colon : (58 : UInt8) ∉ u.host := free.absent (by decide)
    rw [if_neg Bool.false_ne_true, URI.cutAt_none open_]
    simp only [cutAt_behind colon]
    cases u.port <;> rfl

theorem scanAuthority_parts (u : UriParts) (uri : URI) (user : uri.user = none)
    (pass : uri.pass = none) :
    uri.scanAuthority (u.login ++ u.server) = { uri with
      user := u.user, pass := u.pass, host := some u.host
      port := (u.port.map URI.atoi).getD 0 } := by
  have at_ : (64 : UInt8) ∉ u.server := u.server_absent (by decide)
  unfold URI.scanAuthority login
  cases name : u.user with
  | none =>
    have alone : u.pass = none := by
      cases hp : u.pass with
      | none => rfl
      | some _ => exact absurd (u.pass_user (by simp [hp])) (by simp [name])
    rw [List.nil_append, URI.cutAt_none at_]
    simp only [scanPort_server, alone, user, pass]
  | some text =>
    have free := u.user_free text name
    have front : (64 : UInt8) ∉ text ++ behind 58 u.pass := by
      rw [List.mem_append, not_or]
      refine ⟨free.absent (by decide), behind_absent (by decide) ?_⟩
      exact fun pass is => (u.pass_free pass is).absent (by decide)
    have colon : (58 : UInt8) ∉ text := free.absent (by decide)
    have split : text ++ behind 58 u.pass ++ [64] ++ u.server =
        (text ++ behind 58 u.pass) ++ 64 :: u.server := by simp
    rw [split, URI.cutAt_some front]
    simp only [scanPort_server, cutAt_behind colon]

theorem scanScheme_parts (u : UriParts) (rest : List UInt8) :
    URI.scanScheme (u.scheme ++ 58 :: rest) = (some u.scheme, rest) := by
  have found : ∀ front : List UInt8, (∀ c ∈ front, c ≠ 47 ∧ c ≠ 35 ∧ c ≠ 63 ∧ c ≠ 58) →
      URI.schemeLoop (front ++ 58 :: rest) = some (front, rest) := by
    intro front plain
    induction front with
    | nil => simp [URI.schemeLoop]
    | cons c front ih =>
      have here := plain c (List.mem_cons_self ..)
      have later := ih fun d hd => plain d (List.mem_cons_of_mem c hd)
      simp [URI.schemeLoop, here, later]
  have absent : ∀ c ∈ ascii ":/?#", c ∉ u.scheme := fun c ends =>
    u.scheme_free.absent (Or.inr (Or.inr ends))
  rw [URI.scanScheme, found u.scheme]
  · simp only [if_neg u.scheme_other]
  · intro c hc
    refine ⟨?_, ?_, ?_, ?_⟩ <;> rintro rfl <;> exact absent _ (by decide) hc

def located (u : UriParts) : List UInt8 := u.login ++ u.server ++ (behind 47 u.path ++ u.tail)

theorem parse_text (u : UriParts) :
    URI.parse u.text =
      ({ URI.scanAuthority ⟨some u.scheme, none, 0, none, none, none, none, none, none⟩
          (URI.cutAt 47 u.located).1 with
        absolute := (URI.cutAt 47 u.located).2 } : URI).scanParams := by
  have nul : 0 ∉ u.text := u.text_clean (Or.inl rfl)
  have space : 32 ∉ u.text := u.text_clean (Or.inr rfl)
  rw [URI.parse, cstr_of_not_mem nul, URI.cutAt_none space, text, scanScheme_parts]
  rfl

theorem parse_rooted (u : UriParts) (rooted : u.path = none → u.tail = []) :
    URI.parse u.text =
      (⟨some u.scheme, some u.host, (u.port.map URI.atoi).getD 0, u.user, u.pass,
        u.path.map (· ++ u.tail), none, none, none⟩ : URI).scanParams := by
  have slash : (47 : UInt8) ∉ u.login ++ u.server := by
    simp [u.login_absent (c := 47) (by decide), u.server_absent (c := 47) (by decide)]
  have cut : URI.cutAt 47 u.located = (u.login ++ u.server, u.path.map (· ++ u.tail)) := by
    unfold located
    cases path : u.path with
    | none =>
      simp only [behind, rooted path, List.append_nil, Option.map_none]
      exact URI.cutAt_none slash
    | some text => exact URI.cutAt_some slash _
  rw [parse_text, cut, scanAuthority_parts u _ rfl rfl]

theorem parse_rootless (u : UriParts) (path : (URI.parse u.text).path = none) :
    (URI.parse u.text).params = none ∧ (URI.parse u.text).fragment = none := by
  rw [parse_text] at path ⊢
  have relative : ∀ (uri : URI) (authority : List UInt8),
      (uri.scanAuthority authority).relative = uri.relative := by
    intro uri authority
    unfold URI.scanAuthority
    split <;> rfl
  have absolute : (URI.cutAt 47 u.located).2 = none := by
    simpa [URI.path, URI.scanParams, relative] using path
  simp [URI.scanParams, relative, absolute, URI.cutAt]

theorem scanParams_query {uri : URI} (relative : uri.relative = none) {path : List UInt8}
    (free : Free "?#" path) {query : Option (List UInt8)}
    (plain : ∀ text ∈ query, Free "#" text)
    (absolute : uri.absolute = some (path ++ behind 63 query)) :
    uri.scanParams.path = some path ∧ uri.scanParams.params = query ∧
      uri.scanParams.fragment = none := by
  have hash := URI.cutAt_none (query_absent free plain)
  have mark : (63 : UInt8) ∉ path := free.absent (by decide)
  simp [URI.scanParams, URI.path, relative, absolute, hash, cutAt_behind mark]

theorem scanParams_fragment {uri : URI} (relative : uri.relative = none) {front : List UInt8}
    (plain : (35 : UInt8) ∉ front) {fragment : List UInt8}
    (absolute : uri.absolute = some (front ++ 35 :: fragment)) :
    uri.scanParams.path = some front ∧ uri.scanParams.params = (URI.cutAt 63 fragment).2 ∧
      uri.scanParams.fragment = some (URI.cutAt 63 fragment).1 := by
  simp [URI.scanParams, URI.path, relative, absolute, URI.cutAt_some plain]

theorem cutAt_whole_iff {c : UInt8} {text : List UInt8} :
    ((URI.cutAt c text).2 = none ∧ (URI.cutAt c text).1 = text) ↔ c ∉ text := by
  constructor
  · rintro ⟨uncut, -⟩ there
    obtain ⟨front, back, rfl, absent⟩ := List.eq_append_cons_of_mem there
    rw [URI.cutAt_some absent] at uncut
    cases uncut
  · intro absent
    rw [URI.cutAt_none absent]
    exact ⟨rfl, rfl⟩

theorem port_iff (u : UriParts) :
    (u.port.map URI.atoi).getD 0 = (u.port.map digitsValue).getD 0 ↔
      ∀ text ∈ u.port, digitsValue text < 2 ^ 32 := by
  have digits := u.port_digits
  cases port : u.port with
  | none => simp
  | some text =>
    obtain ⟨some, numeral⟩ := digits text port
    simp only [Option.map_some, Option.getD_some, Option.mem_some_iff, forall_eq',
      URI.atoi_digits some numeral]
    omega

theorem behind_server_iff (u : UriParts) (uri : URI) {path : List UInt8}
    (is : u.path = some path) (relative : uri.relative = none)
    (absolute : uri.absolute = some (path ++ u.tail)) :
    (uri.scanParams.path = u.path ∧ uri.scanParams.params = u.query ∧
        uri.scanParams.fragment = u.fragment) ↔
      (u.query = none ∨ u.fragment = none) ∧ ∀ text ∈ u.fragment, 63 ∉ text := by
  have free := u.path_free path is
  unfold tail at absolute
  cases hf : u.fragment with
  | none =>
    simp only [hf, behind, List.append_nil] at absolute
    rw [is]
    simpa using scanParams_query relative free u.query_free absolute
  | some fragment =>
    rw [hf, behind, ← List.append_assoc] at absolute
    obtain ⟨left, params, rest⟩ :=
      scanParams_fragment relative (query_absent free u.query_free) absolute
    rw [left, params, rest, is]
    cases u.query with
    | none => simp [behind, cutAt_whole_iff]
    | some query => simp [behind]

theorem rooted_reported_iff (u : UriParts)
    (rooted : u.path = none → u.query = none ∧ u.fragment = none) :
    u.Reported (URI.parse u.text) ↔ (∀ text ∈ u.port, digitsValue text < 2 ^ 32) ∧
      (u.query = none ∨ u.fragment = none) ∧ ∀ text ∈ u.fragment, 63 ∉ text := by
  have ends : u.path = none → u.tail = [] := by
    intro none
    obtain ⟨query, fragment⟩ := rooted none
    rw [tail, query, fragment]
    rfl
  rw [← port_iff, u.parse_rooted ends]
  cases path : u.path with
  | none =>
    obtain ⟨query, fragment⟩ := rooted path
    simp only [query, fragment, true_or, Option.not_mem_none, false_imp_iff, implies_true,
      and_true]
    constructor
    · intro reported
      exact reported.port
    · intro port
      exact ⟨rfl, rfl, rfl, rfl, port, path.symm, query.symm, fragment.symm⟩
  | some text =>
    rw [← u.behind_server_iff ⟨some u.scheme, some u.host, (u.port.map URI.atoi).getD 0, u.user,
      u.pass, some (text ++ u.tail), none, none, none⟩ path rfl rfl]
    constructor
    · intro reported
      exact ⟨reported.port, reported.path, reported.params, reported.fragment⟩
    · rintro ⟨port, path, params, fragment⟩
      exact ⟨rfl, rfl, rfl, rfl, port, path, params, fragment⟩

/-- Each part of a URI is reported as its own text exactly where no query and no fragment stand
without a path, not both stand, the fragment has no question mark and the port is a number of
32 bits. -/
theorem parts_reported_iff (u : UriParts) : u.Reported (URI.parse u.text) ↔ u.Kept := by
  constructor
  · intro reported
    have rooted : u.path = none → u.query = none ∧ u.fragment = none := by
      intro none
      rw [← reported.params, ← reported.fragment]
      exact u.parse_rootless (reported.path.trans none)
    obtain ⟨port, one, plain⟩ := (u.rooted_reported_iff rooted).mp reported
    exact ⟨port, rooted, one, plain⟩
  · intro kept
    exact (u.rooted_reported_iff kept.path).mpr ⟨kept.port, kept.one, kept.plain⟩

/-- `http://h/p?q#f`. -/
def queryAndFragment : UriParts where
  scheme := ascii "http"
  user := none
  pass := none
  bracketed := false
  host := ascii "h"
  port := none
  path := some (ascii "p")
  query := some (ascii "q")
  fragment := some (ascii "f")
  scheme_free := by decide +kernel
  scheme_other := by decide
  user_free := by simp
  pass_free := by simp
  pass_user := by simp
  host_free := by decide +kernel
  port_digits := by simp
  path_free := by decide +kernel
  query_free := by decide +kernel
  fragment_free := by decide +kernel

/-- The query stays in the path. -/
theorem query_in_path : ¬ ∀ u : UriParts, u.Reported (URI.parse u.text) := by
  intro claim
  have found : (URI.parse queryAndFragment.text).path = some (ascii "p?q") := by decide
  have reported := (claim queryAndFragment).path
  rw [found] at reported
  exact absurd reported (by decide)

end UriParts

end CppMyth
