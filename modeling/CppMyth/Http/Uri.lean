import CppMyth.Proto.Base

/-! The URI parser of `uriparser.cpp`. It cuts one buffer in place, so a part is the text from
its pointer up to the first NUL that was written after it. -/
namespace CppMyth
open ProtoBase (cstr)

def toupper (c : UInt8) : UInt8 := if 97 ≤ c ∧ c ≤ 122 then c - 32 else c

/-- `URI_t`, where a null pointer is `none`. -/
structure URI where
  scheme : Option (List UInt8)
  host : Option (List UInt8)
  port : Nat
  user : Option (List UInt8)
  pass : Option (List UInt8)
  absolute : Option (List UInt8)
  relative : Option (List UInt8)
  fragment : Option (List UInt8)
  params : Option (List UInt8)
  deriving DecidableEq, Repr

namespace URI

/-- strchr, with the NUL written over the byte found: the text before it and the one after. -/
def cutAt (c : UInt8) : List UInt8 → List UInt8 × Option (List UInt8)
  | [] => ([], none)
  | b :: rest =>
    if b = c then ([], some rest)
    else
      let r := cutAt c rest
      (b :: r.1, r.2)

theorem cutAt_none {c : UInt8} {text : List UInt8} (absent : c ∉ text) :
    cutAt c text = (text, none) := by
  induction text with
  | nil => rfl
  | cons b text ih =>
    rw [List.mem_cons, not_or] at absent
    simp only [cutAt, if_neg (Ne.symm absent.1), ih absent.2]

theorem cutAt_some {c : UInt8} {front : List UInt8} (absent : c ∉ front) (rest : List UInt8) :
    cutAt c (front ++ c :: rest) = (front, some rest) := by
  induction front with
  | nil => simp [cutAt]
  | cons b front ih =>
    rw [List.mem_cons, not_or] at absent
    simp only [List.cons_append, cutAt, if_neg (Ne.symm absent.1), ih absent.2]

/-- `(unsigned) atoi`, the long that strtol gives cut to 32 bits. -/
def atoi (text : List UInt8) : Nat :=
  let text := text.dropWhile isspace
  let negative := text.head? = some 45
  let digits := (if negative ∨ text.head? = some 43 then text.tail else text).takeWhile isdigit
  let value := digits.foldl (fun n c => n * 10 + (c.toNat - 48)) 0
  if negative then (-(min value (2 ^ 63) : Int) % 2 ^ 32).toNat
  else min value (2 ^ 63 - 1) % 2 ^ 32

/-- The loop that looks for a scheme. -/
def schemeLoop : List UInt8 → Option (List UInt8 × List UInt8)
  | [] => none
  | b :: rest =>
    if b = 47 ∨ b = 35 ∨ b = 63 then none
    else if b = 58 then some ([], rest)
    else (schemeLoop rest).map fun r => (b :: r.1, r.2)

/-- The scheme and what follows it. IETF's `URL:` pre-prefix is ignored. -/
def scanScheme (uri : List UInt8) : Option (List UInt8) × List UInt8 :=
  match schemeLoop uri with
  | none => (none, uri)
  | some (scheme, rest) =>
    if (scheme.take 3).map toupper = ascii "URL" then (none, rest) else (some scheme, rest)

/-- The host and its port. The first byte of a host that a bracket ends is passed over. -/
def scanPort (host : List UInt8) : List UInt8 × Nat :=
  match cutAt 93 host with
  | ([], some rest) => (rest, if rest.head? = some 58 then atoi rest.tail else 0)
  | (_ :: inner, some rest) => (inner, if rest.head? = some 58 then atoi rest.tail else 0)
  | (host, none) =>
    match cutAt 58 host with
    | (host, some port) => (host, atoi port)
    | (host, none) => (host, 0)

def scanAuthority (uri : URI) (authority : List UInt8) : URI :=
  match cutAt 64 authority with
  | (login, some rest) =>
    let host := scanPort rest
    { uri with
      user := (cutAt 58 login).1, pass := (cutAt 58 login).2, host := host.1, port := host.2 }
  | (authority, none) =>
    let host := scanPort authority
    { uri with host := host.1, port := host.2 }

/-- What follows the scheme: a host and a root, a root alone, or a relative path. -/
def scanPath (uri : URI) : List UInt8 → URI
  | 47 :: 47 :: rest =>
    let r := cutAt 47 rest
    { uri.scanAuthority r.1 with absolute := r.2 }
  | 47 :: rest => { uri with absolute := some rest }
  | [] => uri
  | rest => { uri with relative := some rest }

/-- The path is cut at the fragment. The params are looked for after the fragment, if any. -/
def scanParams (uri : URI) : URI :=
  let path := (uri.relative.or uri.absolute).getD []
  let f := cutAt 35 path
  let q := cutAt 63 (f.2.getD f.1)
  let path := if f.2.isSome then f.1 else q.1
  { uri with
    relative := uri.relative.map fun _ => path
    absolute := if uri.relative.isSome then uri.absolute else uri.absolute.map fun _ => path
    fragment := f.2.map fun _ => q.1
    params := q.2 }

/-- The constructor, on a copy of the location up to its first NUL. -/
def parse (location : List UInt8) : URI :=
  -- space is not allowed, therefore break on space
  let r := scanScheme (cutAt 32 (cstr location)).1
  (scanPath ⟨r.1, none, 0, none, none, none, none, none, none⟩ r.2).scanParams

def path (uri : URI) : Option (List UInt8) := uri.relative.or uri.absolute

@[simp] theorem scanParams_scheme (uri : URI) : uri.scanParams.scheme = uri.scheme := rfl
@[simp] theorem scanParams_host (uri : URI) : uri.scanParams.host = uri.host := rfl
@[simp] theorem scanParams_port (uri : URI) : uri.scanParams.port = uri.port := rfl

theorem parse_port (location : List UInt8) (none : (parse location).host = none) :
    (parse location).port = 0 := by
  unfold parse at none ⊢
  simp only [scanParams_host, scanParams_port] at none ⊢
  generalize (scanScheme (cutAt 32 (cstr location)).1) = r at none ⊢
  unfold scanPath at none ⊢
  split at none
  · simp only [scanAuthority] at none
    split at none <;> cases none
  · rfl
  · rfl
  · rfl

example : parse (ascii "https://me:pw@[::1]:6544/a/b#c?d e") =
    ⟨some (ascii "https"), some (ascii "::1"), 6544, some (ascii "me"), some (ascii "pw"),
      some (ascii "a/b"), none, some (ascii "c"), some (ascii "d")⟩ := by decide

end URI

end CppMyth
