import CppMyth.Http.Content

/-! The percent codings of `uriencoder.cpp`, of a path and of a parameter, with the hex
conversions of `builtin.c`. The decoders move a pointer over a C string, and may move it over
the NUL at its end: they have no result then. -/
namespace CppMyth
open ProtoBase (cstr)
open WSResponse (isxdigit xdigit)

/-- The loop of `hex_to_num`. It gets two bytes at most, so the value stays small. -/
def hexToNumLoop (val : Nat) : List UInt8 → Except ParseError Nat
  | [] => .ok val
  | c :: str => if isxdigit c then hexToNumLoop (val * 16 + xdigit c) str else .error .EINVAL

def hexToNum (str : List UInt8) : Except ParseError Nat := hexToNumLoop 0 str

/-- The table `g` of `char_to_uhex`. -/
def uhexDigit (d : Nat) : UInt8 := if d < 10 then UInt8.ofNat (48 + d) else UInt8.ofNat (55 + d)

/-- The argument is a `char`, which a shift promotes to an `int` with its sign. -/
def charToUhex (c : Int8) : List UInt8 :=
  [uhexDigit ((0xf : Int32) &&& (c.toInt32 >>> 4)).toNatClampNeg,
    uhexDigit ((0xf : Int32) &&& c.toInt32).toNatClampNeg]

def uriPcharTable : List Nat := [
  0, 0, 0, 0, 0, 0, 0, 0, 0, 0, 0, 0, 0, 0, 0, 0,
  0, 0, 0, 0, 0, 0, 0, 0, 0, 0, 0, 0, 0, 0, 0, 0,
  0, 1, 0, 0, 1, 1, 1, 1, 1, 1, 1, 1, 1, 1, 1, 1,
  1, 1, 1, 1, 1, 1, 1, 1, 1, 1, 1, 1, 0, 1, 0, 0,
  1, 1, 1, 1, 1, 1, 1, 1, 1, 1, 1, 1, 1, 1, 1, 1,
  1, 1, 1, 1, 1, 1, 1, 1, 1, 1, 1, 1, 0, 1, 0, 1,
  0, 1, 1, 1, 1, 1, 1, 1, 1, 1, 1, 1, 1, 1, 1, 1,
  1, 1, 1, 1, 1, 1, 1, 1, 1, 1, 1, 0, 1, 0, 1, 0]

def uriUcharTable : List Nat := [
  0, 0, 0, 0, 0, 0, 0, 0, 0, 0, 0, 0, 0, 0, 0, 0,
  0, 0, 0, 0, 0, 0, 0, 0, 0, 0, 0, 0, 0, 0, 0, 0,
  0, 0, 0, 0, 0, 0, 0, 0, 0, 0, 0, 0, 0, 1, 1, 0,
  1, 1, 1, 1, 1, 1, 1, 1, 1, 1, 0, 0, 0, 0, 0, 0,
  0, 1, 1, 1, 1, 1, 1, 1, 1, 1, 1, 1, 1, 1, 1, 1,
  1, 1, 1, 1, 1, 1, 1, 1, 1, 1, 1, 0, 0, 0, 0, 1,
  0, 1, 1, 1, 1, 1, 1, 1, 1, 1, 1, 1, 1, 1, 1, 1,
  1, 1, 1, 1, 1, 1, 1, 1, 1, 1, 1, 0, 0, 0, 1, 0]

def uriLiteral (table : List Nat) (c : UInt8) : Bool := c ≤ 127 && table.getD c.toNat 0 != 0

def encodeByte (table : List Nat) (c : UInt8) : List UInt8 :=
  if uriLiteral table c then [c] else 37 :: charToUhex c.toInt8

/-- The loop of both encoders, up to the terminating NUL. -/
def uriEncode (table : List Nat) (str : List UInt8) : List UInt8 :=
  (cstr str).flatMap (encodeByte table)

def pathencode (str : List UInt8) : List UInt8 := uriEncode uriPcharTable str
def urlencode (str : List UInt8) : List UInt8 := uriEncode uriUcharTable str

/-- The loop of both decoders, `none` where the pointer leaves the string. An escape whose
value is `kept` is not decoded. -/
def uriDecodeLoop (kept : Nat → Bool) : List UInt8 → Option (List UInt8)
  | [] => some []
  | c :: str =>
    if c = 37 then
      match hexToNum (str.take 2) with
      | .ok v =>
        if kept v then (uriDecodeLoop kept str).map (c :: ·)
        else
          match str with
          | _ :: _ :: str => (uriDecodeLoop kept str).map (UInt8.ofNat v :: ·)
          | _ => none
      | .error _ => (uriDecodeLoop kept str).map (c :: ·)
    else (uriDecodeLoop kept str).map (c :: ·)

/-- The values that `pathdecode` does not decode. -/
def pcharValue (v : Nat) : Bool := !(v > 127 || uriPcharTable.getD v 0 == 0)

def pathdecode (str : List UInt8) : Option (List UInt8) := uriDecodeLoop pcharValue (cstr str)
def urldecode (str : List UInt8) : Option (List UInt8) :=
  uriDecodeLoop (fun _ => false) (cstr str)

/-- The two digits after the percent sign give the value `v`, and `rest` is behind them. -/
def Escape (str : List UInt8) (v : Nat) (rest : List UInt8) : Prop :=
  ∃ a b, str = a :: b :: rest ∧ isxdigit a = true ∧ isxdigit b = true ∧
    xdigit a * 16 + xdigit b = v

/-- The text that a percent-coded one stands for. A percent sign that no escape follows stands
for itself, and what is behind it is read on its own. -/
inductive Decodes (kept : Nat → Bool) : List UInt8 → List UInt8 → Prop where
  | nil : Decodes kept [] []
  | plain {c : UInt8} {str out : List UInt8} : c ≠ 37 → Decodes kept str out →
      Decodes kept (c :: str) (c :: out)
  | escape {v : Nat} {str rest out : List UInt8} : Escape str v rest → kept v = false →
      Decodes kept rest out → Decodes kept (37 :: str) (UInt8.ofNat v :: out)
  | stray {str out : List UInt8} : (∀ v rest, Escape str v rest → kept v = true) →
      Decodes kept str out → Decodes kept (37 :: str) (37 :: out)

def Truncated (str : List UInt8) : Prop :=
  ∃ front tail, str = front ++ 37 :: tail ∧ tail.length ≤ 1 ∧ ∀ c ∈ tail, isxdigit c = true

theorem Escape.unique {str rest rest' : List UInt8} {v v' : Nat} (h : Escape str v rest)
    (h' : Escape str v' rest') : v = v' ∧ rest = rest' := by
  obtain ⟨a, b, rfl, -, -, rfl⟩ := h
  obtain ⟨a', b', same, -, -, rfl⟩ := h'
  cases same
  exact ⟨rfl, rfl⟩

/-- A percent-coded text stands for one text only. -/
theorem Decodes.unique {kept : Nat → Bool} {str out out' : List UInt8} (h : Decodes kept str out)
    (h' : Decodes kept str out') : out = out' := by
  induction h generalizing out' with
  | nil =>
    cases h'
    rfl
  | plain other _ ih =>
    cases h' with
    | plain _ tail => rw [ih tail]
    | escape _ _ _ => exact absurd rfl other
    | stray _ _ => exact absurd rfl other
  | escape found coded _ ih =>
    cases h' with
    | plain other _ => exact absurd rfl other
    | escape found' _ tail =>
      obtain ⟨rfl, rfl⟩ := found.unique found'
      rw [ih tail]
    | stray never _ =>
      rw [never _ _ found] at coded
      cases coded
  | stray never _ ih =>
    cases h' with
    | plain other _ => exact absurd rfl other
    | escape found coded _ =>
      rw [never _ _ found] at coded
      cases coded
    | stray _ tail => rw [ih tail]

section HexPairs

theorem uhexDigit_hex : ∀ d < 16, isxdigit (uhexDigit d) = true ∧ xdigit (uhexDigit d) = d := by
  decide

/-- The masks drop the sign, so the digits are those of the byte. -/
theorem charToUhex_digits (c : UInt8) :
    charToUhex c.toInt8 = [uhexDigit (c.toNat / 16), uhexDigit (c.toNat % 16)] := by
  have all : ∀ i : Fin 256, charToUhex (UInt8.ofFin i).toInt8 =
      [uhexDigit (i.val / 16), uhexDigit (i.val % 16)] := by decide +kernel
  exact all c.toFin

theorem isxdigit_not_percent {c : UInt8} (hex : isxdigit c = true) : c ≠ 37 := by
  rintro rfl
  simp [isxdigit] at hex

/-- What the decoders take for an escape: also a string that ends where its digits should be. -/
theorem hexToNum_take (str : List UInt8) (v : Nat) :
    hexToNum (str.take 2) = .ok v ↔
      (str.length ≤ 1 ∧ (∀ c ∈ str, isxdigit c = true) ∧ (str.map xdigit).sum = v) ∨
      ∃ rest, Escape str v rest := by
  cases str with
  | nil => simp [hexToNum, hexToNumLoop, Escape]
  | cons a str =>
    cases str with
    | nil =>
      by_cases hex : isxdigit a = true
      · simp [hexToNum, hexToNumLoop, Escape, hex]
      · simp [hexToNum, hexToNumLoop, Escape, hex]
    | cons b rest =>
      by_cases first : isxdigit a = true
      · by_cases second : isxdigit b = true
        · simp [hexToNum, hexToNumLoop, Escape, first, second]
        · simp [hexToNum, hexToNumLoop, Escape, first, second]
      · simp [hexToNum, hexToNumLoop, Escape, first]

end HexPairs

section Decoders

variable {kept : Nat → Bool} {c : UInt8} {str out : List UInt8}

theorem xdigit_lt (hex : isxdigit c = true) : xdigit c < 16 := by
  simp only [isxdigit, Bool.or_eq_true, Bool.and_eq_true, decide_eq_true_eq,
    UInt8.le_iff_toNat_le] at hex
  unfold xdigit
  simp only [UInt8.le_iff_toNat_le]
  simp only [UInt8.reduceToNat] at hex ⊢
  split_ifs <;> omega

/-- A percent sign takes the pointer out of the string when its digits are missing. Otherwise
it is an escape that is decoded, or is kept. -/
theorem uriDecodeLoop_percent (kept : Nat → Bool) (short : ∀ v < 16, kept v = false)
    (str : List UInt8) :
    (str.length ≤ 1 ∧ (∀ c ∈ str, isxdigit c = true) ∧
      uriDecodeLoop kept (37 :: str) = none) ∨
    (∃ v rest, Escape str v rest ∧ kept v = false ∧
      uriDecodeLoop kept (37 :: str) = (uriDecodeLoop kept rest).map (UInt8.ofNat v :: ·)) ∨
    ((∀ v rest, Escape str v rest → kept v = true) ∧
      ¬ (str.length ≤ 1 ∧ ∀ c ∈ str, isxdigit c = true) ∧
      uriDecodeLoop kept (37 :: str) = (uriDecodeLoop kept str).map (37 :: ·)) := by
  cases read : hexToNum (str.take 2) with
  | error e =>
    refine .inr (.inr ⟨?_, ?_, ?_⟩)
    · intro v rest escape
      rw [(hexToNum_take str v).mpr (.inr ⟨rest, escape⟩)] at read
      cases read
    · rintro ⟨few, hex⟩
      rw [(hexToNum_take str _).mpr (.inl ⟨few, hex, rfl⟩)] at read
      cases read
    · simp only [uriDecodeLoop, read, if_true]
  | ok v =>
    rcases (hexToNum_take str v).mp read with ⟨few, hex, value⟩ | ⟨rest, escape⟩
    · refine .inl ⟨few, hex, ?_⟩
      cases str with
      | nil =>
        obtain rfl : v = 0 := value.symm
        rw [uriDecodeLoop, if_pos rfl, read]
        simp [short 0 (by decide)]
      | cons a str =>
        have none : str.length = 0 := Nat.le_zero.mp (Nat.le_of_succ_le_succ few)
        obtain rfl : str = [] := List.length_eq_zero_iff.mp none
        obtain rfl : v = xdigit a := by simpa using value.symm
        rw [uriDecodeLoop, if_pos rfl, read]
        simp [short _ (xdigit_lt (hex a (List.mem_singleton_self a)))]
    · have step := escape
      obtain ⟨a, b, rfl, -, -, value⟩ := step
      cases stays : kept v with
      | true =>
        refine .inr (.inr ⟨?_, by simp, ?_⟩)
        · rintro v' rest' ⟨a', b', same, -, -, value'⟩
          obtain ⟨rfl, rfl, rfl⟩ : a = a' ∧ b = b' ∧ rest = rest' := by simpa using same
          rwa [← value', value]
        · simp only [uriDecodeLoop, read, stays, if_true]
      | false =>
        refine .inr (.inl ⟨v, rest, escape, stays, ?_⟩)
        rw [uriDecodeLoop, read]
        simp [stays]

theorem truncated_nil : ¬ Truncated [] := by
  rintro ⟨front, tail, same, -⟩
  simp at same

theorem truncated_cons : Truncated (c :: str) ↔
    (c = 37 ∧ str.length ≤ 1 ∧ ∀ d ∈ str, isxdigit d = true) ∨ Truncated str := by
  constructor
  · rintro ⟨front, tail, same, short, hex⟩
    cases front with
    | nil =>
      obtain ⟨rfl, rfl⟩ := List.cons.inj same
      exact .inl ⟨rfl, short, hex⟩
    | cons d front =>
      obtain ⟨-, rfl⟩ := List.cons.inj same
      exact .inr ⟨front, tail, rfl, short, hex⟩
  · rintro (⟨rfl, short, hex⟩ | ⟨front, tail, rfl, short, hex⟩)
    · exact ⟨[], str, rfl, short, hex⟩
    · exact ⟨c :: front, tail, rfl, short, hex⟩

theorem truncated_plain (plain : c ≠ 37) : Truncated (c :: str) ↔ Truncated str := by
  rw [truncated_cons]
  constructor
  · rintro (⟨percent, -⟩ | tail)
    · exact absurd percent plain
    · exact tail
  · exact .inr

theorem truncated_escape {v : Nat} {rest : List UInt8} (escape : Escape str v rest) :
    Truncated (37 :: str) ↔ Truncated rest := by
  obtain ⟨a, b, rfl, ha, hb, -⟩ := escape
  rw [truncated_cons, truncated_plain (isxdigit_not_percent ha),
    truncated_plain (isxdigit_not_percent hb)]
  constructor
  · rintro (⟨-, short, -⟩ | tail)
    · simp at short
    · exact tail
  · exact .inr

theorem uriDecodeLoop_plain (plain : c ≠ 37) :
    uriDecodeLoop kept (c :: str) = (uriDecodeLoop kept str).map (c :: ·) := by
  rw [uriDecodeLoop, if_neg plain]

/-- The loop leaves the string exactly where the text is cut short, and decodes it elsewhere. -/
def Decided (kept : Nat → Bool) (str : List UInt8) : Prop :=
  (Truncated str ∧ uriDecodeLoop kept str = none) ∨
    (¬ Truncated str ∧ ∃ out, uriDecodeLoop kept str = some out ∧ Decodes kept str out)

theorem Decided.step {rest : List UInt8} (tail : Truncated str ↔ Truncated rest)
    (turn : uriDecodeLoop kept str = (uriDecodeLoop kept rest).map (c :: ·))
    (meaning : ∀ out, Decodes kept rest out → Decodes kept str (c :: out))
    (decided : Decided kept rest) : Decided kept str := by
  rcases decided with ⟨cut, left⟩ | ⟨whole, out, read, means⟩
  · refine .inl ⟨tail.mpr cut, ?_⟩
    rw [turn, left]
    rfl
  · refine .inr ⟨fun cut => whole (tail.mp cut), c :: out, ?_, meaning out means⟩
    rw [turn, read]
    rfl

theorem uriDecodeLoop_decided (kept : Nat → Bool) (short : ∀ v < 16, kept v = false)
    (str : List UInt8) : Decided kept str := by
  induction len : str.length using Nat.strong_induction_on generalizing str with
  | _ n ih =>
    subst len
    cases str with
    | nil => exact .inr ⟨truncated_nil, [], rfl, .nil⟩
    | cons c str =>
      have next : Decided kept str := ih _ (Nat.lt_succ_self _) str rfl
      by_cases percent : c = 37
      · subst percent
        rcases uriDecodeLoop_percent kept short str with ⟨few, hex, left⟩ |
          ⟨v, rest, escape, decoded, turn⟩ | ⟨stray, enough, turn⟩
        · exact .inl ⟨truncated_cons.mpr (.inl ⟨rfl, few, hex⟩), left⟩
        · have shorter : rest.length < (37 :: str).length := by
            obtain ⟨a, b, rfl, -⟩ := escape
            simp only [List.length_cons]
            omega
          exact .step (truncated_escape escape) turn (fun _ => .escape escape decoded)
            (ih _ shorter rest rfl)
        · have tail : Truncated (37 :: str) ↔ Truncated str := by
            rw [truncated_cons]
            exact or_iff_right fun cut => enough cut.2
          exact .step tail turn (fun _ => .stray stray) next
      · exact .step (truncated_plain percent) (uriDecodeLoop_plain percent)
          (fun _ => .plain percent) next

theorem uriDecodeLoop_iff (kept : Nat → Bool) (short : ∀ v < 16, kept v = false)
    (str : List UInt8) :
    (∃ out, uriDecodeLoop kept str = some out ∧ Decodes kept str out) ↔ ¬ Truncated str := by
  rcases uriDecodeLoop_decided kept short str with ⟨cut, left⟩ | ⟨whole, decoded⟩
  · constructor
    · rintro ⟨out, read, -⟩
      rw [left] at read
      cases read
    · exact fun whole => absurd cut whole
  · exact ⟨fun _ => whole, fun _ => decoded⟩

theorem pcharValue_short : ∀ v < 16, pcharValue v = false := by decide

end Decoders

theorem cstr_eq {str : List UInt8} (nul_free : 0 ∉ str) : cstr str = str := by
  apply List.takeWhile_eq_self_iff.mpr
  intro c mem
  have some_byte : c ≠ 0 := fun zero => nul_free (zero ▸ mem)
  simpa using some_byte

/-- Both decoders stay in the string and decode it exactly when it does not end in a percent
sign that has no digit or only one behind it. -/
theorem decoders_stay_iff (str : List UInt8) (nul_free : 0 ∉ str) :
    ((∃ out, urldecode str = some out ∧ Decodes (fun _ => false) str out) ↔ ¬ Truncated str) ∧
    ((∃ out, pathdecode str = some out ∧ Decodes pcharValue str out) ↔ ¬ Truncated str) := by
  rw [urldecode, pathdecode, cstr_eq nul_free]
  constructor
  · exact uriDecodeLoop_iff _ (fun _ _ => rfl) str
  · exact uriDecodeLoop_iff _ pcharValue_short str

/-- A percent sign at the start and one close to the end, both with a bad digit. -/
theorem decoders_stay_stray :
    (∃ out, urldecode (ascii "%zz%2z") = some out ∧
      Decodes (fun _ => false) (ascii "%zz%2z") out) ∧
    (∃ out, pathdecode (ascii "%zz%2z") = some out ∧
      Decodes pcharValue (ascii "%zz%2z") out) := by
  have whole : ¬ Truncated (ascii "%zz%2z") := by
    simp [ascii, truncated_cons, truncated_nil, isxdigit]
  have stay := decoders_stay_iff (ascii "%zz%2z") (by simp [ascii])
  exact ⟨stay.1.mpr whole, stay.2.mpr whole⟩

/-- A percent sign at the end takes the pointer over the terminating NUL. -/
theorem percent_at_end_leaves :
    ¬ ∀ str : List UInt8, 0 ∉ str →
      (∃ out, urldecode str = some out ∧ Decodes (fun _ => false) str out) ∧
      (∃ out, pathdecode str = some out ∧ Decodes pcharValue str out) := by
  intro stays
  obtain ⟨⟨out, read, -⟩, -⟩ := stays (ascii "50%") (by simp [ascii])
  have left : urldecode (ascii "50%") = none := by decide
  rw [left] at read
  cases read

section Encoders

variable {table : List Nat} {kept : Nat → Bool} {c : UInt8} {str : List UInt8}

def LeavesDigits (table : List Nat) : Prop := ∀ d < 16, uriLiteral table (uhexDigit d) = true

theorem uchar_digits : LeavesDigits uriUcharTable := by unfold LeavesDigits; decide
theorem pchar_digits : LeavesDigits uriPcharTable := by unfold LeavesDigits; decide

theorem mem_encodeByte (digits : LeavesDigits table) {d : UInt8} (mem : d ∈ encodeByte table c) :
    uriLiteral table d = true ∨ d = 37 := by
  have byte := c.toNat_lt
  unfold encodeByte at mem
  split at mem
  · next literal =>
    rw [List.mem_singleton] at mem
    exact .inl (mem ▸ literal)
  · rw [charToUhex_digits] at mem
    rcases List.mem_cons.mp mem with percent | mem
    · exact .inr percent
    · rcases List.mem_cons.mp mem with rfl | mem
      · exact .inl (digits _ (by omega))
      · rw [List.mem_singleton.mp mem]
        exact .inl (digits _ (Nat.mod_lt _ (by decide)))

theorem mem_uriEncode (digits : LeavesDigits table) {d : UInt8} (mem : d ∈ uriEncode table str) :
    uriLiteral table d = true ∨ d = 37 := by
  obtain ⟨c, -, mem⟩ := List.mem_flatMap.mp mem
  exact mem_encodeByte digits mem

theorem uriEncode_nul_free (digits : LeavesDigits table) (nul : uriLiteral table 0 = false) :
    0 ∉ uriEncode table str := by
  intro mem
  rcases mem_uriEncode digits mem with literal | percent
  · rw [nul] at literal
    cases literal
  · cases percent

theorem uriDecodeLoop_encodeByte (table : List Nat) (kept : Nat → Bool) (c : UInt8)
    (str : List UInt8) (plain : uriLiteral table c = true → c ≠ 37)
    (decoded : uriLiteral table c = false → kept c.toNat = false) :
    uriDecodeLoop kept (encodeByte table c ++ str) = (uriDecodeLoop kept str).map (c :: ·) := by
  have byte := c.toNat_lt
  cases literal : uriLiteral table c with
  | true =>
    rw [encodeByte, if_pos literal]
    exact uriDecodeLoop_plain (plain literal)
  | false =>
    obtain ⟨hi, high⟩ := uhexDigit_hex (c.toNat / 16) (by omega)
    obtain ⟨lo, low⟩ := uhexDigit_hex (c.toNat % 16) (Nat.mod_lt _ (by decide))
    have value : c.toNat / 16 * 16 + c.toNat % 16 = c.toNat := by omega
    have pair := (hexToNum_take (uhexDigit (c.toNat / 16) :: uhexDigit (c.toNat % 16) :: str)
      c.toNat).mpr (.inr ⟨str, _, _, rfl, hi, lo, by rw [high, low, value]⟩)
    rw [encodeByte, literal, charToUhex_digits]
    simp only [Bool.false_eq_true, if_false, List.cons_append, List.nil_append]
    rw [uriDecodeLoop, if_pos rfl, pair]
    simp [decoded literal]

theorem uriDecodeLoop_uriEncode (table : List Nat) (kept : Nat → Bool) (str : List UInt8)
    (plain : ∀ c ∈ str, uriLiteral table c = true → c ≠ 37)
    (decoded : ∀ c ∈ str, uriLiteral table c = false → kept c.toNat = false) :
    uriDecodeLoop kept (str.flatMap (encodeByte table)) = some str := by
  induction str with
  | nil => rfl
  | cons c str ih =>
    have tail := ih (fun d mem => plain d (List.mem_cons_of_mem c mem))
      (fun d mem => decoded d (List.mem_cons_of_mem c mem))
    rw [List.flatMap_cons, uriDecodeLoop_encodeByte table kept c _ (plain c List.mem_cons_self)
      (decoded c List.mem_cons_self), tail]
    rfl

theorem urldecode_urlencode (nul_free : 0 ∉ str) : urldecode (urlencode str) = some str := by
  have encoded : cstr (urlencode str) = urlencode str :=
    cstr_eq (uriEncode_nul_free uchar_digits rfl)
  rw [urldecode, encoded, urlencode, uriEncode, cstr_eq nul_free]
  apply uriDecodeLoop_uriEncode
  · intro c _ literal
    rintro rfl
    cases literal
  · exact fun _ _ _ => rfl

theorem urldecode_plain (nul_free : 0 ∉ str) (percent_free : 37 ∉ str) :
    urldecode str = some str := by
  rw [urldecode, cstr_eq nul_free]
  induction str with
  | nil => rfl
  | cons c str ih =>
    have plain : c ≠ 37 := fun same => percent_free (same ▸ List.mem_cons_self)
    rw [uriDecodeLoop_plain plain, ih (fun mem => nul_free (List.mem_cons_of_mem c mem))
      fun mem => percent_free (List.mem_cons_of_mem c mem)]
    rfl

theorem pcharValue_literal (c : UInt8) : pcharValue c.toNat = uriLiteral uriPcharTable c := by
  have bound : decide (c ≤ 127) = !decide (c.toNat > 127) := by
    rw [← decide_not, decide_eq_decide, UInt8.le_iff_toNat_le]
    exact Nat.not_lt.symm
  rw [pcharValue, uriLiteral, bound, Bool.not_or]
  rfl

theorem pathdecode_pathencode (nul_free : 0 ∉ str) (percent_free : 37 ∉ str) :
    pathdecode (pathencode str) = some str := by
  have encoded : cstr (pathencode str) = pathencode str :=
    cstr_eq (uriEncode_nul_free pchar_digits rfl)
  rw [pathdecode, encoded, pathencode, uriEncode, cstr_eq nul_free]
  apply uriDecodeLoop_uriEncode
  · intro c mem _
    rintro rfl
    exact percent_free mem
  · intro c _ unsafe_byte
    rw [pcharValue_literal, unsafe_byte]

theorem pathencode_pathencode (str : List UInt8) :
    pathencode (pathencode str) = pathencode str := by
  have literal : ∀ c ∈ pathencode str, encodeByte uriPcharTable c = [c] := by
    intro c mem
    rcases mem_uriEncode pchar_digits mem with literal | rfl
    · rw [encodeByte, if_pos literal]
    · rfl
  have encoded : cstr (pathencode str) = pathencode str :=
    cstr_eq (uriEncode_nul_free pchar_digits rfl)
  rw [pathencode, uriEncode, encoded, List.flatMap_congr literal, List.flatMap_singleton']

/-- A path that is encoded again is unchanged, and one without a percent sign is decoded to
what it was. -/
theorem path_coded_once (str : List UInt8) (nul_free : 0 ∉ str) :
    pathencode (pathencode str) = pathencode str ∧
    (37 ∉ str → pathdecode (pathencode str) = some str) :=
  ⟨pathencode_pathencode str, pathdecode_pathencode nul_free⟩

theorem path_coded_once_high :
    pathencode (pathencode [195, 169, 32, 7]) = pathencode [195, 169, 32, 7] ∧
    (37 ∉ ([195, 169, 32, 7] : List UInt8) →
      pathdecode (pathencode [195, 169, 32, 7]) = some [195, 169, 32, 7]) :=
  path_coded_once [195, 169, 32, 7] (by decide)

end Encoders

end CppMyth
