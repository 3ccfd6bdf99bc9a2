import CppMyth.Builtin

/-! The integer parsers on every decimal numeral, however many digits it has, and the
texts that the writers give to every value of a type. The 64-bit accumulator of the digit
loop is the value of the digits read so far, modulo 2^64. -/
namespace CppMyth

/-- The types that `builtin.h` writes. -/
inductive IntType where
  | int8 | int16 | int32 | int64 | uint8 | uint16 | uint32 | uint64
  deriving DecidableEq, Repr

namespace IntType

def signed : IntType → Bool
  | int8 | int16 | int32 | int64 => true
  | uint8 | uint16 | uint32 | uint64 => false

def minimum : IntType → Int
  | int8 => -2 ^ 7
  | int16 => -2 ^ 15
  | int32 => -2 ^ 31
  | int64 => -2 ^ 63
  | uint8 | uint16 | uint32 | uint64 => 0

def maximum : IntType → Int
  | int8 => 2 ^ 7 - 1
  | int16 => 2 ^ 15 - 1
  | int32 => 2 ^ 31 - 1
  | int64 => 2 ^ 63 - 1
  | uint8 => 2 ^ 8 - 1
  | uint16 => 2 ^ 16 - 1
  | uint32 => 2 ^ 32 - 1
  | uint64 => 2 ^ 64 - 1

/-- The smallest value the parser of a type lets through: the limit of the two wide signed
types bounds the absolute value, before the sign is applied. -/
def lowest : IntType → Int
  | int32 => -(2 ^ 31 - 1)
  | int64 => -(2 ^ 63 - 1)
  | t => t.minimum

/-- The parser of a type, with the value it stores; `builtin.c` has none for `uint64_t`. -/
def parser : IntType → Option (List UInt8 → Except ParseError Int)
  | int8 => some fun str => (stringToInt8 str).map Int8.toInt
  | int16 => some fun str => (stringToInt16 str).map Int16.toInt
  | int32 => some fun str => (stringToInt32 str).map Int32.toInt
  | int64 => some fun str => (stringToInt64 str).map Int64.toInt
  | uint8 => some fun str => (stringToUint8 str).map fun num => (num.toNat : Int)
  | uint16 => some fun str => (stringToUint16 str).map fun num => (num.toNat : Int)
  | uint32 => some fun str => (stringToUint32 str).map fun num => (num.toNat : Int)
  | uint64 => none

/-- The writer of a type, at a value of the type. -/
def text : IntType → Int → List UInt8
  | int8, v => int8ToString (Int8.ofInt v)
  | int16, v => int16ToString (Int16.ofInt v)
  | int32, v => int32ToString (Int32.ofInt v)
  | int64, v => int64ToString (Int64.ofInt v)
  | uint8, v => uint8ToString (UInt8.ofNat v.toNat)
  | uint16, v => uint16ToString (UInt16.ofNat v.toNat)
  | uint32, v => uint32ToString (UInt32.ofNat v.toNat)
  | uint64, v => uint64ToString (UInt64.ofNat v.toNat)

end IntType

/-- The value of a list of digits, after `val`. -/
def digitsFrom (val : Nat) (digits : List UInt8) : Nat :=
  digits.foldl (fun val c => val * 10 + (c.toNat - 48)) val

def digitsValue (digits : List UInt8) : Nat := digitsFrom 0 digits

/-- A numeral as the parsers are given it: blanks, a minus sign or none, some digits, and
what stands behind them, which starts with a blank where the string does not end there. -/
structure Numeral where
  blanks : List UInt8
  minus : Bool
  digits : List UInt8
  rest : List UInt8
  blanks_blank : ∀ c ∈ blanks, isspace c = true
  digits_digit : ∀ c ∈ digits, isdigit c = true
  digits_some : digits ≠ []
  ended : ∀ c ∈ rest.head?, c = 0 ∨ isspace c = true

namespace Numeral

def text (n : Numeral) : List UInt8 :=
  n.blanks ++ ((if n.minus then [45] else []) ++ (n.digits ++ n.rest))

def sign (n : Numeral) : Int := if n.minus then -1 else 1

def value (n : Numeral) : Int := n.sign * (digitsValue n.digits : Int)

/-- The value is one that the parser of the type lets through. -/
def InRange (n : Numeral) (t : IntType) : Prop := t.lowest ≤ n.value ∧ n.value ≤ t.maximum

/-- In range the parser stores exactly the value, out of range it refuses the numeral. -/
structure ReadExactly (n : Numeral) (t : IntType)
    (parse : List UInt8 → Except ParseError Int) : Prop where
  stored : n.InRange t → parse n.text = .ok n.value
  refused : ¬ n.InRange t → parse n.text = .error .ERANGE

/-- The digits read up to some place are, in 64 bits, above the limit: the loop stops. -/
def Caught (limit : Nat) (digits : List UInt8) : Prop :=
  ∃ front, front <+: digits ∧ limit < digitsValue front % 2 ^ 64

end Numeral

@[simp] theorem digitsFrom_nil (val : Nat) : digitsFrom val [] = val := rfl

@[simp] theorem digitsFrom_cons (val : Nat) (c : UInt8) (digits : List UInt8) :
    digitsFrom val (c :: digits) = digitsFrom (val * 10 + (c.toNat - 48)) digits := by
  simp only [digitsFrom, List.foldl_cons]

theorem digitsFrom_append (val : Nat) (front back : List UInt8) :
    digitsFrom val (front ++ back) = digitsFrom (digitsFrom val front) back :=
  List.foldl_append

theorem digitsValue_concat (front : List UInt8) (c : UInt8) :
    digitsValue (front ++ [c]) = digitsValue front * 10 + (c.toNat - 48) :=
  digitsFrom_append 0 front [c]

theorem le_digitsFrom (val : Nat) (digits : List UInt8) : val ≤ digitsFrom val digits := by
  induction digits generalizing val with
  | nil => exact Nat.le_refl val
  | cons c digits ih =>
    have grown := ih (val * 10 + (c.toNat - 48))
    rw [digitsFrom_cons]
    omega

theorem digitsValue_prefix {front digits : List UInt8} (h : front <+: digits) :
    digitsValue front ≤ digitsValue digits := by
  obtain ⟨back, rfl⟩ := h
  rw [digitsValue, digitsValue, digitsFrom_append]
  exact le_digitsFrom _ back

theorem isdigit_value {c : UInt8} (h : isdigit c = true) : c.toNat - 48 < 10 := by
  obtain ⟨d, hd, rfl⟩ := digit_of_isdigit h
  rw [digit_sub hd]
  exact hd

theorem padded_length (len n : Nat) : (padded len n).length = len := by
  induction len generalizing n with
  | zero => rfl
  | succ len ih => rw [padded, List.length_append, ih, List.length_singleton]

theorem digitsValue_padded (len : Nat) {n : Nat} (fits : n < 10 ^ len) :
    digitsValue (padded len n) = n := by
  induction len generalizing n with
  | zero =>
    rw [Nat.pow_zero] at fits
    rw [padded, Nat.lt_one_iff.mp fits]
    rfl
  | succ len ih =>
    rw [Nat.pow_succ] at fits
    rw [padded, digitsValue_concat, ih (by omega), digit_sub (Nat.mod_lt n (by decide))]
    omega

theorem padded_digitsValue {digits : List UInt8} (numeral : ∀ c ∈ digits, isdigit c = true) :
    padded digits.length (digitsValue digits) = digits := by
  induction digits using List.reverseRecOn with
  | nil => rfl
  | append_singleton front c ih =>
    obtain ⟨d, hd, rfl⟩ := digit_of_isdigit (numeral c (by simp))
    have high : (digitsValue front * 10 + d) / 10 = digitsValue front := by omega
    have low : (digitsValue front * 10 + d) % 10 = d := by omega
    rw [List.length_append, List.length_singleton, padded, digitsValue_concat, digit_sub hd,
      high, low, ih (fun c hc => numeral c (by simp [hc]))]

theorem digitsValue_lt {digits : List UInt8} (numeral : ∀ c ∈ digits, isdigit c = true) :
    digitsValue digits < 10 ^ digits.length := by
  induction digits using List.reverseRecOn with
  | nil => decide
  | append_singleton front c ih =>
    have low := isdigit_value (numeral c (by simp))
    have high := ih (fun c hc => numeral c (by simp [hc]))
    rw [digitsValue_concat, List.length_append, List.length_singleton, Nat.pow_succ]
    omega

theorem digitLoop_ended {limit : Nat} {rest : List UInt8} (val : Nat)
    (ended : ∀ c ∈ rest.head?, c = 0 ∨ isspace c = true) :
    digitLoop limit rest val = .ok val := by
  cases rest with
  | nil => rfl
  | cons c rest =>
    have stop := ended c rfl
    simp only [digitLoop]
    rw [if_pos stop]

theorem digitLoop_step {limit : Nat} {c : UInt8} (h : isdigit c = true) (digits : List UInt8)
    (val : Nat) :
    digitLoop limit (c :: digits) (val % 2 ^ 64) =
      if limit < digitsFrom val [c] % 2 ^ 64 then .error .ERANGE
      else digitLoop limit digits (digitsFrom val [c] % 2 ^ 64) := by
  have plain := isdigit_plain h
  have wrapped : (val % 2 ^ 64 * 10 + (c.toNat - 48)) % 2 ^ 64 =
      (val * 10 + (c.toNat - 48)) % 2 ^ 64 := by omega
  simp only [digitLoop, plain.1, plain.2.2.1, h, wrapped, digitsFrom_cons, digitsFrom_nil]
  simp

/-- As long as no value on the way is above the limit, the loop accumulates the digits. -/
theorem digitLoop_within {limit : Nat} {digits rest : List UInt8} (val : Nat)
    (numeral : ∀ c ∈ digits, isdigit c = true)
    (ended : ∀ c ∈ rest.head?, c = 0 ∨ isspace c = true)
    (within : ∀ front, front <+: digits → digitsFrom val front % 2 ^ 64 ≤ limit) :
    digitLoop limit (digits ++ rest) (val % 2 ^ 64) =
      .ok (digitsFrom val digits % 2 ^ 64) := by
  induction digits generalizing val with
  | nil => exact digitLoop_ended _ ended
  | cons c digits ih =>
    have first := within [c] ⟨digits, rfl⟩
    rw [List.cons_append, digitLoop_step (numeral c (by simp)), if_neg (by omega)]
    apply ih
    · intro d hd
      exact numeral d (by simp [hd])
    · intro front inside
      exact within (c :: front) (List.cons_prefix_cons.mpr ⟨rfl, inside⟩)

theorem digitLoop_caught {limit : Nat} {digits : List UInt8} (val : Nat)
    (numeral : ∀ c ∈ digits, isdigit c = true) (below : val % 2 ^ 64 ≤ limit)
    (caught : ∃ front, front <+: digits ∧ limit < digitsFrom val front % 2 ^ 64)
    (rest : List UInt8) :
    digitLoop limit (digits ++ rest) (val % 2 ^ 64) = .error .ERANGE := by
  induction digits generalizing val with
  | nil =>
    obtain ⟨front, inside, above⟩ := caught
    rw [List.prefix_nil.mp inside, digitsFrom_nil] at above
    omega
  | cons c digits ih =>
    rw [List.cons_append, digitLoop_step (numeral c (by simp))]
    by_cases now : limit < digitsFrom val [c] % 2 ^ 64
    · rw [if_pos now]
    · rw [if_neg now]
      apply ih
      · intro d hd
        exact numeral d (by simp [hd])
      · omega
      · obtain ⟨front, inside, above⟩ := caught
        cases front with
        | nil =>
          rw [digitsFrom_nil] at above
          omega
        | cons d front =>
          obtain ⟨rfl, inner⟩ := List.cons_prefix_cons.mp inside
          exact ⟨front, inner, above⟩

namespace Numeral

variable {n : Numeral} {t : IntType} {limit : Nat}

theorem dropWhile_text (n : Numeral) :
    n.text.dropWhile isspace = (if n.minus then [45] else []) ++ (n.digits ++ n.rest) := by
  rw [text, List.dropWhile_append_of_pos n.blanks_blank]
  cases hm : n.minus with
  | true => rfl
  | false =>
    cases hd : n.digits with
    | nil => exact absurd hd n.digits_some
    | cons c digits =>
      have plain := isdigit_plain (n.digits_digit c (by simp [hd]))
      simp [plain.1]

theorem takeSign_text (n : Numeral) :
    takeSign (n.text.dropWhile isspace) = (n.sign, n.digits ++ n.rest) := by
  rw [dropWhile_text]
  cases hm : n.minus with
  | true => simp [takeSign, sign, hm]
  | false =>
    cases hd : n.digits with
    | nil => exact absurd hd n.digits_some
    | cons c digits =>
      have plain := isdigit_plain (n.digits_digit c (by simp [hd]))
      simp [takeSign, sign, hm, plain.2.1]

theorem loop_within (n : Numeral) (within : ¬ Caught limit n.digits) :
    digitLoop limit (n.digits ++ n.rest) 0 = .ok (digitsValue n.digits % 2 ^ 64) := by
  apply digitLoop_within 0 n.digits_digit n.ended
  intro front inside
  apply Nat.le_of_not_lt
  intro above
  exact within ⟨front, inside, above⟩

theorem loop_caught (n : Numeral) (caught : Caught limit n.digits) :
    digitLoop limit (n.digits ++ n.rest) 0 = .error .ERANGE :=
  digitLoop_caught 0 n.digits_digit (Nat.zero_le limit) caught n.rest

theorem signedValue_within (n : Numeral) (within : ¬ Caught limit n.digits) :
    signedValue limit n.text =
      .ok (n.sign * ((digitsValue n.digits % 2 ^ 64 : Nat) : Int)) := by
  simp only [signedValue, takeSign_text, loop_within n within]

theorem signedValue_caught (n : Numeral) (caught : Caught limit n.digits) :
    signedValue limit n.text = .error .ERANGE := by
  simp only [signedValue, takeSign_text, loop_caught n caught]

theorem unsignedValue_text (n : Numeral) (plain : n.minus = false) :
    unsignedValue limit n.text = digitLoop limit (n.digits ++ n.rest) 0 := by
  rw [unsignedValue, dropWhile_text, plain]
  rfl

theorem not_caught_of_le (small : limit < 2 ^ 64) {digits : List UInt8}
    (fits : digitsValue digits ≤ limit) : ¬ Caught limit digits := by
  rintro ⟨front, inside, above⟩
  have below := digitsValue_prefix inside
  rw [Nat.mod_eq_of_lt (by omega)] at above
  omega

/-- With ten times the limit below 2^64, the first prefix past the limit is seen as such. -/
theorem caught_of_lt (small : limit * 10 + 9 < 2 ^ 64) {digits : List UInt8}
    (numeral : ∀ c ∈ digits, isdigit c = true) (past : limit < digitsValue digits) :
    Caught limit digits := by
  induction digits using List.reverseRecOn with
  | nil => exact absurd past (Nat.not_lt_zero limit)
  | append_singleton front c ih =>
    by_cases before : limit < digitsValue front
    · obtain ⟨early, inside, above⟩ := ih (fun d hd => numeral d (by simp [hd])) before
      exact ⟨early, inside.trans (List.prefix_append front [c]), above⟩
    · have low := isdigit_value (numeral c (by simp))
      refine ⟨front ++ [c], List.prefix_rfl, ?_⟩
      rw [digitsValue_concat] at past ⊢
      rw [Nat.mod_eq_of_lt (by omega)]
      exact past

theorem value_cases (n : Numeral) :
    n.value = (digitsValue n.digits : Int) ∧ n.minus = false ∨
      n.value = -(digitsValue n.digits : Int) ∧ n.minus = true := by
  cases hm : n.minus with
  | true => exact Or.inr ⟨by simp [value, sign, hm], rfl⟩
  | false => exact Or.inl ⟨by simp [value, sign, hm], rfl⟩

theorem stringToInt32_text (n : Numeral) :
    stringToInt32 n.text = if digitsValue n.digits ≤ 2 ^ 31 - 1 then .ok (Int32.ofInt n.value)
      else .error .ERANGE := by
  by_cases fits : digitsValue n.digits ≤ 2 ^ 31 - 1
  · have within := signedValue_within n (not_caught_of_le (by decide) fits)
    rw [Nat.mod_eq_of_lt (by omega), ← value] at within
    rw [if_pos fits, stringToInt32, within]
    rfl
  · have caught := caught_of_lt (by decide) n.digits_digit (Nat.lt_of_not_le fits)
    rw [if_neg fits, stringToInt32, signedValue_caught n caught]
    rfl

theorem stringToUint32_text (n : Numeral) (plain : n.minus = false) :
    stringToUint32 n.text = if digitsValue n.digits ≤ 2 ^ 32 - 1 then
      .ok (UInt32.ofNat (digitsValue n.digits)) else .error .ERANGE := by
  by_cases fits : digitsValue n.digits ≤ 2 ^ 32 - 1
  · have within := loop_within n (not_caught_of_le (by decide) fits)
    rw [Nat.mod_eq_of_lt (by omega)] at within
    rw [if_pos fits, stringToUint32, unsignedValue_text n plain, within]
    rfl
  · have caught := caught_of_lt (by decide) n.digits_digit (Nat.lt_of_not_le fits)
    rw [if_neg fits, stringToUint32, unsignedValue_text n plain, loop_caught n caught]
    rfl

theorem int32_readExactly (n : Numeral) :
    n.ReadExactly .int32 fun str => (stringToInt32 str).map Int32.toInt := by
  have sides := n.value_cases
  constructor
  · rintro ⟨above, below⟩
    simp only [IntType.lowest, IntType.maximum] at above below
    have back : (Int32.ofInt n.value).toInt = n.value :=
      Int32.toInt_ofInt_of_le (by omega) (by omega)
    simp only [stringToInt32_text]
    rw [if_pos (by omega), Except.map, back]
  · intro outside
    simp only [InRange, IntType.lowest, IntType.maximum] at outside
    simp only [stringToInt32_text]
    rw [if_neg (by omega)]
    rfl

theorem int32_narrowed {α : Type} (n : Numeral) (low high : Int) (lower : -(2 ^ 31 - 1) ≤ low)
    (upper : high ≤ 2 ^ 31 - 1) (store : Int → α) :
    (stringToInt32 n.text >>= fun val =>
      if val.toInt > high ∨ val.toInt < low then .error .ERANGE else .ok (store val.toInt)) =
      if low ≤ n.value ∧ n.value ≤ high then Except.ok (store n.value)
      else .error ParseError.ERANGE := by
  have sides := n.value_cases
  rw [stringToInt32_text]
  by_cases fits : digitsValue n.digits ≤ 2 ^ 31 - 1
  · have wide : (Int32.ofInt n.value).toInt = n.value :=
      Int32.toInt_ofInt_of_le (by omega) (by omega)
    simp only [if_pos fits, bind, Except.bind, wide]
    by_cases inside : low ≤ n.value ∧ n.value ≤ high
    · rw [if_neg (by omega), if_pos inside]
    · rw [if_pos (by omega), if_neg inside]
  · rw [if_neg fits, if_neg (by omega)]
    rfl

theorem uint32_narrowed {α : Type} (n : Numeral) (plain : n.minus = false) (high : Nat)
    (upper : high ≤ 2 ^ 32 - 1) (store : Nat → α) :
    (stringToUint32 n.text >>= fun val =>
      if val.toNat > high then .error .ERANGE else .ok (store val.toNat)) =
      if digitsValue n.digits ≤ high then Except.ok (store (digitsValue n.digits))
      else .error ParseError.ERANGE := by
  rw [stringToUint32_text n plain]
  by_cases fits : digitsValue n.digits ≤ 2 ^ 32 - 1
  · have wide : (UInt32.ofNat (digitsValue n.digits)).toNat = digitsValue n.digits :=
      UInt32.toNat_ofNat_of_lt' (by simp [UInt32.size]; omega)
    simp only [if_pos fits, bind, Except.bind, wide]
    by_cases inside : digitsValue n.digits ≤ high
    · rw [if_neg (by omega), if_pos inside]
    · rw [if_pos (by omega), if_neg inside]
  · rw [if_neg fits, if_neg (by omega)]
    rfl

/-- A narrow signed parser checks the value read as an `int32_t` and stores it narrowed. -/
theorem signed_readExactly {α : Type} (n : Numeral) {t : IntType} {low high : Int}
    (lowest : t.lowest = low) (maximum : t.maximum = high) (lower : -(2 ^ 31 - 1) ≤ low)
    (upper : high ≤ 2 ^ 31 - 1) {store : Int → α} {toInt : α → Int}
    (back : ∀ v, low ≤ v → v ≤ high → toInt (store v) = v) :
    n.ReadExactly t fun str => (stringToInt32 str >>= fun val =>
      if val.toInt > high ∨ val.toInt < low then .error .ERANGE
      else .ok (store val.toInt)).map toInt := by
  have read := int32_narrowed n low high lower upper store
  constructor
  · rintro ⟨above, below⟩
    rw [lowest] at above
    rw [maximum] at below
    rw [read, if_pos ⟨above, below⟩, Except.map, back n.value above below]
  · intro outside
    rw [InRange, lowest, maximum] at outside
    rw [read, if_neg outside]
    rfl

/-- Without a minus sign the value is that of the digits, and the range has one bound. -/
theorem inRange_unsigned (n : Numeral) (plain : n.minus = false) (t : IntType)
    (start : t.lowest = 0) :
    n.value = digitsValue n.digits ∧ (n.InRange t ↔ (digitsValue n.digits : Int) ≤ t.maximum) := by
  have value : n.value = digitsValue n.digits := by simp [Numeral.value, sign, plain]
  refine ⟨value, ?_⟩
  rw [InRange, start, value]
  constructor
  · exact And.right
  · intro below
    exact ⟨Int.natCast_nonneg _, below⟩

theorem uint32_readExactly (n : Numeral) (plain : n.minus = false) :
    n.ReadExactly .uint32 fun str => (stringToUint32 str).map fun num => (num.toNat : Int) := by
  obtain ⟨value, range⟩ := n.inRange_unsigned plain .uint32 rfl
  simp only [IntType.maximum] at range
  constructor
  · intro inside
    have fits := range.mp inside
    have back : (UInt32.ofNat (digitsValue n.digits)).toNat = digitsValue n.digits :=
      UInt32.toNat_ofNat_of_lt' (by simp [UInt32.size]; omega)
    simp only [stringToUint32_text n plain]
    rw [if_pos (by omega), Except.map, back, value]
  · intro outside
    rw [range] at outside
    simp only [stringToUint32_text n plain]
    rw [if_neg (by omega)]
    rfl

/-- A narrow unsigned parser checks the value read as a `uint32_t` and stores it narrowed. -/
theorem unsigned_readExactly {α : Type} (n : Numeral) (plain : n.minus = false) {t : IntType}
    {high : Nat} (lowest : t.lowest = 0) (maximum : t.maximum = high) (upper : high ≤ 2 ^ 32 - 1)
    {store : Nat → α} {toNat : α → Nat} (back : ∀ v, v ≤ high → toNat (store v) = v) :
    n.ReadExactly t fun str => (stringToUint32 str >>= fun val =>
      if val.toNat > high then .error .ERANGE
      else .ok (store val.toNat)).map fun num => (toNat num : Int) := by
  obtain ⟨value, range⟩ := n.inRange_unsigned plain t lowest
  rw [maximum, Int.ofNat_le] at range
  have read := uint32_narrowed n plain high upper store
  constructor
  · intro inside
    rw [read, if_pos (range.mp inside), Except.map, back _ (range.mp inside), value]
  · intro outside
    rw [range] at outside
    rw [read, if_neg outside]
    rfl

/-- Ten times the limit of the 64-bit parser does not fit the accumulator: a numeral out of
range is refused only if some prefix of it is still above the limit after wrapping. -/
theorem int64_readExactly_iff (n : Numeral) :
    (n.ReadExactly .int64 fun str => (stringToInt64 str).map Int64.toInt) ↔
      n.InRange .int64 ∨ Caught (2 ^ 63 - 1) n.digits := by
  have sides := n.value_cases
  constructor
  · intro reads
    by_cases inside : n.InRange .int64
    · exact Or.inl inside
    · right
      by_contra missed
      have refused := reads.refused inside
      simp only [stringToInt64, signedValue_within n missed] at refused
      cases refused
  · intro held
    constructor
    · rintro ⟨above, below⟩
      simp only [IntType.lowest, IntType.maximum] at above below
      have within := signedValue_within n
        (not_caught_of_le (by decide : 2 ^ 63 - 1 < 2 ^ 64) (by omega))
      have back : (Int64.ofInt n.value).toInt = n.value :=
        Int64.toInt_ofInt_of_le (by omega) (by omega)
      rw [Nat.mod_eq_of_lt (by omega), ← value] at within
      simp only [stringToInt64, within, Except.map, back]
    · intro outside
      have caught := held.resolve_left outside
      simp only [stringToInt64, signedValue_caught n caught]
      rfl

theorem narrow_readExactly (n : Numeral) (t : IntType)
    (parse : List UInt8 → Except ParseError Int) (reader : t.parser = some parse)
    (signed : n.minus = true → t.signed = true) (narrow : t ≠ .int64) :
    n.ReadExactly t parse := by
  have plain : t.signed = false → n.minus = false := by
    intro unsigned
    cases hm : n.minus with
    | false => rfl
    | true => exact absurd (signed hm) (by simp [unsigned])
  cases t with
  | int64 => exact absurd rfl narrow
  | uint64 => cases reader
  | int8 =>
    cases reader
    exact n.signed_readExactly rfl rfl (by decide) (by decide) fun v above below =>
      Int8.toInt_ofInt_of_le above (Int.lt_add_one_of_le below)
  | int16 =>
    cases reader
    exact n.signed_readExactly rfl rfl (by decide) (by decide) fun v above below =>
      Int16.toInt_ofInt_of_le above (Int.lt_add_one_of_le below)
  | int32 => cases reader; exact int32_readExactly n
  | uint8 =>
    cases reader
    exact n.unsigned_readExactly (plain rfl) rfl rfl (by decide) fun v below =>
      UInt8.toNat_ofNat_of_lt' (Nat.lt_succ_of_le below)
  | uint16 =>
    cases reader
    exact n.unsigned_readExactly (plain rfl) rfl rfl (by decide) fun v below =>
      UInt16.toNat_ofNat_of_lt' (Nat.lt_succ_of_le below)
  | uint32 => cases reader; exact uint32_readExactly n (plain rfl)

/-- Every parser reads every numeral exactly, but for the numerals out of the range of
`int64_t` whose digits wrap past the limit of its parser. -/
theorem numeral_read_iff (n : Numeral) (t : IntType)
    (parse : List UInt8 → Except ParseError Int) (reader : t.parser = some parse)
    (signed : n.minus = true → t.signed = true) :
    n.ReadExactly t parse ↔
      t ≠ .int64 ∨ n.InRange .int64 ∨ Caught (2 ^ 63 - 1) n.digits := by
  by_cases narrow : t ≠ .int64
  · constructor
    · intro _
      exact Or.inl narrow
    · intro _
      exact narrow_readExactly n t parse reader signed narrow
  · obtain rfl := not_not.mp narrow
    cases reader
    rw [int64_readExactly_iff]
    simp

/-- Two to the 64, with one more blank before it and another numeral behind it. -/
def wrapping : Numeral where
  blanks := [32]
  minus := false
  digits := decimal (2 ^ 64)
  rest := [32, 55]
  blanks_blank := by simp [isspace]
  digits_digit := decimal_isdigit (2 ^ 64)
  digits_some := decimal_ne_nil (2 ^ 64)
  ended := by simp [isspace]

/-- The 64-bit parser takes it for zero. -/
theorem wrapping_misread :
    stringToInt64 wrapping.text = .ok 0 ∧
      ¬ ∀ (n : Numeral) (t : IntType) (parse : List UInt8 → Except ParseError Int),
        t.parser = some parse → (n.minus = true → t.signed = true) → n.ReadExactly t parse := by
  have read : stringToInt64 wrapping.text = .ok 0 := by decide
  refine ⟨read, ?_⟩
  intro claimed
  have reads := claimed wrapping .int64 _ rfl (fun _ => rfl)
  have outside : ¬ wrapping.InRange .int64 := by
    rintro ⟨-, below⟩
    revert below
    decide
  have refused := reads.refused outside
  rw [read] at refused
  cases refused

/-- A narrow type reads the same numeral as out of its range. -/
theorem wrapping_int32 :
    wrapping.ReadExactly .int32 (fun str => (stringToInt32 str).map Int32.toInt) ↔
      IntType.int32 ≠ .int64 ∨ wrapping.InRange .int64 ∨
        Caught (2 ^ 63 - 1) wrapping.digits :=
  numeral_read_iff wrapping .int32 _ rfl (fun _ => rfl)

end Numeral

section Texts

/-- The canonical decimal form of an integer: a minus sign for a negative one, then its
digits, without a leading zero unless it is zero. -/
def Canonical (v : Int) (text : List UInt8) : Prop :=
  ∃ digits, text = (if v < 0 then 45 :: digits else digits) ∧ digits ≠ [] ∧
    (∀ c ∈ digits, isdigit c = true) ∧ digitsValue digits = v.natAbs ∧
    (digits.head? = some 48 → digits = [48])

theorem digitsValue_decimal (n : Nat) : digitsValue (decimal n) = n := by
  induction n using Nat.strong_induction_on with
  | _ n ih =>
    by_cases h : n < 10
    · rw [decimal_of_lt h, digitsValue, digitsFrom_cons, digitsFrom_nil, digit_sub h]
      omega
    · have low : n % 10 < 10 := Nat.mod_lt n (by decide)
      rw [decimal_of_ge (Nat.le_of_not_lt h), digitsValue_concat, ih (n / 10) (by omega),
        digit_sub low]
      omega

theorem decimal_head_zero {n : Nat} (h : (decimal n).head? = some 48) : decimal n = [48] := by
  induction n using Nat.strong_induction_on with
  | _ n ih =>
    by_cases one : n < 10
    · rw [decimal_of_lt one] at h ⊢
      exact congrArg List.singleton (Option.some.inj h)
    · have split := decimal_of_ge (Nat.le_of_not_lt one)
      rw [split, List.head?_append_of_ne_nil _ (decimal_ne_nil (n / 10))] at h
      have zero := congrArg digitsValue (ih (n / 10) (by omega) h)
      rw [digitsValue_decimal] at zero
      have value : digitsValue [48] = 0 := by decide
      omega

theorem decimalInt_canonical (v : Int) : Canonical v (decimalInt v) :=
  ⟨decimal v.natAbs, rfl, decimal_ne_nil _, decimal_isdigit _, digitsValue_decimal _,
    decimal_head_zero⟩

theorem decimal_length {n len : Nat} (positive : 0 < len) (fits : n < 10 ^ len) :
    (decimal n).length ≤ len := by
  rw [decimal, List.length_map]
  exact (Nat.length_toDigits_le_iff (by decide) positive).mpr fits

theorem decimalInt_length {v : Int} (fits : v.natAbs < 10 ^ 19) : (decimalInt v).length ≤ 20 := by
  have digits := decimal_length (by decide) fits
  rw [decimalInt]
  split
  · rw [List.length_cons]
    omega
  · omega

/-- `sizeof(BUILTIN_BUFFER)`. -/
def builtinBufferSize : Nat := 32

namespace IntType

variable {t : IntType} {v : Int}

/-- The texts of the signed types are those of `printf`, the others those of the digit
loops, whose output length is never too small. -/
theorem text_decimalInt (above : t.minimum ≤ v) (below : v ≤ t.maximum) :
    t.text v = decimalInt v := by
  have unsigned : ∀ num : Nat, (num : Int) = v → decimal num = decimalInt v := by
    intro num same
    rw [decimalInt, if_neg (by omega), ← same, Int.natAbs_natCast]
  cases t <;> simp only [minimum, maximum] at above below <;> simp only [text]
  · rw [int8ToString, Int8.toInt_ofInt_of_le (by omega) (by omega)]
  · rw [int16ToString, Int16.toInt_ofInt_of_le (by omega) (by omega)]
  · rw [int32ToString, Int32.toInt_ofInt_of_le (by omega) (by omega)]
  · rw [int64ToString, Int64.toInt_ofInt_of_le (by omega) (by omega)]
  · rw [uint8ToString_decimal, UInt8.toNat_ofNat_of_lt' (by simp [UInt8.size]; omega)]
    exact unsigned _ (by omega)
  · rw [uint16ToString_decimal, UInt16.toNat_ofNat_of_lt' (by simp [UInt16.size]; omega)]
    exact unsigned _ (by omega)
  · rw [uint32ToString_decimal, UInt32.toNat_ofNat_of_lt' (by simp [UInt32.size]; omega)]
    exact unsigned _ (by omega)
  · rw [uint64ToString_decimal, UInt64.toNat_ofNat_of_lt' (by simp [UInt64.size]; omega)]
    exact unsigned _ (by omega)

/-- A text as a numeral, with nothing before or behind it. -/
def numeral (v : Int) : Numeral where
  blanks := []
  minus := decide (v < 0)
  digits := decimal v.natAbs
  rest := []
  blanks_blank := by simp
  digits_digit := decimal_isdigit v.natAbs
  digits_some := decimal_ne_nil v.natAbs
  ended := by simp

theorem numeral_text (v : Int) : (numeral v).text = decimalInt v := by
  by_cases negative : v < 0
  · simp [numeral, Numeral.text, decimalInt, negative]
  · simp [numeral, Numeral.text, decimalInt, negative]

theorem numeral_value (v : Int) : (numeral v).value = v := by
  have magnitude : digitsValue (numeral v).digits = v.natAbs := digitsValue_decimal v.natAbs
  by_cases negative : v < 0
  · have minus : (numeral v).minus = true := decide_eq_true negative
    rw [Numeral.value, Numeral.sign, magnitude, if_pos minus]
    omega
  · have plain : ¬ (numeral v).minus = true := fun minus => negative (of_decide_eq_true minus)
    rw [Numeral.value, Numeral.sign, magnitude, if_neg plain]
    omega

theorem lowest_of_ne_minimum (above : t.minimum ≤ v)
    (inner : (t = .int32 ∨ t = .int64) → v ≠ t.minimum) : t.lowest ≤ v := by
  cases t <;> simp [lowest, minimum] at above inner ⊢ <;> omega

theorem parse_text (above : t.minimum ≤ v) (below : v ≤ t.maximum) (inner : t.lowest ≤ v)
    {parse : List UInt8 → Except ParseError Int} (reader : t.parser = some parse) :
    parse (t.text v) = .ok v := by
  have inside : (numeral v).InRange t := by
    rw [Numeral.InRange, numeral_value]
    exact ⟨inner, below⟩
  have signed : (numeral v).minus = true → t.signed = true := by
    intro minus
    have negative : v < 0 := of_decide_eq_true minus
    cases t <;> simp only [minimum] at above <;> first | rfl | omega
  have reads : (numeral v).ReadExactly t parse := by
    by_cases narrow : t ≠ .int64
    · exact Numeral.narrow_readExactly _ t parse reader signed narrow
    · obtain rfl := not_not.mp narrow
      cases reader
      exact (Numeral.int64_readExactly_iff _).mpr (Or.inl inside)
  have stored := reads.stored inside
  rw [numeral_text, numeral_value] at stored
  rw [text_decimalInt above below]
  exact stored

/-- Every text is canonical and has room in the buffer with its final NUL, and it is read
back as its value, the minimum of the two wide signed types apart. -/
theorem texts_read_back (t : IntType) (v : Int) (above : t.minimum ≤ v)
    (below : v ≤ t.maximum) :
    Canonical v (t.text v) ∧ (t.text v).length + 1 ≤ builtinBufferSize ∧
      ∀ parse, t.parser = some parse → ((t = .int32 ∨ t = .int64) → v ≠ t.minimum) →
        parse (t.text v) = .ok v := by
  have text := text_decimalInt above below
  refine ⟨?_, ?_, ?_⟩
  · rw [text]
    exact decimalInt_canonical v
  · rw [text]
    have short : (decimalInt v).length ≤ 20 := by
      cases t with
      | uint64 =>
        simp only [minimum, maximum] at above below
        rw [decimalInt, if_neg (by omega)]
        exact decimal_length (by decide) (by omega)
      | _ =>
        simp only [minimum, maximum] at above below
        exact decimalInt_length (by omega)
    simp only [builtinBufferSize]
    omega
  · intro parse reader inner
    exact parse_text above below (lowest_of_ne_minimum above inner) reader

theorem texts_read_back_int16 :
    Canonical (-2 ^ 15) (int16.text (-2 ^ 15)) ∧
      (int16.text (-2 ^ 15)).length + 1 ≤ builtinBufferSize ∧
      ∀ parse, int16.parser = some parse →
        ((int16 = .int32 ∨ int16 = .int64) → (-2 ^ 15 : Int) ≠ int16.minimum) →
        parse (int16.text (-2 ^ 15)) = .ok (-2 ^ 15) :=
  texts_read_back int16 (-2 ^ 15) (by decide) (by decide)

/-- The absolute value of the 32-bit minimum is above the limit of its parser, and the
64-bit unsigned type has no parser at all. -/
theorem minimum_refused :
    (stringToInt32 (int32.text int32.minimum) = .error .ERANGE ∧ uint64.parser.isNone) ∧
      ¬ ∀ (t : IntType) (v : Int), t.minimum ≤ v → v ≤ t.maximum →
        ∃ parse, t.parser = some parse ∧ parse (t.text v) = .ok v := by
  have refused : stringToInt32 (int32.text int32.minimum) = .error .ERANGE := by decide
  refine ⟨⟨refused, rfl⟩, ?_⟩
  intro claimed
  obtain ⟨parse, reader, stored⟩ := claimed int32 int32.minimum (by decide) (by decide)
  cases reader
  simp only [refused] at stored
  cases stored

end IntType

end Texts

end CppMyth
