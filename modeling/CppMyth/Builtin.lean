import Mathlib.Tactic

/-! The integer texts of `builtin.c` and `builtin.h`. A C string is the list of its bytes
before the terminating NUL. The accumulator of every parser is a `uint64_t`, so each of
its updates is taken modulo 2^64. -/
namespace CppMyth

/-- The two codes the parsers return, `-(EINVAL)` and `-(ERANGE)`. -/
inductive ParseError where
  | EINVAL | ERANGE
  deriving DecidableEq, Repr

def isspace (c : UInt8) : Bool := c == 32 || (9 ≤ c && c ≤ 13)
def isdigit (c : UInt8) : Bool := 48 ≤ c && c ≤ 57

/-- The digit loop that the parsers share; `limit` bounds the absolute value. -/
def digitLoop (limit : Nat) : List UInt8 → Nat → Except ParseError Nat
  | [], val => .ok val
  | c :: rest, val =>
    if c = 0 ∨ isspace c then .ok val
    else if ¬ isdigit c then .error .EINVAL
    else
      let next := (val * 10 + (c.toNat - 48)) % 2 ^ 64
      if next > limit then .error .ERANGE else digitLoop limit rest next

def takeSign (str : List UInt8) : Int × List UInt8 :=
  if str.head? = some 45 then (-1, str.tail) else (1, str)

def signedValue (limit : Nat) (str : List UInt8) : Except ParseError Int :=
  let signed := takeSign (str.dropWhile isspace)
  match digitLoop limit signed.2 0 with
  | .error err => .error err
  | .ok val => .ok (signed.1 * (val : Int))

def unsignedValue (limit : Nat) (str : List UInt8) : Except ParseError Nat :=
  digitLoop limit (str.dropWhile isspace) 0

def stringToInt64 (str : List UInt8) : Except ParseError Int64 :=
  (signedValue (2 ^ 63 - 1) str).map Int64.ofInt

def stringToInt32 (str : List UInt8) : Except ParseError Int32 :=
  (signedValue (2 ^ 31 - 1) str).map Int32.ofInt

/-- The narrow parsers go through the 32-bit one and check the range of their type. -/
def stringToInt8 (str : List UInt8) : Except ParseError Int8 := do
  let val ← stringToInt32 str
  if val.toInt > 127 ∨ val.toInt < -128 then .error .ERANGE
  else .ok (Int8.ofInt val.toInt)

def stringToInt16 (str : List UInt8) : Except ParseError Int16 := do
  let val ← stringToInt32 str
  if val.toInt > 32767 ∨ val.toInt < -32768 then .error .ERANGE
  else .ok (Int16.ofInt val.toInt)

def stringToUint32 (str : List UInt8) : Except ParseError UInt32 :=
  (unsignedValue (2 ^ 32 - 1) str).map UInt32.ofNat

def stringToUint16 (str : List UInt8) : Except ParseError UInt16 := do
  let val ← stringToUint32 str
  if val.toNat > 65535 then .error .ERANGE else .ok (UInt16.ofNat val.toNat)

def stringToUint8 (str : List UInt8) : Except ParseError UInt8 := do
  let val ← stringToUint32 str
  if val.toNat > 255 then .error .ERANGE else .ok (UInt8.ofNat val.toNat)

/-- The table `g` of the writers. -/
def digit (d : Nat) : UInt8 := UInt8.ofNat (48 + d)

/-- The text of the C library for an unsigned conversion. -/
def decimal (n : Nat) : List UInt8 := (Nat.toDigits 10 n).map fun c => UInt8.ofNat c.toNat

/-- The text of the C library for a signed conversion. -/
def decimalInt (i : Int) : List UInt8 :=
  if i < 0 then 45 :: decimal i.natAbs else decimal i.natAbs

/-- The digit loop of `uint_to_strdec`: low-order digits first, while there is room. -/
def strdecLoop : Nat → Nat → List UInt8 → List UInt8 × Nat
  | 0, n, out => (out, n)
  | room + 1, n, out =>
    let n10 := n / 10
    let out := out ++ [digit (n - n10 * 10)]
    if n10 / 10 > 0 ∧ room > 0 then strdecLoop room n10 out else (out, n10)

def uintToStrdec (u len : Nat) (pad : Bool) : List UInt8 :=
  if len = 0 then []
  else
    let written := strdecLoop len u []
    let out := written.1
    let out :=
      if out.length < len then
        -- push last digit
        let out := if written.2 > 0 then out ++ [digit written.2] else out
        if pad then out ++ List.replicate (len - out.length) (digit 0) else out
      else out
    -- reorder digits
    out.reverse

def int64ToString (num : Int64) : List UInt8 := decimalInt num.toInt
def int32ToString (num : Int32) : List UInt8 := decimalInt num.toInt
def int16ToString (num : Int16) : List UInt8 := decimalInt num.toInt
def int8ToString (num : Int8) : List UInt8 := decimalInt num.toInt
def uint32ToString (num : UInt32) : List UInt8 := uintToStrdec num.toNat 10 false
def uint16ToString (num : UInt16) : List UInt8 := uintToStrdec num.toNat 5 false
def uint8ToString (num : UInt8) : List UInt8 := uintToStrdec num.toNat 3 false

/-- The body of `uint_to_strdec` over `uint64_t`. -/
def uint64ToStrdec (ul : UInt64) (len : Nat) (pad : Bool) : List UInt8 :=
  uintToStrdec ul.toNat len pad

def uint64ToString (num : UInt64) : List UInt8 := uint64ToStrdec num 20 false

theorem digitChar_byte {d : Nat} (h : d < 10) : UInt8.ofNat d.digitChar.toNat = digit d := by
  interval_cases d <;> rfl

theorem decimal_of_lt {n : Nat} (h : n < 10) : decimal n = [digit n] := by
  rw [decimal, Nat.toDigits_of_lt_base h, List.map_singleton, digitChar_byte h]

theorem decimal_of_ge {n : Nat} (h : 10 ≤ n) :
    decimal n = decimal (n / 10) ++ [digit (n % 10)] := by
  have low : n % 10 < 10 := Nat.mod_lt n (by decide)
  rw [decimal, Nat.toDigits_of_base_le (by decide) h, List.map_append, ← decimal,
    List.map_singleton, digitChar_byte low]

theorem isdigit_digit {d : Nat} (h : d < 10) : isdigit (digit d) = true := by
  interval_cases d <;> decide

theorem digit_sub {d : Nat} (h : d < 10) : (digit d).toNat - 48 = d := by
  interval_cases d <;> rfl

theorem decimal_isdigit (n : Nat) : ∀ c ∈ decimal n, isdigit c = true := by
  induction n using Nat.strong_induction_on with
  | _ n ih =>
    by_cases h : n < 10
    · rw [decimal_of_lt h]
      simpa using isdigit_digit h
    · rw [decimal_of_ge (Nat.le_of_not_lt h)]
      intro c hc
      rcases List.mem_append.mp hc with hc | hc
      · exact ih (n / 10) (by omega) c hc
      · rw [List.mem_singleton.mp hc]
        exact isdigit_digit (Nat.mod_lt n (by decide))

theorem decimal_ne_nil (n : Nat) : decimal n ≠ [] := by
  simp [decimal, Nat.toDigits_ne_nil]

theorem digit_of_isdigit {c : UInt8} (h : isdigit c = true) : ∃ d < 10, c = digit d := by
  simp only [isdigit, Bool.and_eq_true, decide_eq_true_eq, UInt8.le_iff_toNat_le,
    UInt8.reduceToNat] at h
  refine ⟨c.toNat - 48, by omega, UInt8.toNat_inj.mp ?_⟩
  have back : 48 + (c.toNat - 48) = c.toNat := by omega
  rw [digit, back, UInt8.ofNat_toNat]

theorem isdigit_plain {c : UInt8} (h : isdigit c = true) :
    isspace c = false ∧ c ≠ 45 ∧ c ≠ 0 ∧ c ≠ 91 := by
  obtain ⟨d, hd, rfl⟩ := digit_of_isdigit h
  interval_cases d <;> decide

theorem not_mem_of_isdigit {digits : List UInt8} (numeral : ∀ c ∈ digits, isdigit c = true)
    {c : UInt8} (other : isdigit c = false) : c ∉ digits := by
  intro there
  rw [numeral c there] at other
  cases other

/-- The text of an integer is made of digits and a minus sign. -/
theorem not_mem_decimalInt (i : Int) {c : UInt8} (other : isdigit c = false) (sign : c ≠ 45) :
    c ∉ decimalInt i := by
  have digits := not_mem_of_isdigit (decimal_isdigit i.natAbs) other
  unfold decimalInt
  split
  · exact fun there => (List.mem_cons.mp there).elim sign digits
  · exact digits

theorem decimal_head (n : Nat) : ∃ c rest, decimal n = c :: rest ∧ isdigit c = true := by
  cases h : decimal n with
  | nil => exact absurd h (decimal_ne_nil n)
  | cons c rest => exact ⟨c, rest, rfl, decimal_isdigit n c (by simp [h])⟩

theorem digitLoop_digit {limit d val : Nat} (hd : d < 10) (rest : List UInt8)
    (fits : val * 10 + d ≤ limit) (small : limit < 2 ^ 64) :
    digitLoop limit (digit d :: rest) val = digitLoop limit rest (val * 10 + d) := by
  have plain := isdigit_plain (isdigit_digit hd)
  have room : (val * 10 + d) % 2 ^ 64 = val * 10 + d := Nat.mod_eq_of_lt (by omega)
  simp only [digitLoop, plain.1, plain.2.2.1, isdigit_digit hd, digit_sub hd, room]
  simp [Nat.not_lt.mpr fits]

/-- A numeral within the limit is accumulated to its value, whatever follows it. -/
theorem digitLoop_decimal {limit : Nat} (small : limit < 2 ^ 64) (n : Nat) (fits : n ≤ limit)
    (rest : List UInt8) : digitLoop limit (decimal n ++ rest) 0 = digitLoop limit rest n := by
  induction n using Nat.strong_induction_on generalizing rest with
  | _ n ih =>
    by_cases h : n < 10
    · rw [decimal_of_lt h, List.singleton_append, digitLoop_digit h rest (by omega) small]
      simp
    · have step : n / 10 * 10 + n % 10 = n := Nat.div_add_mod' n 10
      rw [decimal_of_ge (Nat.le_of_not_lt h), List.append_assoc, List.singleton_append,
        ih (n / 10) (by omega) (by omega),
        digitLoop_digit (Nat.mod_lt n (by decide)) rest (by omega) small, step]

theorem unsignedValue_decimal {limit : Nat} (small : limit < 2 ^ 64) (n : Nat)
    (fits : n ≤ limit) (rest : List UInt8) :
    unsignedValue limit (decimal n ++ rest) = digitLoop limit rest n := by
  obtain ⟨c, tail, hc, digits⟩ := decimal_head n
  have start : (decimal n ++ rest).dropWhile isspace = decimal n ++ rest := by
    simp [hc, (isdigit_plain digits).1]
  rw [unsignedValue, start, digitLoop_decimal small n fits]

theorem digitLoop_overflow {limit : Nat} (small : limit * 10 + 9 < 2 ^ 64) (n : Nat)
    (past : limit < n) (rest : List UInt8) :
    digitLoop limit (decimal n ++ rest) 0 = .error .ERANGE := by
  have last : ∀ (d val : Nat) (rest : List UInt8), d < 10 → val ≤ limit →
      limit < val * 10 + d → digitLoop limit (digit d :: rest) val = .error .ERANGE := by
    intro d val rest hd fits past
    have plain := isdigit_plain (isdigit_digit hd)
    have room : (val * 10 + d) % 2 ^ 64 = val * 10 + d := Nat.mod_eq_of_lt (by omega)
    simp only [digitLoop, plain.1, plain.2.2.1, isdigit_digit hd, digit_sub hd, room]
    simp [past]
  induction n using Nat.strong_induction_on generalizing rest with
  | _ n ih =>
    by_cases h : n < 10
    · rw [decimal_of_lt h, List.singleton_append]
      exact last n 0 rest h (Nat.zero_le limit) (by omega)
    · have step : n / 10 * 10 + n % 10 = n := Nat.div_add_mod' n 10
      have low : n % 10 < 10 := Nat.mod_lt n (by decide)
      rw [decimal_of_ge (Nat.le_of_not_lt h), List.append_assoc, List.singleton_append]
      by_cases fits : n / 10 ≤ limit
      · rw [digitLoop_decimal (by omega) (n / 10) fits]
        exact last (n % 10) (n / 10) rest low fits (by omega)
      · exact ih (n / 10) (by omega) (by omega) _

theorem signedValue_decimalInt {limit : Nat} (small : limit < 2 ^ 64) (i : Int)
    (fits : i.natAbs ≤ limit) : signedValue limit (decimalInt i) = .ok i := by
  have read := digitLoop_decimal small i.natAbs fits []
  rw [List.append_nil] at read
  unfold signedValue decimalInt
  by_cases neg : i < 0
  · rw [if_pos neg]
    have sign : takeSign ((45 :: decimal i.natAbs).dropWhile isspace) =
        (-1, decimal i.natAbs) := rfl
    have value : (-1 : Int) * (i.natAbs : Int) = i := by omega
    simp only [sign, read, digitLoop, value]
  · rw [if_neg neg]
    obtain ⟨c, tail, hc, digits⟩ := decimal_head i.natAbs
    have plain := isdigit_plain digits
    have sign : takeSign ((decimal i.natAbs).dropWhile isspace) = (1, decimal i.natAbs) := by
      simp [hc, plain.1, takeSign, plain.2.1]
    have value : (1 : Int) * (i.natAbs : Int) = i := by omega
    simp only [sign, read, digitLoop, value]

/-- The writer's loop, with its last digit pushed, is the numeral in reverse. -/
theorem strdecLoop_decimal {room n : Nat} (positive : 0 < room) (fits : n < 10 ^ room)
    (out : List UInt8) :
    (if (strdecLoop room n out).1.length < out.length + room then
        if (strdecLoop room n out).2 > 0 then
          (strdecLoop room n out).1 ++ [digit (strdecLoop room n out).2]
        else (strdecLoop room n out).1
      else (strdecLoop room n out).1) = out ++ (decimal n).reverse := by
  induction room generalizing n out with
  | zero => omega
  | succ room ih =>
    have last : n - n / 10 * 10 = n % 10 := by omega
    by_cases more : n / 10 / 10 > 0 ∧ room > 0
    · have fits' : n / 10 < 10 ^ room := by
        rw [Nat.pow_succ] at fits
        omega
      have tail := ih more.2 fits' (out ++ [digit (n % 10)])
      have len : (out ++ [digit (n % 10)]).length + room = out.length + (room + 1) := by
        simp only [List.length_append, List.length_singleton]
        omega
      rw [len] at tail
      have unfolded : strdecLoop (room + 1) n out =
          strdecLoop room (n / 10) (out ++ [digit (n % 10)]) := by
        simp only [strdecLoop, last, if_pos more]
      rw [unfolded, tail, decimal_of_ge (by omega : 10 ≤ n)]
      simp
    · have unfolded : strdecLoop (room + 1) n out = (out ++ [digit (n % 10)], n / 10) := by
        simp only [strdecLoop, last, if_neg more]
      rw [unfolded]
      simp only [List.length_append, List.length_singleton]
      by_cases two : 10 ≤ n
      · have hroom : 0 < room := by
          by_contra none
          obtain rfl : room = 0 := by omega
          simp at fits
          omega
        have short : n / 10 < 10 := by omega
        rw [if_pos (by omega), if_pos (by omega), decimal_of_ge two, decimal_of_lt short]
        simp
      · have one : n < 10 := by omega
        have zero : n / 10 = 0 := by omega
        rw [decimal_of_lt one, zero, Nat.mod_eq_of_lt one]
        simp

theorem uintToStrdec_decimal {u len : Nat} (positive : 0 < len) (fits : u < 10 ^ len) :
    uintToStrdec u len false = decimal u := by
  have loop := strdecLoop_decimal positive fits []
  simp only [List.length_nil, Nat.zero_add, List.nil_append] at loop
  unfold uintToStrdec
  rw [if_neg (by omega)]
  simp only [Bool.false_eq_true, if_false]
  rw [loop, List.reverse_reverse]

/-- The `len` low-order digits of a number, with leading zeros. -/
def padded : Nat → Nat → List UInt8
  | 0, _ => []
  | len + 1, n => padded len (n / 10) ++ [digit (n % 10)]

theorem padded_small {len n : Nat} (small : n < 10) :
    padded (len + 1) n = List.replicate len (digit 0) ++ [digit n] := by
  induction len generalizing n with
  | zero => simp [padded, Nat.mod_eq_of_lt small]
  | succ len ih =>
    have zero : n / 10 = 0 := by omega
    rw [padded, zero, ih (by decide), ← List.replicate_succ', Nat.mod_eq_of_lt small]

/-- The writer's loop, with its last digit and its padding pushed. -/
theorem strdecLoop_padded (room n : Nat) (out : List UInt8) :
    let written := strdecLoop (room + 1) n out
    (if written.1.length < out.length + (room + 1) then
        let pushed := if written.2 > 0 then written.1 ++ [digit written.2] else written.1
        pushed ++ List.replicate (out.length + (room + 1) - pushed.length) (digit 0)
      else written.1) = out ++ (padded (room + 1) n).reverse := by
  induction room generalizing n out with
  | zero =>
    have last : n - n / 10 * 10 = n % 10 := by omega
    simp [strdecLoop, padded, last]
  | succ room ih =>
    have last : n - n / 10 * 10 = n % 10 := by omega
    by_cases more : n / 10 / 10 > 0
    · have tail := ih (n / 10) (out ++ [digit (n % 10)])
      have len : (out ++ [digit (n % 10)]).length + (room + 1) =
          out.length + (room + 1 + 1) := by
        simp only [List.length_append, List.length_singleton]
        omega
      have unfolded : strdecLoop (room + 1 + 1) n out =
          strdecLoop (room + 1) (n / 10) (out ++ [digit (n % 10)]) := by
        rw [strdecLoop]
        simp only [last, if_pos (And.intro more (Nat.succ_pos room))]
      rw [len] at tail
      rw [unfolded]
      apply tail.trans
      simp [padded]
    · have unfolded : strdecLoop (room + 1 + 1) n out =
          (out ++ [digit (n % 10)], n / 10) := by
        rw [strdecLoop]
        simp only [last, more, false_and, if_false]
      have short : n / 10 < 10 := by omega
      rw [unfolded, padded, padded_small short]
      by_cases none : n / 10 = 0
      · have rest : out.length + (room + 1 + 1) - (out.length + 1) = room + 1 := by omega
        simp [none, rest, List.replicate_succ]
      · have pushed : n / 10 > 0 := Nat.pos_of_ne_zero none
        have rest : out.length + (room + 1 + 1) - (out.length + 2) = room := by omega
        simp [pushed, rest]

/-- With padding the text is exactly the low-order digits asked for. -/
theorem uintToStrdec_padded (u len : Nat) : uintToStrdec u len true = padded len u := by
  cases len with
  | zero => rfl
  | succ room =>
    have loop := strdecLoop_padded room u []
    simp only [List.length_nil, Nat.zero_add, List.nil_append] at loop
    unfold uintToStrdec
    rw [if_neg (Nat.succ_ne_zero room)]
    simp only [if_true]
    rw [loop, List.reverse_reverse]

section RoundTrip

theorem uint64ToString_decimal (v : UInt64) : uint64ToString v = decimal v.toNat := by
  have upper := v.toNat_lt
  rw [uint64ToString, uint64ToStrdec]
  apply uintToStrdec_decimal
  · decide
  · omega

theorem uint32ToString_decimal (v : UInt32) : uint32ToString v = decimal v.toNat :=
  uintToStrdec_decimal (by decide) (by have := v.toNat_lt; omega)

theorem uint16ToString_decimal (v : UInt16) : uint16ToString v = decimal v.toNat :=
  uintToStrdec_decimal (by decide) (by have := v.toNat_lt; omega)

theorem uint8ToString_decimal (v : UInt8) : uint8ToString v = decimal v.toNat :=
  uintToStrdec_decimal (by decide) (by have := v.toNat_lt; omega)

theorem stringToUint32_decimal {n : Nat} (h : n < 2 ^ 32) :
    stringToUint32 (decimal n) = .ok (UInt32.ofNat n) := by
  have small : 2 ^ 32 - 1 < 2 ^ 64 := by decide
  have read := unsignedValue_decimal small n (by omega) []
  rw [List.append_nil] at read
  rw [stringToUint32, read]
  rfl

theorem stringToUint32_overflow {n : Nat} (h : 2 ^ 32 ≤ n) :
    stringToUint32 (decimal n) = .error .ERANGE := by
  have small : (2 ^ 32 - 1) * 10 + 9 < 2 ^ 64 := by decide
  obtain ⟨c, tail, hc, digits⟩ := decimal_head n
  have start : (decimal n).dropWhile isspace = decimal n := by
    simp [hc, (isdigit_plain digits).1]
  have read := digitLoop_overflow small n (by omega) []
  rw [List.append_nil] at read
  rw [stringToUint32, unsignedValue, start, read]
  rfl

theorem stringToUint32_uint32ToString (v : UInt32) :
    stringToUint32 (uint32ToString v) = .ok v := by
  rw [uint32ToString_decimal, stringToUint32_decimal v.toNat_lt, UInt32.ofNat_toNat]

theorem stringToUint16_uint16ToString (v : UInt16) :
    stringToUint16 (uint16ToString v) = .ok v := by
  have hv := v.toNat_lt
  have back : (UInt32.ofNat v.toNat).toNat = v.toNat :=
    UInt32.toNat_ofNat_of_lt' (by simp [UInt32.size]; omega)
  rw [uint16ToString_decimal, stringToUint16, stringToUint32_decimal (by omega)]
  have range : ¬ v.toNat > 65535 := by omega
  simp only [bind, Except.bind, back, if_neg range, UInt16.ofNat_toNat]

theorem stringToUint8_uint8ToString (v : UInt8) : stringToUint8 (uint8ToString v) = .ok v := by
  have hv := v.toNat_lt
  have back : (UInt32.ofNat v.toNat).toNat = v.toNat :=
    UInt32.toNat_ofNat_of_lt' (by simp [UInt32.size]; omega)
  rw [uint8ToString_decimal, stringToUint8, stringToUint32_decimal (by omega)]
  have range : ¬ v.toNat > 255 := by omega
  simp only [bind, Except.bind, back, if_neg range, UInt8.ofNat_toNat]

theorem stringToInt64_int64ToString {v : Int64} (h : v ≠ Int64.minValue) :
    stringToInt64 (int64ToString v) = .ok v := by
  have small : 2 ^ 63 - 1 < 2 ^ 64 := by decide
  have lower := v.le_toInt
  have upper := v.toInt_lt
  have inner : v.toInt ≠ -2 ^ 63 := fun hv => h (Int64.toInt_inj.mp hv)
  have read := signedValue_decimalInt small v.toInt (by omega)
  rw [int64ToString, stringToInt64, read]
  exact congrArg Except.ok (Int64.ofInt_toInt v)

theorem stringToInt64_uint8ToString (v : UInt8) :
    stringToInt64 (uint8ToString v) = .ok (Int64.ofInt v.toNat) := by
  have small : 2 ^ 63 - 1 < 2 ^ 64 := by decide
  have positive : ¬ ((v.toNat : Int) < 0) := by omega
  have numeral : decimal v.toNat = decimalInt v.toNat := by
    rw [decimalInt, if_neg positive, Int.natAbs_natCast]
  have hv := v.toNat_lt
  rw [uint8ToString_decimal, numeral, stringToInt64,
    signedValue_decimalInt small _ (by rw [Int.natAbs_natCast]; omega)]
  rfl

theorem stringToInt32_decimalInt {i : Int} (h : i.natAbs ≤ 2 ^ 31 - 1) :
    stringToInt32 (decimalInt i) = .ok (Int32.ofInt i) := by
  have small : 2 ^ 31 - 1 < 2 ^ 64 := by decide
  rw [stringToInt32, signedValue_decimalInt small i h]
  rfl

theorem stringToInt32_int32ToString {v : Int32} (h : v ≠ Int32.minValue) :
    stringToInt32 (int32ToString v) = .ok v := by
  have lower := v.le_toInt
  have upper := v.toInt_lt
  have inner : v.toInt ≠ -2 ^ 31 := fun hv => h (Int32.toInt_inj.mp hv)
  rw [int32ToString, stringToInt32_decimalInt (by omega), Int32.ofInt_toInt]

theorem stringToInt8_int8ToString (v : Int8) : stringToInt8 (int8ToString v) = .ok v := by
  have lower := v.le_toInt
  have upper := v.toInt_lt
  have back : (Int32.ofInt v.toInt).toInt = v.toInt := by
    rw [Int32.toInt_ofInt_of_le (by omega) (by omega)]
  rw [int8ToString, stringToInt8, stringToInt32_decimalInt (by omega)]
  have range : ¬ (v.toInt > 127 ∨ v.toInt < -128) := by omega
  simp only [bind, Except.bind, back, if_neg range, Int8.ofInt_toInt]

end RoundTrip

end CppMyth
