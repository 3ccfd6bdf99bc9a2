import CppMyth.Builtin.Numerals
import CppMyth.Library.Double
import CppMyth.Proto.Base
import Mathlib.Data.List.TakeWhile

/-! The nodes of a parsed document as `jsonparser.cpp` reads them, and the conversions between
numbers that C gives to them. -/
namespace CppMyth
open Library

namespace JSON

/-- The keys of an object differ. An integer is an `int`, any other number a double. -/
inductive Node where
  | null
  | boolean (value : Bool)
  | integer (value : Int32)
  | double (value : Double)
  | string (value : List UInt8)
  | array (elements : List Node)
  | object (fields : List (List UInt8 × Node))

namespace Node

def isNull : Node → Bool
  | null => true
  | _ => false

def isInt : Node → Bool
  | integer _ => true
  | _ => false

def isDouble : Node → Bool
  | double _ => true
  | _ => false

def isTrue : Node → Bool
  | boolean value => value
  | _ => false

def isFalse : Node → Bool
  | boolean value => !value
  | _ => false

/-- A node of another type gives 0. -/
def getDoubleValue : Node → Double
  | double value => value
  | _ => .zero

/-- An integer goes through a double, too. -/
def getBigIntValue : Node → Option Int
  | integer value => (Double.round value.toInt).toInt64
  | double value => value.toInt64
  | _ => some 0

def getIntValue : Node → Int
  | integer value => value.toInt
  | _ => 0

def getObjectValue (key : List UInt8) : Node → Node
  | object fields => ((fields.find? fun field => field.1 == key).map Prod.snd).getD null
  | _ => null

end Node

end JSON

namespace IntType

def width : IntType → Nat
  | int8 | uint8 => 8
  | int16 | uint16 => 16
  | int32 | uint32 => 32
  | int64 | uint64 => 64

/-- The conversion to the type. -/
def wrap (t : IntType) (i : Int) : Int :=
  if t.signed then Int.bmod i (2 ^ t.width) else i % 2 ^ t.width

def Holds (t : IntType) (v : Int) : Prop := t.minimum ≤ v ∧ v ≤ t.maximum

instance (t : IntType) (v : Int) : Decidable (t.Holds v) := inferInstanceAs (Decidable (_ ∧ _))

theorem wrap_of_holds {t : IntType} {v : Int} (h : t.Holds v) : t.wrap v = v := by
  obtain ⟨low, high⟩ := h
  cases t <;> simp only [minimum, maximum] at low high <;>
    simp only [wrap, signed, width, Int.bmod, if_true, Bool.false_eq_true, if_false] <;> omega

end IntType

/-- Blanks and a sign apart, the text of a number. -/
def signedText (str : List UInt8) : Bool × List UInt8 :=
  match str.dropWhile isspace with
  | c :: rest =>
    if c = 45 then (true, rest) else if c = 43 then (false, rest) else (false, c :: rest)
  | [] => (false, [])

/-- The exponent behind a decimal numeral, which has at least one digit. -/
def exponentOf : List UInt8 → Int
  | c :: rest =>
    let (minus, digits) := match rest with
      | s :: digits => if s = 45 then (true, digits) else if s = 43 then (false, digits)
        else (false, s :: digits)
      | [] => (false, [])
    let value : Int := digitsValue (digits.takeWhile isdigit)
    if (c = 101 ∨ c = 69) then (if minus then -value else value) else 0
  | [] => 0

/-- The numeral at the start of the text, without its sign. -/
def decimalValue (str : List UInt8) : Rat :=
  let whole := str.takeWhile isdigit
  let rest := str.dropWhile isdigit
  let point := rest.head? = some 46
  let fraction := if point then rest.tail.takeWhile isdigit else []
  let behind := if point then rest.tail.dropWhile isdigit else rest
  if whole = [] ∧ fraction = [] then 0
  else (digitsValue (whole ++ fraction) : Rat) * 10 ^ (exponentOf behind - fraction.length)

/-- On decimal numerals, in the C locale; hexadecimal numerals and the names of infinity and
of not-a-number are not in the model. -/
def atof (str : List UInt8) : Double :=
  let text := signedText str
  Double.round (if text.1 then -decimalValue text.2 else decimalValue text.2)

theorem signedText_decimalInt (v : Int) :
    signedText (decimalInt v) = (decide (v < 0), decimal v.natAbs) := by
  by_cases negative : v < 0
  · have minus : decimalInt v = 45 :: decimal v.natAbs := if_pos negative
    rw [minus, signedText, List.dropWhile_cons_of_neg (by decide)]
    simp [negative]
  · obtain ⟨c, rest, digits, first⟩ := decimal_head v.natAbs
    have plain : decimalInt v = c :: rest := by rw [decimalInt, if_neg negative, digits]
    obtain ⟨d, small, rfl⟩ := digit_of_isdigit first
    have unsigned : isspace (digit d) = false ∧ digit d ≠ 45 ∧ digit d ≠ 43 := by
      interval_cases d <;> decide
    obtain ⟨blank, minus, plus⟩ := unsigned
    rw [plain, signedText, List.dropWhile_cons_of_neg (by simp [blank]), digits]
    simp [minus, plus, negative]

theorem decimalValue_decimal (n : Nat) : decimalValue (decimal n) = n := by
  have digits : (decimal n).takeWhile isdigit = decimal n :=
    List.takeWhile_eq_self_iff.mpr (decimal_isdigit n)
  have behind : (decimal n).dropWhile isdigit = [] :=
    List.dropWhile_eq_nil_iff.mpr (decimal_isdigit n)
  simp [decimalValue, digits, behind, decimal_ne_nil, digitsValue_decimal, exponentOf]

/-- The text of an integer that is a double is read as that double. -/
theorem atof_decimalInt {v : Int} (h : Representable v) :
    atof (decimalInt v) = .finite ⟨v, h⟩ := by
  have magnitude : (if decide (v < 0) then -(v.natAbs : Rat) else v.natAbs) = v := by
    by_cases negative : v < 0
    · have opposite : -(v.natAbs : Int) = v := by omega
      rw [if_pos (by simpa using negative), ← Int.cast_natCast, ← Int.cast_neg, opposite]
    · have same : (v.natAbs : Int) = v := by omega
      rw [if_neg (by simpa using negative), ← Int.cast_natCast, same]
  rw [atof, signedText_decimalInt]
  simp only [decimalValue_decimal]
  rw [magnitude]
  exact Double.round_exact h

end CppMyth
