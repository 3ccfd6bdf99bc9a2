import CppMyth.Json.Node
import Mathlib.Data.List.Lex

/-! The parser of `sajson.h`. It works in the copy of the text it was given, which it changes in
place, and in an array of as many words: the elements of the open structures grow from its front,
what is finished grows from its end. -/
namespace CppMyth.Sajson
open Library

/-- `sajson::type` -/
inductive ValueType where
  | INTEGER | DOUBLE | NULL | FALSE | TRUE | STRING | ARRAY | OBJECT
  deriving DecidableEq, Repr

namespace ValueType

def code : ValueType → UInt64
  | INTEGER => 0
  | DOUBLE => 1
  | NULL => 2
  | FALSE => 3
  | TRUE => 4
  | STRING => 5
  | ARRAY => 6
  | OBJECT => 7

def ofCode (code : UInt64) : ValueType :=
  if code = 0 then INTEGER
  else if code = 1 then DOUBLE
  else if code = 2 then NULL
  else if code = 3 then FALSE
  else if code = 4 then TRUE
  else if code = 5 then STRING
  else if code = 6 then ARRAY
  else OBJECT

end ValueType

/-- `VALUE_MASK`, with three bits of type above it. -/
def valueMask : UInt64 := 0x1FFFFFFFFFFFFFFF

/-- `ROOT_MARKER` -/
def rootMarker : UInt64 := valueMask

def getElementType (s : UInt64) : ValueType := .ofCode ((s >>> 61) &&& 7)

def getElementValue (s : UInt64) : UInt64 := s &&& valueMask

def makeElement (t : ValueType) (value : UInt64) : UInt64 := value ||| (t.code <<< 61)

/-- What a word of the structure holds. -/
inductive Word where
  | size (n : UInt64)
  | int (i : Int32)
  | double (d : Double)
  deriving DecidableEq

/-- `words` holds nothing where nothing was written. The pointers are counted from the start of
the text and of the structure, which are of the same length. -/
structure Parser where
  text : List UInt8
  words : Nat → Option Word
  p : Nat
  temp : Nat
  out : Nat

/-- How a call fails: with a message for a place in the text, or outside the language. -/
inductive Fail where
  | undefined
  | error (line column : Nat) (message : String)
  deriving DecidableEq, Repr

abbrev Parsed (α : Type) := Except Fail (α × Parser)

/-- The place behind the text that was read. -/
def lineColumn : List UInt8 → Nat × Nat → Nat × Nat
  | [], place => place
  | 13 :: 10 :: rest, (line, _) => lineColumn rest (line + 1, 1)
  | 13 :: rest, (line, _) => lineColumn rest (line + 1, 1)
  | 10 :: rest, (line, _) => lineColumn rest (line + 1, 1)
  | _ :: rest, (line, column) => lineColumn rest (line, column + 1)

namespace Parser

def new (text : List UInt8) : Parser := ⟨text, fun _ => none, 0, 0, text.length⟩

def error (s : Parser) (message : String) : Fail :=
  let place := lineColumn (s.text.take s.p) (1, 1)
  .error place.1 place.2 message

/-- What is still to be read. -/
def rest (s : Parser) : List UInt8 := s.text.drop s.p

def store (s : Parser) (i : Nat) (w : Word) : Except Fail Parser :=
  if i < s.text.length then .ok { s with words := Function.update s.words i (some w) }
  else .error .undefined

def loadSize (s : Parser) (i : Nat) : Except Fail UInt64 :=
  match s.words i with
  | some (.size n) => .ok n
  | _ => .error .undefined

end Parser

/-- The blanks of `peek_structure`. -/
def isBlank (c : UInt8) : Bool := c == 0x20 || c == 0x09 || c == 0x0A || c == 0x0D

/-- The next character behind blanks; 0 is never legal there and is taken for the end. -/
def Parser.peekStructure (s : Parser) : UInt8 × Parser :=
  let s := { s with p := s.p + (s.rest.takeWhile isBlank).length }
  (s.rest.headD 0, s)

/-- `parse_null` and its siblings. The first character was looked at before. -/
def Parser.parseLiteral (word : List UInt8) (expected : String) (t : ValueType) (s : Parser) :
    Parsed ValueType :=
  if s.text.length - s.p < word.length then .error (s.error "unexpected end of input")
  else if (s.rest.take word.length).tail ≠ word.tail then .error (s.error expected)
  else .ok (t, { s with p := s.p + word.length })

def Parser.parseNull : Parser → Parsed ValueType :=
  parseLiteral (ascii "null") "expected 'null'" .NULL

def Parser.parseFalse : Parser → Parsed ValueType :=
  parseLiteral (ascii "false") "expected 'false'" .FALSE

def Parser.parseTrue : Parser → Parsed ValueType :=
  parseLiteral (ascii "true") "expected 'true'" .TRUE

/-- The locals of `parse_number`. -/
structure Numeral where
  tryDouble : Bool := false
  i : Int := 0
  d : Double := .zero
  exponent : Int := 0

/-- How a number fails, with the text that is unread there. -/
inductive NumberFail where
  | undefined
  | error (rest : List UInt8) (message : String)

abbrev Scanned (α : Type) := Except NumberFail (α × List UInt8)

def intMax : Int := 2 ^ 31 - 1

/-- A result that is no `int` is undefined. -/
def asInt {α : Type} (i : Int) (next : Scanned α) : Scanned α :=
  if -intMax - 1 ≤ i ∧ i ≤ intMax then next else .error .undefined

namespace Numeral

def toDouble (num : Numeral) : Numeral :=
  if num.tryDouble then num else { num with tryDouble := true, d := .round num.i }

def push (num : Numeral) (digit : UInt8) : Numeral :=
  let num := if ¬ num.tryDouble ∧ num.i > intMax / 10 - 9 then num.toDouble else num
  if num.tryDouble then { num with d := ((Double.round 10).mul num.d).add (.round digit.toNat) }
  else { num with i := 10 * num.i + digit.toNat }

/-- A digit behind the point. -/
def shift (num : Numeral) (digit : UInt8) : Numeral :=
  { num with
    d := (num.d.mul (.round 10)).add (.round digit.toNat)
    exponent := num.exponent - 1 }

end Numeral

/-- The end of the text is an error, at which nothing is left. -/
def unlessEnd {α : Type} (rest : List UInt8) (next : Scanned α) : Scanned α :=
  if rest = [] then .error (.error [] "unexpected end of input") else next

def digitsLoop : List UInt8 → Numeral → Scanned Numeral
  | [], _ => .error .undefined
  | c :: rest, num =>
    if isdigit c then unlessEnd rest <| digitsLoop rest (num.push (c - 48))
    else .ok (num, c :: rest)

def wholePart : List UInt8 → Scanned Numeral
  | [] => .error .undefined
  | c :: rest => if c = 48 then .ok ({}, rest) else digitsLoop (c :: rest) {}

def fractionLoop : List UInt8 → Numeral → Scanned Numeral
  | [], _ => .error .undefined
  | c :: rest, num =>
    if isdigit c then
      unlessEnd rest <| asInt (num.exponent - 1) <| fractionLoop rest (num.shift (c - 48))
    else .ok (num, c :: rest)

def fractionPart (num : Numeral) : List UInt8 → Scanned Numeral
  | [] => .error .undefined
  | c :: rest =>
    if c = 46 then unlessEnd rest <| fractionLoop rest num.toDouble
    else .ok (num, c :: rest)

def exponentLoop : List UInt8 → Int → Scanned Int
  | [], _ => .error .undefined
  | c :: rest, exp =>
    if isdigit c then
      let exp := 10 * exp + (c - 48).toNat
      asInt exp <| unlessEnd rest <| exponentLoop rest exp
    else .ok (exp, c :: rest)

/-- The digits of an exponent, behind its sign. -/
def exponentDigits (rest : List UInt8) : List UInt8 :=
  if rest.head? = some 45 ∨ rest.head? = some 43 then rest.tail else rest

def exponentPart (num : Numeral) : List UInt8 → Scanned Numeral
  | [] => .error .undefined
  | e :: rest =>
    if e = 101 ∨ e = 69 then
      let negativeExponent : Bool := rest.head? = some 45
      let digits := exponentDigits rest
      unlessEnd rest <| unlessEnd digits <|
        if ¬ isdigit (digits.headD 0) then .error (.error digits "missing exponent")
        else match exponentLoop digits 0 with
          | .error fail => .error fail
          | .ok (exp, behind) =>
            let exponent := num.exponent + if negativeExponent then -exp else exp
            asInt exponent <| .ok ({ num.toDouble with exponent := exponent }, behind)
    else .ok (num, e :: rest)

/-- The table holds the double next to each power of ten that it names. -/
def pow10 (exponent : Int) : Double :=
  if exponent > 308 then .infinite false
  else if exponent < -323 then .zero
  else .round (10 ^ exponent)

inductive Number where
  | integer (i : Int32)
  | double (d : Double)
  deriving DecidableEq

def Numeral.value (num : Numeral) (negative : Bool) : Number :=
  let d := if num.exponent ≠ 0 then num.d.mul (pow10 num.exponent) else num.d
  if num.tryDouble then .double (if negative then d.neg else d)
  else .integer (.ofInt (if negative then -num.i else num.i))

/-- The parts of a number behind its sign. -/
def scanUnsigned (str : List UInt8) : Scanned Numeral :=
  match wholePart str with
  | .error fail => .error fail
  | .ok (num, str) =>
    match fractionPart num str with
    | .error fail => .error fail
    | .ok (num, str) => exponentPart num str

def scanNumber (str : List UInt8) : Scanned Number :=
  let negative : Bool := str.head? = some 45
  let scanned := if negative then unlessEnd str.tail <| scanUnsigned str.tail
    else scanUnsigned str
  match scanned with
  | .error fail => .error fail
  | .ok (num, str) => .ok (num.value negative, str)

def Number.word : Number → ValueType × Word
  | integer i => (.INTEGER, .int i)
  | double d => (.DOUBLE, .double d)

def Parser.parseNumber (s : Parser) : Parsed ValueType :=
  match scanNumber s.rest with
  | .error .undefined => .error .undefined
  | .error (.error rest message) =>
    .error (error { s with p := s.text.length - rest.length } message)
  | .ok (number, rest) =>
    if s.out = 0 then .error .undefined
    else
      let s := { s with p := s.text.length - rest.length, out := s.out - 1 }
      (s.store s.out number.word.2).map fun s => (number.word.1, s)

def quote : UInt8 := 34
def backslash : UInt8 := 92

/-- The escapes of one character. -/
def replacement (c : UInt8) : Option UInt8 :=
  if c = 34 then some 34
  else if c = 92 then some 92
  else if c = 47 then some 47
  else if c = 98 then some 8
  else if c = 102 then some 12
  else if c = 110 then some 10
  else if c = 114 then some 13
  else if c = 116 then some 9
  else none

def hexDigit (c : UInt8) : Option UInt32 :=
  if 48 ≤ c ∧ c ≤ 57 then some (c - 48).toUInt32
  else if 97 ≤ c ∧ c ≤ 102 then some (c - 97 + 10).toUInt32
  else if 65 ≤ c ∧ c ≤ 70 then some (c - 65 + 10).toUInt32
  else none

def leadByte (mark codepoint shift : UInt32) : UInt8 := (mark ||| (codepoint >>> shift)).toUInt8

def trailByte (codepoint shift : UInt32) : UInt8 :=
  ((0x80 : UInt32) ||| ((codepoint >>> shift) &&& 0x3F)).toUInt8

/-- The bytes that `write_utf8` writes. -/
def writeUtf8 (codepoint : UInt32) : List UInt8 :=
  if codepoint < 0x80 then [codepoint.toUInt8]
  else if codepoint < 0x800 then [leadByte 0xC0 codepoint 6, trailByte codepoint 0]
  else if codepoint < 0x10000 then
    [leadByte 0xE0 codepoint 12, trailByte codepoint 6, trailByte codepoint 0]
  else
    [leadByte 0xF0 codepoint 18, trailByte codepoint 12, trailByte codepoint 6,
      trailByte codepoint 0]

/-- The low surrogate `v` behind the high one. -/
def surrogates (u v : UInt32) : UInt32 :=
  (0x10000 : UInt32) + (((u - 0xD800) <<< (10 : UInt32)) ||| (v - 0xDC00))

namespace Parser

/-- A control character in a string becomes a blank, in the text itself. -/
def blank (s : Parser) : Parser :=
  if s.text.getD s.p 0x20 < 0x20 then { s with text := s.text.set s.p 0x20 } else s

/-- The bytes are written at `stop`. -/
def write (s : Parser) (stop : Nat) : List UInt8 → Parser
  | [] => s
  | b :: bytes => write { s with text := s.text.set stop b } (stop + 1) bytes

/-- The two words of a string, once the quotation mark at its end is reached. -/
def closeString (s : Parser) (tag start stop : Nat) : Parsed ValueType :=
  match s.store tag (.size (.ofNat start)) with
  | .error fail => .error fail
  | .ok t => (t.store (tag + 1) (.size (.ofNat stop))).map fun t =>
    (.STRING, { t with p := t.p + 1 })

def readHex : Nat → UInt32 → Parser → Parsed UInt32
  | 0, v, s => .ok (v, s)
  | i + 1, v, s =>
    match s.text[s.p]? with
    | none => .error .undefined
    | some c =>
      let s := { s with p := s.p + 1 }
      match hexDigit c with
      | none => .error (s.error "invalid character in unicode escape")
      | some d => readHex i ((v <<< 4) + d) s

/-- What stands behind a high surrogate. -/
def readTrail (u : UInt32) (s : Parser) : Parsed UInt32 :=
  if s.text.length - s.p < 6 then
    .error (s.error "unexpected end of input during UTF-16 surrogate pair")
  else if s.rest.take 2 ≠ [backslash, 117] then .error (s.error "expected \\u")
  else match readHex 4 0 { s with p := s.p + 2 } with
    | .error fail => .error fail
    | .ok (v, s) =>
      if v < 0xDC00 ∨ v > 0xDFFF then .error (s.error "invalid UTF-16 trail surrogate")
      else .ok (surrogates u v, s)

/-- What stands behind the `u` of an escape: the code point it names. -/
def readUnicode (s : Parser) : Parsed UInt32 :=
  if s.text.length - s.p < 4 then .error (s.error "unexpected end of input")
  else match readHex 4 0 s with
    | .error fail => .error fail
    | .ok (u, s) => if 0xD800 ≤ u ∧ u ≤ 0xDBFF then readTrail u s else .ok (u, s)

/-- What stands behind a backslash: the bytes it is replaced by. -/
def readEscape (s : Parser) : Parsed (List UInt8) :=
  match s.text[s.p]? with
  | none => .error (s.error "unexpected end of input")
  | some e =>
    match replacement e with
    | some r => .ok ([r], { s with p := s.p + 1 })
    | none =>
      if e = 117 then (readUnicode { s with p := s.p + 1 }).map fun (u, s) => (writeUtf8 u, s)
      else .error (s.error "unknown escape")

/-- Every turn reads a character, so the rest of the text bounds them. -/
def parseStringSlow (tag start : Nat) : Nat → Nat → Parser → Parsed ValueType
  | 0, _, _ => .error .undefined
  | fuel + 1, stop, s =>
    if s.p ≥ s.text.length then .error (s.error "unexpected end of input")
    else
      let s := s.blank
      let c := s.text.getD s.p 0
      if c = quote then s.closeString tag start stop
      else if c = backslash then
        match readEscape { s with p := s.p + 1 } with
        | .error fail => .error fail
        | .ok (bytes, s) =>
          parseStringSlow tag start fuel (stop + bytes.length) (s.write stop bytes)
      else
        parseStringSlow tag start fuel (stop + 1) { s.write stop [c] with p := s.p + 1 }

def parseStringLoop (tag start : Nat) : Nat → Parser → Parsed ValueType
  | 0, _ => .error .undefined
  | fuel + 1, s =>
    if s.p ≥ s.text.length then .error (s.error "unexpected end of input")
    else
      let s := s.blank
      let c := s.text.getD s.p 0
      if c = quote then s.closeString tag start s.p
      else if c = backslash then parseStringSlow tag start (s.text.length - s.p + 1) s.p s
      else parseStringLoop tag start fuel { s with p := s.p + 1 }

/-- The words of the string go to `tag`. -/
def parseString (tag : Nat) (s : Parser) : Parsed ValueType :=
  let s := { s with p := s.p + 1 }
  parseStringLoop tag s.p (s.text.length - s.p + 1) s

/-- A string that is a value goes to the finished words. -/
def parseStringValue (s : Parser) : Parsed ValueType :=
  if s.out < 2 then .error .undefined
  else parseString (s.out - 2) { s with out := s.out - 2 }

end Parser

/-- `object_key_record` -/
structure KeyRecord where
  keyStart : UInt64
  keyEnd : UInt64
  value : UInt64
  deriving DecidableEq

/-- The bytes of the text from `start` up to `stop`. -/
def slice (text : List UInt8) (start stop : UInt64) : List UInt8 :=
  (text.drop start.toNat).take (stop - start).toNat

def KeyRecord.key (text : List UInt8) (r : KeyRecord) : List UInt8 := slice text r.keyStart r.keyEnd

/-- `object_key_comparator`: by length, and keys of one length as memcmp orders them. -/
def keyLess (lhs rhs : List UInt8) : Bool :=
  lhs.length < rhs.length ||
    (lhs.length == rhs.length && decide (lhs.map UInt8.toNat < rhs.map UInt8.toNat))

/-- `std::sort` puts a list in an order in which no element is less than one before it. What it
does with equivalent elements is its own. -/
structure StdSort where
  sort : (KeyRecord → KeyRecord → Bool) → List KeyRecord → List KeyRecord
  perm : ∀ less records, (∀ a b c, less a b = false → less b c = false → less a c = false) →
    (∀ a b, less a b = true → less b a = false) → (sort less records).Perm records
  sorted : ∀ less records, (∀ a b c, less a b = false → less b c = false → less a c = false) →
    (∀ a b, less a b = true → less b a = false) →
    (sort less records).Pairwise fun a b => less b a = false

namespace Parser

/-- The loop of `install_array`: `n` elements are moved to the finished words, `shift` is added
to each. -/
def moveElements (shift : UInt64) : Nat → Parser → Except Fail Parser
  | 0, s => .ok s
  | n + 1, s =>
    if s.out = 0 then .error .undefined
    else match s.loadSize (s.temp - 1) with
      | .error fail => .error fail
      | .ok element =>
        match s.store (s.out - 1) (.size (element + shift)) with
        | .error fail => .error fail
        | .ok s => moveElements shift n { s with temp := s.temp - 1, out := s.out - 1 }

/-- The length goes in front of the elements. -/
def installLength (length : Nat) (s : Parser) : Except Fail Parser :=
  if s.out = 0 then .error .undefined
  else (s.store (s.out - 1) (.size (.ofNat length))).map fun s => { s with out := s.out - 1 }

def installArray (arrayBase : Nat) (s : Parser) : Parsed ValueType :=
  let length := s.temp - arrayBase
  let newBase : UInt64 := .ofNat s.out - .ofNat length - 1
  match s.moveElements (.ofNat arrayBase - newBase) length with
  | .error fail => .error fail
  | .ok s => (s.installLength length).map fun s => (.ARRAY, s)

/-- The records that lie in the words from `base` on. -/
def loadRecords (s : Parser) : Nat → Nat → Except Fail (List KeyRecord)
  | 0, _ => .ok []
  | n + 1, base =>
    match s.loadSize base, s.loadSize (base + 1), s.loadSize (base + 2),
      s.loadRecords n (base + 3) with
    | .ok keyStart, .ok keyEnd, .ok value, .ok records => .ok (⟨keyStart, keyEnd, value⟩ :: records)
    | _, _, _, _ => .error .undefined

def storeRecords (base : Nat) : List KeyRecord → Parser → Except Fail Parser
  | [], s => .ok s
  | r :: records, s =>
    match s.store base (.size r.keyStart) with
    | .error fail => .error fail
    | .ok s => match s.store (base + 1) (.size r.keyEnd) with
      | .error fail => .error fail
      | .ok s => match s.store (base + 2) (.size r.value) with
        | .error fail => .error fail
        | .ok s => storeRecords (base + 3) records s

/-- The loop of `install_object`. -/
def moveRecords (shift : UInt64) : Nat → Parser → Except Fail Parser
  | 0, s => .ok s
  | n + 1, s =>
    match s.moveElements shift 1 with
    | .error fail => .error fail
    | .ok s => match s.moveElements 0 2 with
      | .error fail => .error fail
      | .ok s => moveRecords shift n s

def installObject (sort : StdSort) (objectBase : Nat) (s : Parser) : Parsed ValueType :=
  let length := (s.temp - objectBase) / 3
  match s.loadRecords length objectBase with
  | .error fail => .error fail
  | .ok records =>
    let less := fun a b => keyLess (KeyRecord.key s.text a) (KeyRecord.key s.text b)
    match s.storeRecords objectBase (sort.sort less records) with
    | .error fail => .error fail
    | .ok s =>
      let newBase : UInt64 := .ofNat s.out - .ofNat (length * 3) - 1
      match s.moveRecords (.ofNat objectBase - newBase) length with
      | .error fail => .error fail
      | .ok s => (s.installLength length).map fun s => (.OBJECT, s)

end Parser

/-- The locals of `parse` that its loop keeps. -/
structure Structure where
  parser : Parser
  structureType : ValueType
  base : Nat

/-- `document`, once the text was accepted. -/
structure Document where
  text : List UInt8
  words : Nat → Option Word
  rootType : ValueType
  root : Nat

/-- How a turn of the loop goes on. -/
inductive Turn where
  | again (s : Structure)
  | done (d : Document)

namespace Structure

/-- The character that closes the structure. -/
def closing (s : Structure) : UInt8 := if s.structureType = .OBJECT then 125 else 93

/-- The comma, if there was one, and the character behind it. -/
def readComma (s : Structure) : Except Fail (Bool × UInt8 × Parser) :=
  let first := s.parser.temp = s.base + 1
  let (c, p) := s.parser.peekStructure
  if first then
    if c = 44 then .error (p.error "unexpected comma") else .ok (false, c, p)
  else if c = 44 then
    let (c, p) := { p with p := p.p + 1 }.peekStructure
    .ok (true, c, p)
  else if c ≠ s.closing then .error (p.error "expected ,")
  else .ok (false, c, p)

/-- The key in front of an element of an object. -/
def readKey (structureType : ValueType) (c : UInt8) (p : Parser) : Except Fail Parser :=
  if structureType = .OBJECT ∧ c ≠ 125 then
    if c ≠ quote then .error (p.error "object key must be quoted")
    else match p.parseString p.temp with
      | .error .undefined => .error .undefined
      -- the message is another one, at the place where the string failed
      | .error (.error line column _) => .error (.error line column "invalid object key")
      | .ok (_, p) =>
        let (c, p) := p.peekStructure
        if c ≠ 58 then .error (p.error "expected :")
        else .ok { p with p := p.p + 1, temp := p.temp + 2 }
  else .ok p

/-- The element of a value that is finished. -/
def pushElement (s : Structure) : ValueType × Parser → Except Fail Turn
  | (t, p) =>
    (p.store p.temp (.size (makeElement t (.ofNat p.out - .ofNat s.base - 1)))).map fun p =>
      .again { s with parser := { p with temp := p.temp + 1 } }

/-- The label `push`. -/
def push (s : Structure) (nextType : ValueType) : Except Fail Turn :=
  let p := { s.parser with p := s.parser.p + 1 }
  (p.store p.temp (.size (makeElement s.structureType (.ofNat s.base)))).map fun p =>
    .again ⟨{ p with temp := p.temp + 1 }, nextType, p.temp⟩

/-- The label `done`. -/
def finish (rootType : ValueType) (p : Parser) : Except Fail Turn :=
  let (c, p) := p.peekStructure
  if c = 0 then .ok (.done ⟨p.text, p.words, rootType, p.out⟩)
  else .error (p.error "expected end of input")

/-- The label `pop`. -/
def pop (sort : StdSort) (s : Structure) (hadComma : Bool) : Except Fail Turn :=
  if hadComma then .error (s.parser.error "trailing commas not allowed")
  else
    let p := { s.parser with p := s.parser.p + 1 }
    match p.loadSize s.base with
    | .error fail => .error fail
    | .ok element =>
      match (if s.structureType = .ARRAY then p.installArray (s.base + 1)
        else p.installObject sort (s.base + 1)) with
      | .error fail => .error fail
      | .ok (t, p) =>
        let parent := getElementValue element
        if parent = rootMarker then finish t p
        else pushElement ⟨p, getElementType element, parent.toNat⟩ (t, { p with temp := s.base })

/-- The switch of `parse`, at the character `c`. -/
def switch (sort : StdSort) (s : Structure) (hadComma : Bool) (c : UInt8) : Except Fail Turn :=
  let p := s.parser
  if c = 0 then .error (p.error "unexpected end of input")
  else if c = 110 then p.parseNull.bind s.pushElement
  else if c = 102 then p.parseFalse.bind s.pushElement
  else if c = 116 then p.parseTrue.bind s.pushElement
  else if isdigit c ∨ c = 45 then p.parseNumber.bind s.pushElement
  else if c = quote then p.parseStringValue.bind s.pushElement
  else if c = 91 then s.push .ARRAY
  else if c = 123 then s.push .OBJECT
  else if c = 93 then
    if s.structureType = .ARRAY then s.pop sort hadComma else .error (p.error "expected \x7d")
  else if c = 125 then
    if s.structureType = .OBJECT then s.pop sort hadComma else .error (p.error "expected ]")
  else if c = 44 then .error (p.error "unexpected comma")
  else .error (p.error "cannot parse unknown value")

/-- One turn of the loop of `parse`. -/
def turn (sort : StdSort) (s : Structure) : Except Fail Turn :=
  match s.readComma with
  | .error fail => .error fail
  | .ok (hadComma, c, p) =>
    match readKey s.structureType c p with
    | .error fail => .error fail
    | .ok p =>
      let (c, p) := p.peekStructure
      switch sort { s with parser := p } hadComma c

/-- Every turn that goes on has read a character. -/
def loop (sort : StdSort) : Nat → Structure → Except Fail Document
  | 0, _ => .error .undefined
  | fuel + 1, s =>
    match s.turn sort with
    | .error fail => .error fail
    | .ok (.done d) => .ok d
    | .ok (.again s) => loop sort fuel s

end Structure

/-- `sajson::parse` -/
def parse (sort : StdSort) (text : List UInt8) : Except Fail Document :=
  let (c, s) := (Parser.new text).peekStructure
  if c = 0 then .error (s.error "no root element")
  else if c = 91 ∨ c = 123 then
    let t := if c = 91 then ValueType.ARRAY else .OBJECT
    match { s with p := s.p + 1 }.store s.temp (.size (makeElement t rootMarker)) with
    | .error fail => .error fail
    | .ok s => Structure.loop sort (text.length + 1) ⟨{ s with temp := s.temp + 1 }, t, s.temp⟩
  else .error (s.error "document root must be object or array")

end CppMyth.Sajson
