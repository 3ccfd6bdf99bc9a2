import CppMyth.Builtin.Time
import CppMyth.Json.Node

/-! The binding of a document's fields to the attributes of an object, `mythjsonbinder.cpp`: a
field that is a string is read by the parser of the attribute's type, any other by its node. -/
namespace CppMyth
open Library

namespace JSON

inductive FT where
  | IS_STRING | IS_INT8 | IS_INT16 | IS_INT32 | IS_INT64 | IS_UINT8 | IS_UINT16 | IS_UINT32
  | IS_DOUBLE | IS_TIME | IS_BOOLEAN
  deriving DecidableEq, Repr

/-- What a setter is given to point to. -/
inductive Value where
  | text (str : List UInt8)
  | int (num : Int)
  | double (num : Double)
  | time (time : Int)
  | bool (b : Bool)
  deriving DecidableEq

structure AttrBind (O : Type) where
  field : List UInt8
  type : FT
  set : O → Value → O

/-- The number starts as 0 and the parser stores only what it accepts. -/
def parsed {α : Type} (toInt : α → Int) : Except ParseError α → Int
  | .ok num => toInt num
  | .error _ => 0

def fromString (mktime : Tm → Int) (type : FT) (value : List UInt8) : Value :=
  let str := ProtoBase.cstr value
  match type with
  | .IS_STRING => .text str
  | .IS_INT8 => .int (parsed Int8.toInt (stringToInt8 str))
  | .IS_INT16 => .int (parsed Int16.toInt (stringToInt16 str))
  | .IS_INT32 => .int (parsed Int32.toInt (stringToInt32 str))
  | .IS_INT64 => .int (parsed Int64.toInt (stringToInt64 str))
  | .IS_UINT8 => .int (parsed (fun num => (num.toNat : Int)) (stringToUint8 str))
  | .IS_UINT16 => .int (parsed (fun num => (num.toNat : Int)) (stringToUint16 str))
  | .IS_UINT32 => .int (parsed (fun num => (num.toNat : Int)) (stringToUint32 str))
  | .IS_DOUBLE => .double (atof str)
  | .IS_BOOLEAN => .bool (str == ascii "true")
  | .IS_TIME => .time (parsed id (Builtin.stringToTime mktime str))

/-- A conversion gives nothing where C leaves it undefined, and `none` where the setter is not
called: the node is of another type. -/
abbrev Given : Type := Option (Option Value)

def fromInt (type : IntType) (field : Node) : Given :=
  if field.isInt then some (some (.int (type.wrap field.getIntValue))) else some none

def fromBigInt (type : IntType) (field : Node) : Given :=
  if field.isInt || field.isDouble then
    field.getBigIntValue.map fun num => some (.int (type.wrap num))
  else some none

def fromNode (type : FT) (field : Node) : Given :=
  match type with
  | .IS_STRING => some none
  | .IS_INT8 => fromInt .int8 field
  | .IS_INT16 => fromInt .int16 field
  | .IS_INT32 => fromInt .int32 field
  | .IS_INT64 => fromBigInt .int64 field
  | .IS_UINT8 => fromInt .uint8 field
  | .IS_UINT16 => fromInt .uint16 field
  | .IS_UINT32 => fromBigInt .uint32 field
  | .IS_DOUBLE =>
    if field.isDouble || field.isInt then some (some (.double field.getDoubleValue)) else some none
  | .IS_BOOLEAN =>
    if field.isTrue || field.isFalse then some (some (.bool field.isTrue)) else some none
  | .IS_TIME => some none

section Bind

variable {O : Type} (mktime : Tm → Int)

def AttrBind.give (attr : AttrBind O) (obj : O) : Option Value → O
  | some value => attr.set obj value
  | none => obj

def bindAttr (node : Node) (obj : O) (attr : AttrBind O) : Option O :=
  match node.getObjectValue attr.field with
  | .null => some obj
  | .string value => some (attr.set obj (fromString mktime attr.type value))
  | field => (fromNode attr.type field).map (attr.give obj)

def bindObject (node : Node) (obj : O) : Option (List (AttrBind O)) → Option O
  | none => some obj
  | some bl => if node.isNull then some obj else bl.foldlM (bindAttr mktime node) obj

end Bind

structure Attribute (O : Type) extends AttrBind O where
  get : O → Value
  get_set : ∀ obj value, get (set obj value) = value

namespace FT

def int : FT → Option IntType
  | IS_INT8 => some .int8
  | IS_INT16 => some .int16
  | IS_INT32 => some .int32
  | IS_INT64 => some .int64
  | IS_UINT8 => some .uint8
  | IS_UINT16 => some .uint16
  | IS_UINT32 => some .uint32
  | _ => none

def Numeric (type : FT) : Prop := type.int ≠ none ∨ type = IS_DOUBLE

/-- Every number that is a double is in the range of one. -/
def InRange (type : FT) (v : Int) : Prop := ∀ t ∈ type.int, t.Holds v

/-- The number as a value of the type; out of the range it is wrapped. -/
def number (type : FT) {v : Int} (exact : Representable v) : Value :=
  match type.int with
  | some t => .int (t.wrap v)
  | none => .double (.finite ⟨v, exact⟩)

end FT

/-- The node that is assumed for a number: an integer wherever it fits an `int`. The parser of
`sajson.h` itself makes a double from 2147483560 on, and does so for the negated numbers. -/
def numberNode {v : Int} (exact : Representable v) : Node :=
  if IntType.int32.Holds v then .integer (Int32.ofInt v) else .double (.finite ⟨v, exact⟩)

/-- From a document with the number and from one with its text the attribute is bound to the
same value; it is the number where that is in range, and not the number wrapped where it is out
of range. -/
def Agree {O : Type} (mktime : Tm → Int) (attr : Attribute O) (obj : O) {v : Int}
    (exact : Representable v) : Prop :=
  ∀ numbered texted : Node, numbered.getObjectValue attr.field = numberNode exact →
    texted.getObjectValue attr.field = .string (decimalInt v) →
    ∃ fromNumber fromText,
      bindObject mktime numbered obj (some [attr.toAttrBind]) = some fromNumber ∧
      bindObject mktime texted obj (some [attr.toAttrBind]) = some fromText ∧
      attr.get fromNumber = attr.get fromText ∧
      (attr.type.InRange v → attr.get fromNumber = attr.type.number exact) ∧
      (¬ attr.type.InRange v → attr.get fromNumber ≠ attr.type.number exact)

/-- In range, and not the minimum of one of the two wide signed types; or so far out of range
that the node is a double and is refused, where the field held the 0 that a refused text leaves
and the number wrapped is not that 0. An attribute that is a double refuses integers. -/
def Bound (type : FT) (old : Value) {v : Int} (exact : Representable v) : Prop :=
  match type.int with
  | some t =>
    (t.lowest ≤ v ∧ v ≤ t.maximum) ∨
      (t ≠ .int64 ∧ t ≠ .uint32 ∧ ¬ IntType.int32.Holds v ∧ old = .int 0 ∧
        type.number exact ≠ .int 0)
  | none => v = 0 ∨ ¬ IntType.int32.Holds v

section Columns

variable {type : FT} {t : IntType} {v : Int} {exact : Representable v}

theorem cstr_decimalInt (v : Int) : ProtoBase.cstr (decimalInt v) = decimalInt v := by
  apply List.takeWhile_eq_self_iff.mpr
  intro c there
  rw [decide_eq_true_eq]
  rintro rfl
  exact not_mem_decimalInt v (by decide) (by decide) there

theorem fromString_parsed (mktime : Tm → Int) (is_int : type.int = some t) :
    ∃ parse, t.parser = some parse ∧ ∀ str,
      fromString mktime type str = .int (parsed id (parse (ProtoBase.cstr str))) := by
  have through : ∀ {α : Type} (toInt : α → Int) (r : Except ParseError α),
      parsed toInt r = parsed id (r.map toInt) := by
    intro α toInt r
    cases r <;> rfl
  cases type <;> simp only [FT.int, Option.some.injEq, reduceCtorEq] at is_int <;> subst is_int <;>
    exact ⟨_, rfl, fun str => congrArg Value.int (through _ _)⟩

theorem unsigned_refuses (negative : v < 0) (unsigned : t.signed = false)
    {parse : List UInt8 → Except ParseError Int} (reader : t.parser = some parse) :
    parse (decimalInt v) = .error .EINVAL := by
  have sign : decimalInt v = 45 :: decimal v.natAbs := if_pos negative
  have refused : ∀ limit, unsignedValue limit (decimalInt v) = .error .EINVAL := by
    intro limit
    rw [sign, unsignedValue, List.dropWhile_cons_of_neg (by decide), digitLoop, if_neg (by decide),
      if_pos (by decide)]
  cases t with
  | int8 | int16 | int32 | int64 => cases unsigned
  | uint64 => cases reader
  | uint8 | uint16 | uint32 =>
    cases reader
    simp [stringToUint8, stringToUint16, stringToUint32, refused, Except.map, bind, Except.bind]

theorem numeral_caught (holds : IntType.int64.Holds v) :
    (IntType.numeral v).InRange .int64 ∨
      Numeral.Caught (2 ^ 63 - 1) (IntType.numeral v).digits := by
  obtain ⟨low, high⟩ := holds
  rw [Numeral.InRange, IntType.numeral_value]
  simp only [IntType.minimum, IntType.maximum, IntType.lowest] at low high ⊢
  by_cases lowest : v = -2 ^ 63
  · right
    refine ⟨_, List.prefix_refl _, ?_⟩
    rw [IntType.numeral, digitsValue_decimal, lowest]
    decide
  · left
    omega

/-- What the parser of a type makes of the text of a number: 0 is left where it is refused. -/
theorem parsed_decimalInt {parse : List UInt8 → Except ParseError Int}
    (reader : t.parser = some parse) (near : t = .int64 → t.Holds v) :
    parsed id (parse (decimalInt v)) = if t.lowest ≤ v ∧ v ≤ t.maximum then v else 0 := by
  by_cases stopped : v < 0 ∧ t.signed = false
  · obtain ⟨negative, unsigned⟩ := stopped
    have outside : ¬ (t.lowest ≤ v ∧ v ≤ t.maximum) := by
      rintro ⟨low, -⟩
      cases t <;> simp only [IntType.signed, reduceCtorEq] at unsigned <;>
        simp only [IntType.lowest, IntType.minimum] at low <;> omega
    rw [unsigned_refuses negative unsigned reader, if_neg outside]
    rfl
  · have signed : (IntType.numeral v).minus = true → t.signed = true := by
      intro minus
      have negative : v < 0 := of_decide_eq_true minus
      cases hs : t.signed with
      | true => rfl
      | false => exact absurd ⟨negative, hs⟩ stopped
    have met : t ≠ .int64 ∨ (IntType.numeral v).InRange .int64 ∨
        Numeral.Caught (2 ^ 63 - 1) (IntType.numeral v).digits := by
      by_cases wide : t = .int64
      · exact Or.inr (numeral_caught (wide ▸ near wide))
      · exact Or.inl wide
    obtain ⟨stored, refused⟩ := (Numeral.numeral_read_iff _ t parse reader signed).mpr met
    rw [Numeral.InRange, IntType.numeral_value, IntType.numeral_text] at stored refused
    by_cases inside : t.lowest ≤ v ∧ v ≤ t.maximum
    · rw [stored inside, if_pos inside]
      rfl
    · rw [refused inside, if_neg inside]
      rfl

theorem fromNode_int (is_int : type.int = some t) (field : Node) :
    fromNode type field =
      if t = .int64 ∨ t = .uint32 then fromBigInt t field else fromInt t field := by
  cases type <;> simp only [FT.int, Option.some.injEq, reduceCtorEq] at is_int <;> subst is_int <;>
    rfl

theorem int32_back (fits : IntType.int32.Holds v) : (Int32.ofInt v).toInt = v := by
  simp only [IntType.Holds, IntType.minimum, IntType.maximum] at fits
  exact Int32.toInt_ofInt_of_le (by omega) (by omega)

theorem fromInt_number (t : IntType) (exact : Representable v) :
    fromInt t (numberNode exact) =
      some (if IntType.int32.Holds v then some (.int (t.wrap v)) else none) := by
  unfold numberNode
  by_cases fits : IntType.int32.Holds v
  · rw [if_pos fits, if_pos fits, fromInt, Node.getIntValue, int32_back fits]
    rfl
  · rw [if_neg fits, if_neg fits]
    rfl

theorem fromBigInt_number (t : IntType) (exact : Representable v) :
    fromBigInt t (numberNode exact) =
      if IntType.int64.Holds v then some (some (.int (t.wrap v))) else none := by
  have range : (-2 ^ 63 ≤ v ∧ v < 2 ^ 63) = IntType.int64.Holds v := by
    simp only [IntType.Holds, IntType.minimum, IntType.maximum]
    grind
  have converted : (numberNode exact).getBigIntValue =
      if IntType.int64.Holds v then some v else none := by
    unfold numberNode
    by_cases fits : IntType.int32.Holds v
    · rw [if_pos fits, Node.getBigIntValue, int32_back fits, Double.round_exact exact,
        Double.toInt64_int]
      simp only [range]
    · rw [if_neg fits, Node.getBigIntValue, Double.toInt64_int]
      simp only [range]
  have number : ((numberNode exact).isInt || (numberNode exact).isDouble) = true := by
    unfold numberNode
    split <;> rfl
  rw [fromBigInt, if_pos number, converted]
  split <;> rfl

theorem holds_of_inside (inside : t.lowest ≤ v ∧ v ≤ t.maximum) : t.Holds v := by
  obtain ⟨low, high⟩ := inside
  refine ⟨?_, high⟩
  cases t <;> simp only [IntType.lowest, IntType.minimum] at low ⊢ <;> omega

theorem inside_zero (t : IntType) : t.lowest ≤ 0 ∧ 0 ≤ t.maximum := by
  cases t <;> decide

def Columns (mktime : Tm → Int) (type : FT) (old : Value) {v : Int} (exact : Representable v) :
    Prop :=
  ∃ given, fromNode type (numberNode exact) = some given ∧
    given.getD old = fromString mktime type (decimalInt v) ∧
    (type.InRange v → fromString mktime type (decimalInt v) = type.number exact) ∧
    (¬ type.InRange v → fromString mktime type (decimalInt v) ≠ type.number exact)

theorem columns_iff {mktime : Tm → Int} (is_int : type.int = some t)
    (near : t = .int64 → t.Holds v) {old : Value} (exact : Representable v) :
    Columns mktime type old exact ↔
      ∃ given, fromNode type (numberNode exact) = some given ∧
        given.getD old = .int (if t.lowest ≤ v ∧ v ≤ t.maximum then v else 0) ∧
        (t.lowest ≤ v ∧ v ≤ t.maximum ∨ ¬ t.Holds v ∧ t.wrap v ≠ 0) := by
  obtain ⟨parse, reader, string⟩ := fromString_parsed mktime is_int
  have number : type.number exact = .int (t.wrap v) := by simp [FT.number, is_int]
  have range : type.InRange v ↔ t.Holds v := by simp [FT.InRange, is_int]
  have text : fromString mktime type (decimalInt v) =
      .int (if t.lowest ≤ v ∧ v ≤ t.maximum then v else 0) := by
    rw [string, cstr_decimalInt, parsed_decimalInt reader near]
  have right : (t.Holds v → (if t.lowest ≤ v ∧ v ≤ t.maximum then v else 0) = t.wrap v) ∧
      (¬ t.Holds v → (if t.lowest ≤ v ∧ v ≤ t.maximum then v else 0) ≠ t.wrap v) ↔
      t.lowest ≤ v ∧ v ≤ t.maximum ∨ ¬ t.Holds v ∧ t.wrap v ≠ 0 := by
    by_cases inside : t.lowest ≤ v ∧ v ≤ t.maximum
    · have holds := holds_of_inside inside
      simp [inside, holds, IntType.wrap_of_holds holds]
    · by_cases holds : t.Holds v
      · have some : v ≠ 0 := fun zero => inside (zero ▸ inside_zero t)
        simp [inside, holds, IntType.wrap_of_holds holds, some.symm]
      · simp [inside, holds, eq_comm]
  rw [Columns, text, number]
  simp only [range, Value.int.injEq, ne_eq] at right ⊢
  rw [right]

theorem narrow_columns {mktime : Tm → Int} (is_int : type.int = some t) (narrow : t ≠ .int64)
    (small : t ≠ .uint32) {old : Value} (exact : Representable v) :
    Columns mktime type old exact ↔ Bound type old exact := by
  have number : type.number exact = .int (t.wrap v) := by simp [FT.number, is_int]
  have fits : t.Holds v → IntType.int32.Holds v := by
    rintro ⟨low, high⟩
    cases type <;> simp only [FT.int, Option.some.injEq, reduceCtorEq] at is_int <;>
      subst is_int <;> simp only [IntType.Holds, IntType.minimum, IntType.maximum] at low high ⊢ <;>
      first | omega | contradiction
  rw [columns_iff is_int (fun wide => absurd wide narrow), fromNode_int is_int,
    if_neg (by simp [narrow, small]), fromInt_number]
  simp only [Bound, is_int, number]
  by_cases inside : t.lowest ≤ v ∧ v ≤ t.maximum
  · have holds := holds_of_inside inside
    simp [inside, fits holds, IntType.wrap_of_holds holds]
  · by_cases int : IntType.int32.Holds v
    · -- the node is an integer, and its conversion wraps
      simp only [int, inside, if_true, if_false, false_or, not_true, false_and, and_false,
        iff_false]
      rintro ⟨given, is, left, -, some⟩
      cases is
      exact some (Value.int.inj left)
    · -- the node is refused, and the field keeps what it held
      have outside : ¬ t.Holds v := fun holds => int (fits holds)
      simp [inside, int, outside, narrow, small]

theorem wide_columns {mktime : Tm → Int} (is_int : type.int = some t)
    (wide : t = .int64 ∨ t = .uint32) {old : Value} (exact : Representable v) :
    Columns mktime type old exact ↔ Bound type old exact := by
  have within : t.Holds v → IntType.int64.Holds v := by
    rintro ⟨low, high⟩
    rcases wide with rfl | rfl <;>
      simp only [IntType.Holds, IntType.minimum, IntType.maximum] at low high ⊢ <;> omega
  have right : Bound type old exact ↔ t.lowest ≤ v ∧ v ≤ t.maximum := by
    rcases wide with rfl | rfl <;> simp [Bound, is_int]
  have node : fromNode type (numberNode exact) =
      if IntType.int64.Holds v then some (some (.int (t.wrap v))) else none := by
    rw [fromNode_int is_int, if_pos wide, fromBigInt_number]
  rw [right]
  by_cases big : IntType.int64.Holds v
  · have near : t = .int64 → t.Holds v := fun is => is ▸ big
    rw [columns_iff is_int near, node, if_pos big]
    by_cases inside : t.lowest ≤ v ∧ v ≤ t.maximum
    · simp [inside, IntType.wrap_of_holds (holds_of_inside inside)]
    · simp only [inside, if_false, false_or, iff_false]
      rintro ⟨given, is, left, -, some⟩
      cases is
      exact some (Value.int.inj left)
  · constructor
    · rintro ⟨given, is, -⟩
      rw [node, if_neg big] at is
      cases is
    · intro inside
      exact absurd (within (holds_of_inside inside)) big

theorem double_columns {mktime : Tm → Int} {old : Value} (exact : Representable v) :
    Columns mktime .IS_DOUBLE old exact ↔ Bound .IS_DOUBLE old exact := by
  have text : fromString mktime .IS_DOUBLE (decimalInt v) = .double (.finite ⟨v, exact⟩) := by
    rw [fromString, cstr_decimalInt, atof_decimalInt exact]
  have range : FT.IS_DOUBLE.InRange v := fun t is_int => by cases is_int
  rw [Columns, text]
  simp only [range, not_true, false_imp_iff, true_imp_iff, and_true]
  by_cases int : IntType.int32.Holds v
  · have node : fromNode .IS_DOUBLE (numberNode exact) = some (some (.double .zero)) := by
      rw [numberNode, if_pos int]
      rfl
    rw [node]
    simp [Bound, FT.int, FT.number, int, Double.zero, eq_comm]
  · have node : fromNode .IS_DOUBLE (numberNode exact) =
        some (some (.double (.finite ⟨v, exact⟩))) := by
      rw [numberNode, if_neg int]
      rfl
    rw [node]
    simp [Bound, FT.int, FT.number, int]

end Columns

section Agreement

variable {O : Type} {mktime : Tm → Int} {node : Node} {obj : O}

theorem numberNode_cases {v : Int} (exact : Representable v) :
    (∃ value, numberNode exact = .integer value) ∨ ∃ value, numberNode exact = .double value := by
  unfold numberNode
  split
  · exact Or.inl ⟨_, rfl⟩
  · exact Or.inr ⟨_, rfl⟩

theorem bindObject_found (attr : AttrBind O) (found : node.getObjectValue attr.field ≠ .null) :
    bindObject mktime node obj (some [attr]) = bindAttr mktime node obj attr := by
  cases node with
  | null => exact absurd rfl found
  | _ => simp [bindObject, Node.isNull]

theorem bindObject_number (attr : AttrBind O) {v : Int} {exact : Representable v}
    (found : node.getObjectValue attr.field = numberNode exact) :
    bindObject mktime node obj (some [attr]) =
      (fromNode attr.type (numberNode exact)).map (attr.give obj) := by
  rcases numberNode_cases exact with ⟨value, is⟩ | ⟨value, is⟩ <;> rw [is] at found ⊢ <;>
    rw [bindObject_found attr (by rw [found]; exact Node.noConfusion), bindAttr, found]

theorem bindObject_string (attr : AttrBind O) {value : List UInt8}
    (found : node.getObjectValue attr.field = .string value) :
    bindObject mktime node obj (some [attr]) =
      some (attr.set obj (fromString mktime attr.type value)) := by
  rw [bindObject_found attr (by rw [found]; exact Node.noConfusion), bindAttr, found]

theorem getObjectValue_single (key : List UInt8) (value : Node) :
    (Node.object [(key, value)]).getObjectValue key = value := by
  simp [Node.getObjectValue]

theorem get_give (attr : Attribute O) (obj : O) (given : Option Value) :
    attr.get (attr.give obj given) = given.getD (attr.get obj) := by
  cases given with
  | none => rfl
  | some value => exact attr.get_set obj value

theorem agree_iff_columns (attr : Attribute O) {v : Int} (exact : Representable v) :
    Agree mktime attr obj exact ↔ Columns mktime attr.type (attr.get obj) exact := by
  constructor
  · intro agree
    obtain ⟨_, _, number, text, same, inside, outside⟩ := agree _ _
      (getObjectValue_single attr.field (numberNode exact))
      (getObjectValue_single attr.field (.string (decimalInt v)))
    rw [bindObject_number attr.toAttrBind (getObjectValue_single _ _)] at number
    rw [bindObject_string attr.toAttrBind (getObjectValue_single _ _)] at text
    cases text
    obtain ⟨given, node, rfl⟩ := Option.map_eq_some_iff.mp number
    rw [attr.get_set] at same
    rw [same] at inside outside
    exact ⟨given, node, (get_give attr obj given).symm.trans same, inside, outside⟩
  · rintro ⟨given, node, same, inside, outside⟩ numbered texted number text
    refine ⟨attr.give obj given, _, ?_, bindObject_string attr.toAttrBind text, ?_⟩
    · rw [bindObject_number attr.toAttrBind number, node]
      rfl
    · rw [attr.get_set, get_give, same]
      exact ⟨rfl, inside, outside⟩

theorem bindAttr_given (mktime : Tm → Int) (node : Node) (attr : AttrBind O) :
    ∃ given : Given, ∀ obj, bindAttr mktime node obj attr = given.map (attr.give obj) := by
  unfold bindAttr
  cases node.getObjectValue attr.field with
  | null => exact ⟨some none, fun _ => rfl⟩
  | string value => exact ⟨some (some _), fun _ => rfl⟩
  | _ => exact ⟨_, fun _ => rfl⟩

theorem foldlM_others {others : List (AttrBind O)} {attr : Attribute O}
    (apart : ∀ c ∈ others, ∀ o value, attr.get (c.set o value) = attr.get o) {bound : O}
    (result : others.foldlM (bindAttr mktime node) obj = some bound) :
    attr.get bound = attr.get obj := by
  induction others generalizing obj with
  | nil =>
    cases result
    rfl
  | cons c rest ih =>
    rw [List.foldlM_cons] at result
    obtain ⟨next, first, later⟩ := Option.bind_eq_some_iff.mp result
    obtain ⟨given, turn⟩ := bindAttr_given mktime node c
    rw [turn] at first
    obtain ⟨value, -, rfl⟩ := Option.map_eq_some_iff.mp first
    rw [ih (fun d hd => apart d (List.mem_cons_of_mem c hd)) later]
    cases value with
    | none => rfl
    | some value => exact apart c (List.mem_cons_self ..) obj value

/-- Among attributes that leave its field alone, an attribute is bound as it is on its own. -/
theorem bindObject_among {front back : List (AttrBind O)} (attr : Attribute O)
    (apart : ∀ c ∈ front ++ back, ∀ o value, attr.get (c.set o value) = attr.get o) {bound : O}
    (result : bindObject mktime node obj (some (front ++ attr.toAttrBind :: back)) = some bound) :
    ∃ own, bindObject mktime node obj (some [attr.toAttrBind]) = some own ∧
      attr.get bound = attr.get own := by
  unfold bindObject at result ⊢
  by_cases null : node.isNull = true
  · simp only [null, if_true, Option.some.injEq] at result ⊢
    exact ⟨obj, rfl, result ▸ rfl⟩
  · simp only [null, Bool.false_eq_true, if_false, List.foldlM_append, List.foldlM_cons] at result ⊢
    obtain ⟨before, first, result⟩ := Option.bind_eq_some_iff.mp result
    obtain ⟨after, turn, later⟩ := Option.bind_eq_some_iff.mp result
    obtain ⟨given, turns⟩ := bindAttr_given mktime node attr.toAttrBind
    rw [turns] at turn
    obtain ⟨value, is, rfl⟩ := Option.map_eq_some_iff.mp turn
    have kept := foldlM_others (fun c hc => apart c (List.mem_append_left back hc)) first
    have left := foldlM_others (fun c hc => apart c (List.mem_append_right front hc)) later
    refine ⟨attr.give obj value, ?_, ?_⟩
    · rw [turns, is]
      rfl
    · rw [left, get_give, get_give, kept]

/-- The two columns agree on a numeric attribute exactly under the condition `Bound`. -/
theorem number_and_text_agree_iff (mktime : Tm → Int) (attr : Attribute O)
    (numeric : attr.type.Numeric) (obj : O) {v : Int} (exact : Representable v) :
    Agree mktime attr obj exact ↔ Bound attr.type (attr.get obj) exact := by
  rw [agree_iff_columns]
  rcases numeric with is_some | is_double
  · obtain ⟨t, is_int⟩ := Option.ne_none_iff_exists'.mp is_some
    by_cases wide : t = .int64 ∨ t = .uint32
    · exact wide_columns is_int wide exact
    · obtain ⟨narrow, small⟩ := not_or.mp wide
      exact narrow_columns is_int narrow small exact
  · rw [is_double]
    exact double_columns exact

def lone (type : FT) : Attribute Value where
  field := ascii "value"
  type := type
  set _ value := value
  get := id
  get_set _ _ := rfl

/-- The lowest value of a type, over another one. -/
theorem number_and_text_agree_lowest :
    Agree (fun _ => 0) (lone .IS_INT8) (.int 7)
      (Double.representable_int (by decide : |(-128 : Int)| < 2 ^ 53)) :=
  (number_and_text_agree_iff _ (lone .IS_INT8) (Or.inl (by simp [lone, FT.int])) _ _).mpr
    (Or.inl (by decide))

/-- An integer is in the range of every double, but its node gives 0. -/
theorem integer_bound_as_zero : ¬ ∀ (attr : Attribute Value), attr.type.Numeric →
    ∀ (obj : Value) (v : Int) (exact : Representable v), Agree (fun _ => 0) attr obj exact := by
  intro claim
  have agree := claim (lone .IS_DOUBLE) (Or.inr rfl) (.double .zero) 5
    (Double.representable_int (by decide))
  have bound := (double_columns _).mp ((agree_iff_columns (lone .IS_DOUBLE) _).mp agree)
  exact bound.elim (by decide) fun far => far (by decide)

end Agreement

end JSON

end CppMyth
