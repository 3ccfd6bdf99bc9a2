import CppMyth.Json.Grammar
import CppMyth.Json.Refines
import CppMyth.Library.Search

/-! The values of a document and the nodes around them, as `jsonparser.cpp` hands them out: what is
read from the words of a document is the node that they hold. -/
namespace CppMyth.Sajson
open Library JSON

/-- `sajson::value` -/
structure Value where
  valueType : ValueType
  words : Words
  payload : Nat
  text : List UInt8

/-- `get_root` -/
def Document.getRoot (d : Document) : Value := ⟨d.rootType, d.words, d.root, d.text⟩

namespace Value

variable (v : Value)

/-- A word of the payload that holds a size. Other words cannot be read as one. -/
def load (i : Nat) : Option UInt64 :=
  match v.words (v.payload + i) with
  | some (.size n) => some n
  | _ => none

/-- The value that an element of the payload leads to. -/
def element (i : Nat) : Option Value :=
  (v.load i).map fun element =>
    { v with
      valueType := getElementType element
      payload := v.payload + (getElementValue element).toNat }

/-- The text between two places that the payload names. -/
def span (i : Nat) : Option (List UInt8) :=
  (v.load i).bind fun start => (v.load (i + 1)).map fun stop => slice v.text start stop

def length : Option Nat := (v.load 0).map UInt64.toNat

def arrayElement (index : Nat) : Option Value := v.element (1 + index)

def objectKey (index : Nat) : Option (List UInt8) := v.span (1 + index * 3)

def objectValue (index : Nat) : Option Value := v.element (3 + index * 3)

/-- Without such a key, the length. -/
def findObjectKey (key : List UInt8) : Option Nat :=
  v.length.bind fun length =>
    (partitionPoint (fun i => (v.objectKey i).map fun k => keyLess k key) 0 length).bind fun i =>
      if i = length then some length
      else (v.objectKey i).map fun k => if k = key then i else length

def number : Option Double :=
  match v.words v.payload with
  | some (.int i) => some (.round i.toInt)
  | some (.double d) => some d
  | _ => none

/-- `JSON::Node()` -/
def null : Value := ⟨.NULL, fun _ => none, 0, []⟩

def isNull : Bool := v.valueType = .NULL
def isObject : Bool := v.valueType = .OBJECT
def isArray : Bool := v.valueType = .ARRAY
def isString : Bool := v.valueType = .STRING
def isDouble : Bool := v.valueType = .DOUBLE
def isInt : Bool := v.valueType = .INTEGER
def isTrue : Bool := v.valueType = .TRUE
def isFalse : Bool := v.valueType = .FALSE

def getStringValue : Option (List UInt8) := if v.valueType = .STRING then v.span 0 else some []

def getStringSize : Option Nat :=
  if v.valueType = .STRING then
    (v.load 0).bind fun start => (v.load 1).map fun stop => (stop - start).toNat
  else some 0

def getDoubleValue : Option Double :=
  if v.valueType = .DOUBLE then
    match v.words v.payload with
    | some (.double d) => some d
    | _ => none
  else some .zero

def getBigIntValue : Option Int :=
  if v.valueType = .DOUBLE ∨ v.valueType = .INTEGER then v.number.bind Double.toInt64 else some 0

def getIntValue : Option Int :=
  if v.valueType = .INTEGER then
    match v.words v.payload with
    | some (.int i) => some i.toInt
    | _ => none
  else some 0

def size : Option Nat :=
  if v.valueType = .ARRAY ∨ v.valueType = .OBJECT then v.length else some 0

def getArrayElement (index : Nat) : Option Value :=
  if v.valueType = .ARRAY then v.arrayElement index else some null

def getObjectKey (index : Nat) : Option (List UInt8) :=
  if v.valueType = .OBJECT then v.objectKey index else some []

def getObjectValueAt (index : Nat) : Option Value :=
  if v.valueType = .OBJECT then v.objectValue index else some null

def getObjectValue (key : List UInt8) : Option Value :=
  if v.valueType = .OBJECT then
    (v.findObjectKey key).bind fun idx => v.length.bind fun length =>
      if idx < length then v.objectValue idx else some null
  else some null

end Value

end CppMyth.Sajson

namespace CppMyth.JSON.Node
open Library

def isObject : Node → Bool
  | object _ => true
  | _ => false

def isArray : Node → Bool
  | array _ => true
  | _ => false

def isString : Node → Bool
  | string _ => true
  | _ => false

def getStringValue : Node → List UInt8
  | string value => value
  | _ => []

def size : Node → Nat
  | array elements => elements.length
  | object fields => fields.length
  | _ => 0

def getArrayElement (index : Nat) : Node → Node
  | array elements => elements.getD index null
  | _ => null

/-- What the calls on a node tell of it, the conversion to an integer as C defines it. -/
structure Facts where
  isNull : Bool
  isObject : Bool
  isArray : Bool
  isString : Bool
  isDouble : Bool
  isInt : Bool
  isTrue : Bool
  isFalse : Bool
  stringValue : Option (List UInt8)
  stringSize : Option Nat
  doubleValue : Option Double
  bigIntValue : Option Int
  intValue : Option Int
  size : Option Nat

def facts (node : Node) : Facts :=
  ⟨node.isNull, node.isObject, node.isArray, node.isString, node.isDouble, node.isInt, node.isTrue,
    node.isFalse, some node.getStringValue, some node.getStringValue.length,
    some node.getDoubleValue, node.getBigIntValue, some node.getIntValue, some node.size⟩

end CppMyth.JSON.Node

namespace CppMyth.Sajson
open Library JSON

namespace Value

def facts (v : Value) : Node.Facts :=
  ⟨v.isNull, v.isObject, v.isArray, v.isString, v.isDouble, v.isInt, v.isTrue, v.isFalse,
    v.getStringValue, v.getStringSize, v.getDoubleValue, v.getBigIntValue, v.getIntValue, v.size⟩

/-- The value stands for the node: a node that is null has no words. -/
def Represents (v : Value) (node : Node) : Prop :=
  v.valueType = .NULL ∧ node = .null ∨
    ∃ lo, Reads v.text v.words lo v.text.length v.valueType v.payload node

end Value

section Facts

variable {v : Value} {node : Node} {es : List UInt64} {start stop : UInt64}

theorem sizes_get {words : Words} {a i : Nat} {e : UInt64} (sizes : Sizes words a es)
    (found : es[i]? = some e) : words (a + i) = some (.size e) := by
  induction es generalizing a i with
  | nil => cases found
  | cons f es ih =>
    cases i with
    | zero =>
      cases found
      exact sizes.1
    | succ i =>
      have next := ih sizes.2 (i := i) found
      rwa [Nat.add_assoc, Nat.add_comm 1] at next

theorem Value.load_of_sizes (sizes : Sizes v.words v.payload es) {i : Nat} {e : UInt64}
    (found : es[i]? = some e) : v.load i = some e := by
  rw [Value.load, sizes_get sizes found]

theorem Value.span_eq {i : Nat} (first : v.load i = some start)
    (last : v.load (i + 1) = some stop) :
    v.span i = some (slice v.text start stop) := by
  rw [Value.span, first, last]
  rfl

theorem Spans.length_slice {text : List UInt8} (h : Spans text start stop) :
    (slice text start stop).length = (stop - start).toNat := by
  have inside := h.inside
  rw [slice, List.length_take, List.length_drop, h.length]
  omega

theorem Value.length_eq {n : Nat} (small : n < 2 ^ 64)
    (first : v.load 0 = some (.ofNat n)) : v.length = some n := by
  rw [Value.length, first, Option.map_some, ofNat_toNat small]

/-- What is asked of a value is asked of its node. -/
theorem Value.Represents.facts (h : v.Represents node) (small : v.text.length < 2 ^ 61) :
    v.facts = node.facts := by
  obtain ⟨t, words, place, text⟩ := v
  rcases h with ⟨type, rfl⟩ | ⟨lo, reads⟩
  · simp only at type
    subst type
    rfl
  · simp only at reads small
    cases reads with
    | null => rfl
    | falseValue => rfl
    | trueValue => rfl
    | @number _ number _ word =>
      cases number with
      | integer i =>
        have value : words place = some (.int i) := word
        show Value.facts ⟨.INTEGER, words, place, text⟩ = (Node.integer i).facts
        simp only [Value.facts, Value.getBigIntValue, Value.getIntValue, Value.number, value]
        rfl
      | double d =>
        have value : words place = some (.double d) := word
        show Value.facts ⟨.DOUBLE, words, place, text⟩ = (Node.double d).facts
        simp only [Value.facts, Value.getBigIntValue, Value.getDoubleValue, Value.number, value]
        rfl
    | @string _ start stop _ span bound =>
      have first := Value.load_of_sizes (v := ⟨.STRING, words, place, text⟩) span (i := 0) rfl
      have last := Value.load_of_sizes (v := ⟨.STRING, words, place, text⟩) span (i := 1) rfl
      have content := Value.span_eq first last
      simp only [Value.facts, Value.getStringValue, Value.getStringSize, content, first, last,
        Option.bind_some, Option.map_some, if_true, ← bound.length_slice]
      rfl
    | @array _ found inside room elements =>
      have first := Value.load_of_sizes (v := ⟨.ARRAY, words, place, text⟩) elements (i := 0) rfl
      have length := Value.length_eq (n := found.length) (by omega) first
      have counted : (Node.array (found.map Found.node)).size = found.length := List.length_map _
      simp only [Value.facts, Node.facts, Value.size, length, true_or, if_true, counted]
      rfl
    | @object _ found fields inside room records _ _ _ same =>
      have first := Value.load_of_sizes (v := ⟨.OBJECT, words, place, text⟩) records (i := 0) rfl
      have length := Value.length_eq (n := found.length) (by omega) first
      have counted : (Node.object fields).size = found.length := by
        rw [Node.size, ← same.length_eq, List.length_map]
      simp only [Value.facts, Node.facts, Value.size, length, or_true, if_true, counted]
      rfl

theorem Reads.represents {lo : Nat} {t : ValueType} {place : Nat} {words : Words}
    {text : List UInt8} (h : Reads text words lo text.length t place node) :
    Value.Represents ⟨t, words, place, text⟩ node := .inr ⟨lo, h⟩

/-- The value that the element of a finished value leads to. -/
theorem Value.element_eq {i : Nat} {x : Found} (small : v.text.length < 2 ^ 61)
    (above : v.payload ≤ x.place) (inside : x.place ≤ v.text.length)
    (first : v.load i = some (x.element v.payload)) :
    v.element i = some ⟨x.type, v.words, x.place, v.text⟩ := by
  have value : (UInt64.ofNat (x.place - v.payload)).toNat = x.place - v.payload :=
    ofNat_toNat (by omega)
  rw [Value.element, first, Option.map_some, Found.element, getElementType_makeElement (by omega),
    getElementValue_makeElement (by omega), value, Nat.add_sub_cancel' above]

theorem Reads.array_words {text : List UInt8} {words : Words} {lo hi place : Nat} {t : ValueType}
    {elements : List Node} (h : Reads text words lo hi t place (.array elements)) :
    t = .ARRAY ∧ ∃ found : List Found, elements = found.map Found.node ∧
      Sizes words place (.ofNat found.length :: found.map (Found.element place)) ∧
      (∀ x ∈ found, place ≤ x.place) ∧
      ∀ x ∈ found, Reads text words lo hi x.type x.place x.node := by
  generalize same : Node.array elements = node at h
  cases h with
  | array found _ _ sizes behind reads =>
    cases same
    exact ⟨rfl, found, rfl, sizes, behind, reads⟩
  | @number _ number => cases number <;> cases same
  | _ => cases same

theorem Reads.object_words {text : List UInt8} {words : Words} {lo hi place : Nat} {t : ValueType}
    {fields : List (List UInt8 × Node)} (h : Reads text words lo hi t place (.object fields)) :
    t = .OBJECT ∧ ∃ found : List FoundField, place + 1 + 3 * found.length ≤ hi ∧
      Sizes words place (.ofNat found.length :: found.flatMap fun x => (x.record place).sizes) ∧
      (∀ x ∈ found, place ≤ x.place) ∧
      (∀ x ∈ found, Reads text words lo hi x.type x.place x.node) ∧
      (found.map (FoundField.field text)).Perm fields ∧
      found.Pairwise fun x y => keyLess (y.key text) (x.key text) = false := by
  generalize same : Node.object fields = node at h
  cases h with
  | object found _ room sizes behind _ reads fields sorted =>
    cases same
    exact ⟨rfl, found, room, sizes, behind, reads, fields, sorted⟩
  | @number _ number => cases number <;> cases same
  | _ => cases same

/-- An element of an array is found by its index. -/
theorem Value.Represents.arrayElement {elements : List Node} (h : v.Represents (.array elements))
    (small : v.text.length < 2 ^ 61) {index : Nat} (inside : index < elements.length) :
    ∃ w, v.getArrayElement index = some w ∧ w.text = v.text ∧ w.Represents elements[index] := by
  obtain ⟨t, words, place, text⟩ := v
  obtain ⟨-, none⟩ | ⟨lo, reads⟩ := h
  · cases none
  obtain ⟨type, found, rfl, sizes, behind, each⟩ := reads.array_words
  simp only at type small sizes behind each
  subst type
  rw [List.length_map] at inside
  have member : found[index] ∈ found := List.getElem_mem inside
  have first := Value.load_of_sizes (v := ⟨.ARRAY, words, place, text⟩) (i := 1 + index)
    (e := found[index].element place) sizes
    (by rw [Nat.add_comm, List.getElem?_cons_succ]; simp [inside])
  have reached := Value.element_eq small (behind _ member) (each _ member).inside.2 first
  refine ⟨_, reached, rfl, ?_⟩
  rw [List.getElem_map]
  exact (each _ member).represents

theorem flatMap_sizes_get {record : FoundField → KeyRecord} {found : List FoundField} {i j : Nat}
    (inside : i < found.length) (word : j < 3) :
    (found.flatMap fun x => (record x).sizes)[3 * i + j]? = (record found[i]).sizes[j]? := by
  induction found generalizing i with
  | nil => simp at inside
  | cons x found ih =>
    have three : (record x).sizes.length = 3 := rfl
    rw [List.flatMap_cons]
    cases i with
    | zero =>
      rw [List.getElem?_append_left (by omega)]
      simp
    | succ i =>
      rw [List.getElem?_append_right (by omega), three,
        show 3 * (i + 1) + j - 3 = 3 * i + j by omega]
      exact ih (Nat.lt_of_succ_lt_succ inside)

/-- The words of the records of an object. -/
structure Records (v : Value) (found : List FoundField) : Prop where
  length : v.load 0 = some (.ofNat found.length)
  key : ∀ i (h : i < found.length), v.objectKey i = some (found[i].key v.text)
  value : ∀ i (h : i < found.length),
    v.objectValue i = some ⟨found[i].type, v.words, found[i].place, v.text⟩

theorem records_of_sizes {found : List FoundField} (small : v.text.length < 2 ^ 61)
    (sizes : Sizes v.words v.payload
      (.ofNat found.length :: found.flatMap fun x => (x.record v.payload).sizes))
    (behind : ∀ x ∈ found, v.payload ≤ x.place) (inside : ∀ x ∈ found, x.place ≤ v.text.length) :
    Records v found := by
  have word : ∀ i (h : i < found.length) j, j < 3 → ∀ e,
      (found[i].record v.payload).sizes[j]? = some e → v.load (1 + i * 3 + j) = some e := by
    intro i h j three e same
    apply Value.load_of_sizes sizes
    rw [show 1 + i * 3 + j = (3 * i + j) + 1 by omega, List.getElem?_cons_succ,
      flatMap_sizes_get h three, same]
  refine ⟨Value.load_of_sizes sizes (i := 0) rfl, fun i h => ?_, fun i h => ?_⟩
  · exact Value.span_eq (word i h 0 (by decide) _ rfl) (word i h 1 (by decide) _ rfl)
  · have member : found[i] ∈ found := List.getElem_mem h
    have last := word i h 2 (by decide) _ rfl
    rw [show 1 + i * 3 + 2 = 3 + i * 3 by omega] at last
    exact Value.element_eq small (behind _ member) (inside _ member) last

/-- The search in the records of an object finds one with the key, if there is one. -/
theorem Records.find {found : List FoundField} (h : Records v found)
    (small : found.length < 2 ^ 64)
    (sorted : found.Pairwise fun x y => keyLess (y.key v.text) (x.key v.text) = false)
    (key : List UInt8) :
    (∃ i, ∃ inside : i < found.length, v.findObjectKey key = some i ∧ found[i].key v.text = key) ∨
      v.findObjectKey key = some found.length ∧ ∀ x ∈ found, x.key v.text ≠ key := by
  classical
  let before : Nat → Prop := fun i => ∃ inside : i < found.length,
    keyOrder (found[i].key v.text) < keyOrder key
  have rising : ∀ i j (later : i ≤ j) (inside : j < found.length),
      keyOrder (found[i].key v.text) ≤ keyOrder (found[j].key v.text) := by
    intro i j later inside
    rcases later.lt_or_eq with earlier | rfl
    · exact keyLess_false_iff.mp
        (List.pairwise_iff_getElem.mp sorted i j (by omega) inside earlier)
    · exact le_rfl
  obtain ⟨r, search, -, high, front, back⟩ := @partitionPoint_exists
    (fun i => (v.objectKey i).map fun k => keyLess k key) before _ 0 found.length
    (by
      intro i _ inside
      have inside : i < found.length := by omega
      rw [h.key i inside, Option.map_some, Option.some_inj, Bool.eq_iff_iff, decide_eq_true_iff,
        keyLess_iff]
      exact ⟨fun less => ⟨inside, less⟩, fun ⟨_, less⟩ => less⟩)
    (by
      rintro i j - later - ⟨inside, less⟩
      exact ⟨by omega, (rising i j later inside).trans_lt less⟩)
  have length := Value.length_eq small h.length
  rw [Nat.zero_add] at high back
  have find : v.findObjectKey key = if r = found.length then some found.length
      else (v.objectKey r).map fun k => if k = key then r else found.length := by
    rw [Value.findObjectKey, length, Option.bind_some, search, Option.bind_some]
  have absent : (∀ inside : r < found.length, found[r].key v.text ≠ key) →
      ∀ x ∈ found, x.key v.text ≠ key := by
    intro other x member same
    obtain ⟨i, inside, rfl⟩ := List.getElem_of_mem member
    rcases Nat.lt_or_ge i r with earlier | later
    · obtain ⟨_, less⟩ := front i (Nat.zero_le _) earlier
      rw [same] at less
      exact less.false
    · have here : r < found.length := by omega
      have above : keyOrder key ≤ keyOrder (found[r].key v.text) :=
        not_lt.mp fun less => back r le_rfl here ⟨here, less⟩
      have below := rising r i later inside
      rw [same] at below
      exact other here (keyOrder_injective (below.antisymm above))
  rcases high.lt_or_eq with inside | end_reached
  · rw [if_neg inside.ne, h.key r inside, Option.map_some] at find
    by_cases same : found[r].key v.text = key
    · rw [if_pos same] at find
      exact .inl ⟨r, inside, find, same⟩
    · rw [if_neg same] at find
      exact .inr ⟨find, absent fun _ => same⟩
  · rw [if_pos end_reached] at find
    exact .inr ⟨find, absent fun inside => absurd inside (by omega)⟩

/-- A field of an object is found by its key; where the key occurs again, some field of that key.
Without the key, the node is null. -/
theorem Value.Represents.getObjectValue {fields : List (List UInt8 × Node)}
    (h : v.Represents (.object fields)) (small : v.text.length < 2 ^ 61) (key : List UInt8) :
    ∃ w, v.getObjectValue key = some w ∧ w.text.length < 2 ^ 61 ∧
      ((∃ field ∈ fields, field.1 = key ∧ w.Represents field.2) ∨
        (∀ field ∈ fields, field.1 ≠ key) ∧ w = Value.null) := by
  obtain ⟨t, words, place, text⟩ := v
  obtain ⟨-, none⟩ | ⟨lo, reads⟩ := h
  · cases none
  obtain ⟨type, found, room, sizes, behind, each, same, sorted⟩ := reads.object_words
  simp only at type small room sizes behind each
  subst type
  have records := records_of_sizes (v := ⟨.OBJECT, words, place, text⟩) small sizes behind
    fun x member => (each x member).inside.2
  have length := Value.length_eq (n := found.length) (by omega) records.length
  rcases records.find (by omega) sorted key with ⟨i, inside, find, hit⟩ | ⟨find, absent⟩
  · have member : found[i] ∈ found := List.getElem_mem inside
    refine ⟨_, ?_, small, .inl ⟨_, same.mem_iff.mp (List.mem_map_of_mem member), hit,
      (each _ member).represents⟩⟩
    rw [Value.getObjectValue, if_pos rfl, find, Option.bind_some, length, Option.bind_some,
      if_pos inside, records.value i inside]
  · refine ⟨_, ?_, by decide, .inr ⟨fun field member => ?_, rfl⟩⟩
    · rw [Value.getObjectValue, if_pos rfl, find, Option.bind_some, length, Option.bind_some,
        if_neg (lt_irrefl _)]
    · obtain ⟨x, inside, rfl⟩ := List.mem_map.mp (same.mem_iff.mpr member)
      exact absent x inside

/-- The fields are numbered in the order of their keys. -/
theorem Value.Represents.objectFields {fields : List (List UInt8 × Node)}
    (h : v.Represents (.object fields)) (small : v.text.length < 2 ^ 61) :
    ∃ stored : List (List UInt8 × Node), stored.Perm fields ∧
      (stored.Pairwise fun x y => keyLess y.1 x.1 = false) ∧
      ∀ i (inside : i < stored.length), v.getObjectKey i = some stored[i].1 ∧
        ∃ w, v.getObjectValueAt i = some w ∧ w.Represents stored[i].2 ∧
          w.text.length < 2 ^ 61 := by
  obtain ⟨t, words, place, text⟩ := v
  obtain ⟨-, none⟩ | ⟨lo, reads⟩ := h
  · cases none
  obtain ⟨type, found, -, sizes, behind, each, same, sorted⟩ := reads.object_words
  simp only at type small sizes behind each
  subst type
  have records := records_of_sizes (v := ⟨.OBJECT, words, place, text⟩) small sizes behind
    fun x member => (each x member).inside.2
  refine ⟨found.map (FoundField.field text), same, ?_, fun i inside => ?_⟩
  · rw [List.pairwise_map]
    exact sorted
  · rw [List.length_map] at inside
    rw [List.getElem_map]
    exact ⟨(if_pos rfl).trans (records.key i inside), _,
      (if_pos rfl).trans (records.value i inside), (each _ (List.getElem_mem inside)).represents,
      small⟩

end Facts

/-- A step from a node to one below it. -/
inductive Step where
  | element (index : Nat)
  | field (key : List UInt8)

def Value.follow : List Step → Value → Option Value
  | [], v => some v
  | .element index :: path, v => (v.getArrayElement index).bind (follow path)
  | .field key :: path, v => (v.getObjectValue key).bind (follow path)

def walk : List Step → Node → Node
  | [], node => node
  | .element index :: path, node => walk path (node.getArrayElement index)
  | .field key :: path, node => walk path (node.getObjectValue key)

/-- No element is asked for behind the end of its array, and no key in an object that has a key
twice. -/
def Fits : List Step → Node → Prop
  | [], _ => True
  | .element index :: path, node =>
    (∀ elements, node = .array elements → index < elements.length) ∧
      Fits path (node.getArrayElement index)
  | .field key :: path, node =>
    (∀ fields, node = .object fields → (fields.map Prod.fst).Nodup) ∧
      Fits path (node.getObjectValue key)

theorem getObjectValue_of_mem {fields : List (List UInt8 × Node)} {field : List UInt8 × Node}
    (distinct : (fields.map Prod.fst).Nodup) (member : field ∈ fields) :
    (Node.object fields).getObjectValue field.1 = field.2 := by
  have found : fields.find? (fun f => f.1 == field.1) = some field := by
    cases search : fields.find? (fun f => f.1 == field.1) with
    | none => exact absurd (List.find?_eq_none.mp search field member) (by simp)
    | some other =>
      have key : other.1 = field.1 := by simpa using List.find?_some search
      rw [List.inj_on_of_nodup_map distinct (List.mem_of_find?_eq_some search) member key]
  rw [Node.getObjectValue, found]
  rfl

theorem getObjectValue_of_absent {fields : List (List UInt8 × Node)} {key : List UInt8}
    (absent : ∀ field ∈ fields, field.1 ≠ key) :
    (Node.object fields).getObjectValue key = .null := by
  have none : fields.find? (fun f => f.1 == key) = none :=
    List.find?_eq_none.mpr fun field member => by simpa using absent field member
  rw [Node.getObjectValue, none]
  rfl

theorem Value.represents_null : Value.null.Represents .null := .inl ⟨rfl, rfl⟩

/-- The type of a value is that of its node. -/
theorem Value.Represents.type {v : Value} {node : Node} (h : v.Represents node) :
    (v.valueType = .ARRAY ↔ ∃ elements, node = .array elements) ∧
      (v.valueType = .OBJECT ↔ ∃ fields, node = .object fields) := by
  obtain ⟨t, words, place, text⟩ := v
  rcases h with ⟨type, rfl⟩ | ⟨lo, reads⟩
  · simp only at type
    simp [type]
  · simp only at reads ⊢
    cases reads with
    | @number _ number => cases number <;> simp [Number.word, Number.node]
    | _ => simp

theorem Value.Represents.step {v : Value} {node : Node} (h : v.Represents node)
    (small : v.text.length < 2 ^ 61) {s : Step} {path : List Step} (fits : Fits (s :: path) node) :
    ∃ (w : Value) (node' : Node), v.follow (s :: path) = w.follow path ∧
      walk (s :: path) node = walk path node' ∧ w.Represents node' ∧ w.text.length < 2 ^ 61 ∧
      Fits path node' := by
  cases s with
  | element index =>
    obtain ⟨inside, fits⟩ := fits
    by_cases array : v.valueType = .ARRAY
    · obtain ⟨elements, rfl⟩ := h.type.1.mp array
      have inside := inside elements rfl
      obtain ⟨w, reached, text, represents⟩ := h.arrayElement small inside
      have same : (Node.array elements).getArrayElement index = elements[index] := by
        simp [Node.getArrayElement, inside]
      rw [same] at fits
      refine ⟨w, elements[index], ?_, ?_, represents, text ▸ small, fits⟩
      · rw [Value.follow, reached, Option.bind_some]
      · rw [walk, same]
    · have same : node.getArrayElement index = .null := by
        cases node with
        | array elements => exact absurd (h.type.1.mpr ⟨elements, rfl⟩) array
        | _ => rfl
      rw [same] at fits
      refine ⟨Value.null, .null, ?_, ?_, Value.represents_null, by decide, fits⟩
      · rw [Value.follow, Value.getArrayElement, if_neg array, Option.bind_some]
      · rw [walk, same]
  | field key =>
    obtain ⟨distinct, fits⟩ := fits
    by_cases object : v.valueType = .OBJECT
    · obtain ⟨fields, rfl⟩ := h.type.2.mp object
      obtain ⟨w, reached, text, hit⟩ := h.getObjectValue small key
      have represents : w.Represents ((Node.object fields).getObjectValue key) := by
        rcases hit with ⟨field, member, rfl, represents⟩ | ⟨absent, rfl⟩
        · rwa [getObjectValue_of_mem (distinct fields rfl) member]
        · rw [getObjectValue_of_absent absent]
          exact Value.represents_null
      exact ⟨w, _, by rw [Value.follow, reached, Option.bind_some], rfl, represents, text, fits⟩
    · have same : node.getObjectValue key = .null := by
        cases node with
        | object fields => exact absurd (h.type.2.mpr ⟨fields, rfl⟩) object
        | _ => rfl
      rw [same] at fits
      refine ⟨Value.null, .null, ?_, ?_, Value.represents_null, by decide, fits⟩
      · rw [Value.follow, Value.getObjectValue, if_neg object, Option.bind_some]
      · rw [walk, same]

/-- Any way through the document leads to the value of the node there. -/
theorem Value.Represents.reached {v : Value} {node : Node} (h : v.Represents node)
    (small : v.text.length < 2 ^ 61) {path : List Step} (fits : Fits path node) :
    ∃ w, v.follow path = some w ∧ w.Represents (walk path node) ∧ w.text.length < 2 ^ 61 := by
  induction path generalizing v node with
  | nil => exact ⟨v, rfl, h, small⟩
  | cons s path ih =>
    obtain ⟨w, node', here, there, represents, bound, further⟩ := h.step small fits
    rw [here, there]
    exact ih represents bound further

/-- `JSON::Document`: whether it is valid, and its root. -/
def openDocument (sort : StdSort) (content : List UInt8) : Option (Bool × Value) :=
  if content = [] then some (false, .null)
  else
    match parse sort content with
    | .error .undefined => none
    | .error (.error _ _ _) => some (false, .null)
    | .ok d => some (true, d.getRoot)

theorem openDocument_agrees (sort : StdSort) (content : List UInt8)
    (small : content.length < 2 ^ 61) :
    match readText content with
    | .error .undefined => openDocument sort content = none
    | .error .rejected => openDocument sort content = some (false, .null)
    | .ok node => ∃ root, openDocument sort content = some (true, root) ∧ root.Represents node ∧
        root.text.length < 2 ^ 61 := by
  have refines := parse_refines sort content small
  rw [openDocument]
  by_cases none : content = []
  · subst none
    rfl
  rw [if_neg none]
  generalize readText content = read at refines
  generalize parse sort content = parsed at refines
  cases refines with
  | undefined => rfl
  | rejected => rfl
  | @ok d node represents =>
    obtain ⟨bound, reads⟩ := represents
    exact ⟨d.getRoot, rfl, reads.represents, bound⟩

theorem openDocument_accepted (sort : StdSort) {content : List UInt8} {node : Node}
    (small : content.length < 2 ^ 61) (accepted : Accepted content node) :
    ∃ root, openDocument sort content = some (true, root) ∧ root.Represents node ∧
      root.text.length < 2 ^ 61 := by
  have agrees := openDocument_agrees sort content small
  simpa only [readText_iff.mpr accepted] using agrees

/-- A document is valid when the reader accepts its text; what is then learned by any way through
it is what the node of the reader says. -/
theorem openDocument_answers (sort : StdSort) (content : List UInt8)
    (small : content.length < 2 ^ 61) :
    match readText content with
    | .error .undefined => openDocument sort content = none
    | .error .rejected => openDocument sort content = some (false, .null)
    | .ok node => ∃ root, openDocument sort content = some (true, root) ∧ ∀ path, Fits path node →
        ∃ w, root.follow path = some w ∧ w.facts = (walk path node).facts := by
  have agrees := openDocument_agrees sort content small
  cases read : readText content with
  | error stop =>
    simp only [read] at agrees
    cases stop <;> exact agrees
  | ok node =>
    simp only [read] at agrees
    obtain ⟨root, opened, represents, bound⟩ := agrees
    refine ⟨root, opened, fun path fits => ?_⟩
    obtain ⟨w, found, there, bound⟩ := represents.reached bound fits
    exact ⟨w, found, there.facts bound⟩

/-- `std::sort`, with equivalent elements in the order in which they came. -/
def StdSort.merge : StdSort where
  sort less records := records.mergeSort fun a b => !less b a
  perm _ records _ _ := List.mergeSort_perm records _
  sorted less records transitive asymmetric := by
    have total : ∀ a b, (!less b a || !less a b) = true := by
      intro a b
      cases first : less b a with
      | false => rfl
      | true => simp [asymmetric _ _ first]
    have order := @List.pairwise_mergeSort _ (fun a b => !less b a)
      (by simpa using fun a b c first second => transitive c b a second first) total records
    simpa using order

/-- A field whose key is one letter, behind a comma unless it is the first. -/
theorem letter_leads (fields : List (List UInt8 × Node)) {k : UInt8}
    (printed : k ≠ quote ∧ k ≠ backslash) {comma : List UInt8}
    (front : CommaText (.object fields) comma) :
    Lead (.object fields) [blanked k] (comma ++ [34, k, 34, 58]) :=
  @Lead.field fields comma [blanked k] [k, 34] [] [] front (.plain printed .close) blank_nil
    blank_nil

/-- `{"b":[null,true],"a":false,"b":null}` -/
def nestedText : List UInt8 :=
  [123, 34, 98, 34, 58, 91] ++ (ascii "null" ++ 44 :: ascii "true") ++ [93, 44, 34, 97, 34, 58] ++
    ascii "false" ++ [44, 34, 98, 34, 58] ++ ascii "null" ++ [125]

def nestedNode : Node :=
  .object [([98], .array [.null, .boolean true]), ([97], .boolean false), ([98], .null)]

theorem nested_accepted : Accepted nestedText nestedNode := by
  have comma {c : Container} (more : c.length ≠ 0) : CommaText c [44] := by
    rw [CommaText, if_neg more]
    exact ⟨[], [], blank_nil, blank_nil, rfl⟩
  have one : Spells (.inside (.array [.null])) (ascii "null") :=
    @Spells.push (.array []) [] [] [] _ .null (.empty rfl) (.element blank_nil) (.scalar .null)
  have two : Spells (.inside (.array [.null, .boolean true]))
      (ascii "null" ++ 44 :: ascii "true") :=
    @Spells.push (.array [.null]) [] _ [44] _ _ one (.element (comma (by decide))) (.scalar .true)
  have b : Spells (.inside (.object [([98], .array [.null, .boolean true])])) _ :=
    @Spells.push (.object []) [98] [] _ _ _ (.empty rfl)
      (letter_leads [] (k := 98) (by decide) blank_nil) (@Spells.closed _ _ [] two (.inl blank_nil))
  have a : Spells (.inside (.object [([98], .array [.null, .boolean true]),
      ([97], .boolean false)])) _ :=
    @Spells.push (.object _) [97] _ _ _ _ b
      (letter_leads _ (k := 97) (by decide) (comma (by decide))) (.scalar .false)
  have all : Spells (.inside (.object [([98], .array [.null, .boolean true]),
      ([97], .boolean false), ([98], .null)])) _ :=
    @Spells.push (.object _) [98] _ _ _ _ a
      (letter_leads _ (k := 98) (by decide) (comma (by decide))) (.scalar .null)
  exact ⟨[], _, [], [], rfl, blank_nil, @Spells.closed _ _ [] all (.inl blank_nil),
    ⟨.object _, rfl⟩, blank_nil, rfl⟩

theorem openDocument_answers_nested :
    ∃ root, openDocument .merge nestedText = some (true, root) ∧ ∀ path, Fits path nestedNode →
      ∃ w, root.follow path = some w ∧ w.facts = (walk path nestedNode).facts := by
  have answers := openDocument_answers .merge nestedText (by decide)
  simpa only [readText_iff.mpr nested_accepted] using answers

/-- A document is valid exactly when its text is one of the grammar. -/
theorem openDocument_valid_iff (sort : StdSort) (content : List UInt8)
    (small : content.length < 2 ^ 61) :
    (∃ root, openDocument sort content = some (true, root)) ↔ ∃ node, Accepted content node := by
  constructor
  · rintro ⟨root, opened⟩
    have agrees := openDocument_agrees sort content small
    cases read : readText content with
    | error stop =>
      simp only [read] at agrees
      cases stop <;> (rw [agrees] at opened; cases opened)
    | ok node => exact ⟨node, readText_iff.mp read⟩
  · rintro ⟨node, accepted⟩
    obtain ⟨root, opened, -⟩ := openDocument_accepted sort small accepted
    exact ⟨root, opened⟩

theorem openDocument_valid_nested :
    ∃ root, openDocument .merge nestedText = some (true, root) :=
  (openDocument_valid_iff .merge nestedText (by decide)).mpr ⟨_, nested_accepted⟩

/-- Wherever an object stands in a document, its fields are numbered in the order of their keys,
each with its own value. -/
theorem openDocument_fields (sort : StdSort) {content : List UInt8} {node : Node}
    (small : content.length < 2 ^ 61) (accepted : Accepted content node) {path : List Step}
    (fits : Fits path node) {fields : List (List UInt8 × Node)}
    (object : walk path node = .object fields) :
    ∃ root w, openDocument sort content = some (true, root) ∧ root.follow path = some w ∧
      ∃ stored : List (List UInt8 × Node), stored.Perm fields ∧
        (stored.Pairwise fun x y => keyLess y.1 x.1 = false) ∧
        ∀ i (inside : i < stored.length), w.getObjectKey i = some stored[i].1 ∧
          ∃ value, w.getObjectValueAt i = some value ∧ value.facts = stored[i].2.facts := by
  obtain ⟨root, opened, represents, bound⟩ := openDocument_accepted sort small accepted
  obtain ⟨w, found, there, bound⟩ := represents.reached bound fits
  rw [object] at there
  obtain ⟨stored, same, ordered, each⟩ := there.objectFields bound
  refine ⟨root, w, opened, found, stored, same, ordered, fun i inside => ?_⟩
  obtain ⟨key, value, reached, represents, bound⟩ := each i inside
  exact ⟨key, value, reached, represents.facts bound⟩

theorem openDocument_fields_nested :
    ∃ root w, openDocument .merge nestedText = some (true, root) ∧ root.follow [] = some w ∧
      ∃ stored : List (List UInt8 × Node),
        stored.Perm [([98], .array [.null, .boolean true]), ([97], .boolean false),
          ([98], .null)] ∧
        (stored.Pairwise fun x y => keyLess y.1 x.1 = false) ∧
        ∀ i (inside : i < stored.length), w.getObjectKey i = some stored[i].1 ∧
          ∃ value, w.getObjectValueAt i = some value ∧ value.facts = stored[i].2.facts :=
  @openDocument_fields .merge _ _ (by decide) nested_accepted [] trivial _ rfl

end CppMyth.Sajson
