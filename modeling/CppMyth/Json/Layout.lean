import CppMyth.Json.InPlace
import Mathlib.Data.List.Lex
import Mathlib.Data.List.Perm.Basic
import Mathlib.Data.Prod.Lex

/-! How nodes lie in the words of the structure: what is finished, and the open structures. -/
namespace CppMyth.Sajson
open JSON (Node)

theorem shiftedCode_toNat (t : ValueType) : (t.code <<< 61).toNat = t.code.toNat * 2 ^ 61 := by
  cases t <;> rfl

theorem code_small (t : ValueType) : t.code.toNat < 8 := by
  cases t <;> decide

theorem valueMask_toNat : valueMask.toNat = 2 ^ 61 - 1 := by
  decide +kernel

theorem makeElement_toNat {t : ValueType} {v : UInt64} (small : v.toNat < 2 ^ 61) :
    (makeElement t v).toNat = t.code.toNat * 2 ^ 61 + v.toNat := by
  rw [makeElement, UInt64.toNat_or, shiftedCode_toNat, Nat.or_comm, Nat.mul_comm,
    ← Nat.two_pow_add_eq_or_of_lt small]

theorem getElementValue_makeElement {t : ValueType} {v : UInt64} (small : v.toNat < 2 ^ 61) :
    getElementValue (makeElement t v) = v := by
  apply UInt64.toNat_inj.mp
  rw [getElementValue, UInt64.toNat_and, makeElement_toNat small, valueMask_toNat,
    Nat.and_two_pow_sub_one_eq_mod]
  omega

theorem getElementType_makeElement {t : ValueType} {v : UInt64} (small : v.toNat < 2 ^ 61) :
    getElementType (makeElement t v) = t := by
  have mask : (7 : UInt64).toNat = 2 ^ 3 - 1 := rfl
  have shift : (61 : UInt64).toNat % 64 = 61 := rfl
  have code : ((makeElement t v >>> 61) &&& 7) = t.code := by
    apply UInt64.toNat_inj.mp
    rw [UInt64.toNat_and, UInt64.toNat_shiftRight, makeElement_toNat small, mask, shift,
      Nat.and_two_pow_sub_one_eq_mod, Nat.shiftRight_eq_div_pow]
    have := code_small t
    omega
  rw [getElementType, code]
  cases t <;> rfl

theorem ofNat_toNat {n : Nat} (small : n < 2 ^ 64) : (UInt64.ofNat n).toNat = n := by
  rw [UInt64.toNat_ofNat']
  omega

/-- The type is above the value, so that an element can be moved by an addition. -/
theorem makeElement_moved {t : ValueType} {place origin target : Nat} (above : origin ≤ place)
    (reached : target ≤ place) (small : place < 2 ^ 61) :
    makeElement t (.ofNat (place - origin)) + (.ofNat origin - .ofNat target) =
      makeElement t (.ofNat (place - target)) := by
  have before : (UInt64.ofNat (place - origin)).toNat = place - origin := ofNat_toNat (by omega)
  have after : (UInt64.ofNat (place - target)).toNat = place - target := ofNat_toNat (by omega)
  have below := code_small t
  apply UInt64.toNat_inj.mp
  rw [UInt64.toNat_add, makeElement_toNat (by omega), makeElement_toNat (by omega), before, after,
    UInt64.toNat_sub, UInt64.toNat_ofNat', UInt64.toNat_ofNat']
  omega

abbrev Words := Nat → Option Word

/-- The sizes that lie in the words from `a` on. -/
def Sizes (words : Words) : Nat → List UInt64 → Prop
  | _, [] => True
  | a, e :: es => words a = some (.size e) ∧ Sizes words (a + 1) es

section Sizes

variable {words words' : Words} {a : Nat} {es fs : List UInt64}

theorem sizes_append : Sizes words a (es ++ fs) ↔
    Sizes words a es ∧ Sizes words (a + es.length) fs := by
  induction es generalizing a with
  | nil => simp [Sizes]
  | cons e es ih => simp [Sizes, ih, and_assoc, Nat.add_assoc, Nat.add_comm 1]

theorem Sizes.congr (h : Sizes words a es)
    (same : ∀ i, a ≤ i → i < a + es.length → words' i = words i) : Sizes words' a es := by
  induction es generalizing a with
  | nil => trivial
  | cons e es ih =>
    obtain ⟨first, rest⟩ := h
    rw [List.length_cons] at same
    exact ⟨(same a le_rfl (by omega)).trans first,
      ih rest fun i _ _ => same i (by omega) (by omega)⟩

end Sizes

/-- Keys are ordered by their length first. -/
def keyOrder (key : List UInt8) : ℕ ×ₗ List ℕ := toLex (key.length, key.map UInt8.toNat)

theorem keyLess_iff {a b : List UInt8} : keyLess a b = true ↔ keyOrder a < keyOrder b := by
  simp [keyLess, keyOrder, Prod.Lex.lt_iff]

theorem keyLess_false_iff {a b : List UInt8} : keyLess a b = false ↔ keyOrder b ≤ keyOrder a := by
  rw [← not_lt, ← keyLess_iff, Bool.not_eq_true]

theorem keyOrder_injective : Function.Injective keyOrder := by
  intro a b same
  have bytes : a.map UInt8.toNat = b.map UInt8.toNat := congrArg (fun x => (ofLex x).2) same
  exact List.map_injective_iff.mpr (fun x y h => UInt8.toNat_inj.mp h) bytes

/-- A value that an element leads to. -/
structure Found where
  type : ValueType
  place : Nat
  node : Node

/-- Elements count from their structure. -/
def Found.element (origin : Nat) (x : Found) : UInt64 :=
  makeElement x.type (.ofNat (x.place - origin))

structure FoundField extends Found where
  keyStart : UInt64
  keyEnd : UInt64

namespace FoundField

def record (origin : Nat) (x : FoundField) : KeyRecord := ⟨x.keyStart, x.keyEnd, x.element origin⟩

def key (text : List UInt8) (x : FoundField) : List UInt8 := slice text x.keyStart x.keyEnd

def field (text : List UInt8) (x : FoundField) : List UInt8 × Node := (x.key text, x.node)

end FoundField

def KeyRecord.sizes (r : KeyRecord) : List UInt64 := [r.keyStart, r.keyEnd, r.value]

theorem length_sizes {α : Type} (record : α → KeyRecord) (found : List α) :
    (found.flatMap fun x => (record x).sizes).length = 3 * found.length := by
  simp [List.length_flatMap, KeyRecord.sizes, Nat.mul_comm]

/-- The places of a text that was read. -/
structure Spans (seen : List UInt8) (start stop : UInt64) : Prop where
  ordered : start.toNat ≤ stop.toNat
  inside : stop.toNat ≤ seen.length

/-- The value of type `t` at a place of the finished words is the node. `seen` is the text that
was read, the finished words go from `lo` to `hi`. -/
inductive Reads (seen : List UInt8) (words : Words) (lo hi : Nat) : ValueType → Nat → Node → Prop
  | null {place : Nat} (inside : lo ≤ place ∧ place ≤ hi) : Reads seen words lo hi .NULL place .null
  | falseValue {place : Nat} (inside : lo ≤ place ∧ place ≤ hi) :
      Reads seen words lo hi .FALSE place (.boolean false)
  | trueValue {place : Nat} (inside : lo ≤ place ∧ place ≤ hi) :
      Reads seen words lo hi .TRUE place (.boolean true)
  | number {place : Nat} {number : Number} (inside : lo ≤ place ∧ place ≤ hi)
      (word : words place = some number.word.2) :
      Reads seen words lo hi number.word.1 place number.node
  | string {place : Nat} {start stop : UInt64} (inside : lo ≤ place ∧ place ≤ hi)
      (span : Sizes words place [start, stop]) (bound : Spans seen start stop) :
      Reads seen words lo hi .STRING place (.string (slice seen start stop))
  | array {place : Nat} (found : List Found) (inside : lo ≤ place ∧ place ≤ hi)
      (room : place + 1 + found.length ≤ hi)
      (elements : Sizes words place
        (.ofNat found.length :: found.map (Found.element place)))
      (behind : ∀ x ∈ found, place ≤ x.place)
      (reads : ∀ x ∈ found, Reads seen words lo hi x.type x.place x.node) :
      Reads seen words lo hi .ARRAY place (.array (found.map Found.node))
  | object {place : Nat} (found : List FoundField) {fields : List (List UInt8 × Node)}
      (inside : lo ≤ place ∧ place ≤ hi) (room : place + 1 + 3 * found.length ≤ hi)
      (records : Sizes words place
        (.ofNat found.length :: found.flatMap fun x => (x.record place).sizes))
      (behind : ∀ x ∈ found, place ≤ x.place)
      (bound : ∀ x ∈ found, Spans seen x.keyStart x.keyEnd)
      (reads : ∀ x ∈ found, Reads seen words lo hi x.type x.place x.node)
      (same : (found.map (FoundField.field seen)).Perm fields)
      (sorted : found.Pairwise fun x y => keyLess (y.key seen) (x.key seen) = false) :
      Reads seen words lo hi .OBJECT place (.object fields)

theorem Reads.inside {seen : List UInt8} {words : Words} {lo hi place : Nat} {t : ValueType}
    {node : Node} (h : Reads seen words lo hi t place node) : lo ≤ place ∧ place ≤ hi := by
  cases h <;> assumption

theorem Spans.length {seen : List UInt8} {start stop : UInt64} (h : Spans seen start stop) :
    (stop - start).toNat = stop.toNat - start.toNat := by
  have ordered := h.ordered
  have small := stop.toNat_lt
  rw [UInt64.toNat_sub]
  omega

theorem Spans.mono {seen seen' : List UInt8} {start stop : UInt64} (h : Spans seen start stop)
    (further : seen <+: seen') : Spans seen' start stop :=
  ⟨h.ordered, h.inside.trans further.length_le⟩

theorem slice_longer {seen more : List UInt8} {start stop : UInt64}
    (bound : Spans seen start stop) :
    slice (seen ++ more) start stop = slice seen start stop := by
  have ordered := bound.ordered
  have inside := bound.inside
  rw [slice, slice, bound.length, List.drop_append_of_le_length (by omega),
    List.take_append_of_le_length (by rw [List.length_drop]; omega)]

theorem FoundField.field_longer {seen more : List UInt8} {x : FoundField}
    (bound : Spans seen x.keyStart x.keyEnd) : x.key (seen ++ more) = x.key seen :=
  slice_longer bound

/-- What is finished stays as it is while text is read and words are added in front. -/
theorem Reads.frame {seen seen' : List UInt8} {words words' : Words} {lo lo' hi place : Nat}
    {t : ValueType} {node : Node} (h : Reads seen words lo hi t place node)
    (further : seen <+: seen') (same : ∀ i, lo ≤ i → words' i = words i) (lower : lo' ≤ lo) :
    Reads seen' words' lo' hi t place node := by
  obtain ⟨more, rfl⟩ := further
  induction h with
  | null inside => exact .null ⟨lower.trans inside.1, inside.2⟩
  | falseValue inside => exact .falseValue ⟨lower.trans inside.1, inside.2⟩
  | trueValue inside => exact .trueValue ⟨lower.trans inside.1, inside.2⟩
  | number inside word =>
    exact .number ⟨lower.trans inside.1, inside.2⟩ ((same _ inside.1).trans word)
  | string inside span bound =>
    rw [← @slice_longer _ more _ _ bound]
    refine .string ⟨lower.trans inside.1, inside.2⟩ (span.congr fun i above _ => ?_)
      (bound.mono (List.prefix_append _ _))
    exact same i (inside.1.trans above)
  | array found inside room elements behind _ ih =>
    exact .array found ⟨lower.trans inside.1, inside.2⟩ room
      (elements.congr fun i above _ => same i (inside.1.trans above)) behind ih
  | object found inside room records behind bound _ fields sorted ih =>
    refine .object found ⟨lower.trans inside.1, inside.2⟩ room
      (records.congr fun i above _ => same i (inside.1.trans above)) behind
      (fun x member => (bound x member).mono (List.prefix_append _ _)) ih ?_ ?_
    · rw [List.map_congr_left fun x member => by
        rw [FoundField.field, FoundField.field_longer (bound x member), ← FoundField.field]]
      exact fields
    · refine sorted.imp_of_mem fun x y later => ?_
      rw [FoundField.field_longer (bound _ x), FoundField.field_longer (bound _ y)]
      exact later

/-- The words of the parser: the elements of the open structures grow from the front, what is
finished from the end. -/
structure Memory where
  seen : List UInt8
  words : Words
  lo : Nat
  hi : Nat

namespace Memory

/-- The finished value is the node. -/
def Holds (m : Memory) (x : Found) : Prop := Reads m.seen m.words m.lo m.hi x.type x.place x.node

/-- The key lies at `a`. -/
def Key (m : Memory) (a : Nat) (key : List UInt8) : Prop :=
  ∃ start stop : UInt64, Sizes m.words a [start, stop] ∧ Spans m.seen start stop ∧
    slice m.seen start stop = key

end Memory

/-- The words of an element of the structure. -/
def Container.width : Container → Nat
  | .array _ => 1
  | .object _ => 3

/-- Where the words behind the elements start. -/
def Container.top (base : Nat) (c : Container) : Nat := base + 1 + c.width * c.length

theorem Container.width_pos (c : Container) : 0 < c.width := by
  cases c <;> exact Nat.zero_lt_succ _

theorem Container.width_of_kind {c : Container} (object : c.kind = .OBJECT) : c.width = 3 := by
  cases c with
  | array elements => cases object
  | object fields => rfl

theorem Container.lt_top (base : Nat) (c : Container) : base < c.top base := by
  rw [Container.top]
  omega

namespace Memory

variable (m : Memory)

/-- The elements of an open structure. -/
def Members (base : Nat) : Container → Prop
  | .array elements => ∃ found : List Found, elements = found.map Found.node ∧
      Sizes m.words (base + 1) (found.map (Found.element (base + 1))) ∧ ∀ x ∈ found, m.Holds x
  | .object fields => ∃ found : List FoundField, fields = found.map (FoundField.field m.seen) ∧
      Sizes m.words (base + 1) (found.flatMap fun x => (x.record (base + 1)).sizes) ∧
      (∀ x ∈ found, Spans m.seen x.keyStart x.keyEnd) ∧ ∀ x ∈ found, m.Holds x.toFound

/-- The structures around the one at `base`, the innermost first. -/
def Stacked : List Hole → Nat → ValueType → Prop
  | [], base, kind => base = 0 ∧ m.words 0 = some (.size (makeElement kind rootMarker))
  | hole :: above, base, _ => ∃ parent : Nat,
      base = hole.container.top parent + (hole.container.width - 1) ∧
      m.words base = some (.size (makeElement hole.container.kind (.ofNat parent))) ∧
      m.Members parent hole.container ∧
      (hole.container.kind = .OBJECT → m.Key (hole.container.top parent) hole.key) ∧
      Stacked above parent hole.container.kind

end Memory

/-- Text was read and words were changed, but none below `top` and none that was finished. -/
structure Memory.Grows (top : Nat) (m m' : Memory) : Prop where
  seen : m.seen <+: m'.seen
  words : ∀ i, i < top ∨ m.lo ≤ i → m'.words i = m.words i
  lo : m'.lo ≤ m.lo
  hi : m'.hi = m.hi

namespace Memory.Grows

variable {m m' : Memory} {top : Nat}

theorem mono {top' : Nat} (h : m.Grows top m') (lower : top' ≤ top) : m.Grows top' m' :=
  ⟨h.seen, fun i changed => h.words i (changed.imp_left fun below => below.trans_le lower), h.lo,
    h.hi⟩

theorem holds (h : m.Grows top m') {x : Found} (held : m.Holds x) : m'.Holds x := by
  rw [Memory.Holds, h.hi]
  exact Reads.frame held h.seen (fun i finished => h.words i (.inr finished)) h.lo

theorem sizes (h : m.Grows top m') {a : Nat} {es : List UInt64} (held : Sizes m.words a es)
    (below : a + es.length ≤ top) : Sizes m'.words a es :=
  held.congr fun i _ inside => h.words i (.inl (inside.trans_le below))

theorem key (h : m.Grows top m') {a : Nat} {key : List UInt8} (held : m.Key a key)
    (below : a + 2 ≤ top) : m'.Key a key := by
  obtain ⟨start, stop, span, bound, content⟩ := held
  refine ⟨start, stop, h.sizes span below, bound.mono h.seen, ?_⟩
  obtain ⟨more, further⟩ := h.seen
  rw [← further, slice_longer bound, content]

theorem members (h : m.Grows top m') {base : Nat} {c : Container} (held : m.Members base c)
    (below : c.top base ≤ top) : m'.Members base c := by
  cases c with
  | array elements =>
    obtain ⟨found, rfl, sizes, holds⟩ := held
    refine ⟨found, rfl, h.sizes sizes ?_, fun x member => h.holds (holds x member)⟩
    simpa [Container.top, Container.width, Container.length] using below
  | object fields =>
    obtain ⟨found, rfl, sizes, bound, holds⟩ := held
    obtain ⟨more, further⟩ := h.seen
    refine ⟨found, ?_, h.sizes sizes ?_, fun x member => (bound x member).mono h.seen,
      fun x member => h.holds (holds x member)⟩
    · apply List.map_congr_left
      intro x member
      rw [FoundField.field, FoundField.field, ← further, FoundField.field_longer (bound x member)]
    · rw [length_sizes]
      simpa [Container.top, Container.width, Container.length] using below

theorem stacked (h : m.Grows top m') {above : List Hole} {base : Nat} {kind : ValueType}
    (held : m.Stacked above base kind) (below : base < top) : m'.Stacked above base kind := by
  induction above generalizing base kind with
  | nil =>
    obtain ⟨rfl, marker⟩ := held
    exact ⟨rfl, (h.words 0 (.inl below)).trans marker⟩
  | cons hole above ih =>
    obtain ⟨parent, rfl, marker, members, key, outer⟩ := held
    have inside := hole.container.lt_top parent
    refine ⟨parent, rfl, (h.words _ (.inl below)).trans marker, h.members members (by omega),
      fun object => ?_, ih outer (by omega)⟩
    have width := Container.width_of_kind object
    exact h.key (key object) (by omega)

end Memory.Grows

theorem Parser.store_ok {s : Parser} {i : Nat} {w : Word} (inside : i < s.text.length) :
    s.store i w = .ok { s with words := Function.update s.words i (some w) } := if_pos inside

section Moves

variable {s : Parser} {shift : UInt64}

/-- Elements are moved to the finished words, the last one first. -/
theorem moveElements_eq {es : List UInt64} (sizes : Sizes s.words (s.temp - es.length) es)
    (inside : es.length ≤ s.temp) (room : s.temp ≤ s.out) (bound : s.out ≤ s.text.length) :
    ∃ words, s.moveElements shift es.length =
        .ok { s with words := words, temp := s.temp - es.length, out := s.out - es.length } ∧
      Sizes words (s.out - es.length) (es.map (· + shift)) ∧
      ∀ i, i < s.temp - es.length ∨ s.out ≤ i → words i = s.words i := by
  induction es using List.reverseRecOn generalizing s with
  | nil => exact ⟨s.words, rfl, trivial, fun _ _ => rfl⟩
  | append_singleton es e ih =>
    rw [List.length_append, List.length_singleton] at sizes inside
    obtain ⟨front, last, -⟩ := sizes_append.mp sizes
    rw [show s.temp - (es.length + 1) + es.length = s.temp - 1 by omega] at last
    let moved : Words := Function.update s.words (s.out - 1) (some (.size (e + shift)))
    have kept : ∀ i, i ≠ s.out - 1 → moved i = s.words i := fun i other =>
      Function.update_of_ne other _ _
    obtain ⟨words, run, sizes', same⟩ :=
      ih (s := { s with words := moved, temp := s.temp - 1, out := s.out - 1 })
        (by
          rw [show s.temp - 1 - es.length = s.temp - (es.length + 1) by omega]
          exact front.congr fun i _ _ => kept i (by omega))
        (by simp only; omega) (by simp only; omega) (by simp only; omega)
    refine ⟨words, ?_, ?_, ?_⟩
    · rw [List.length_append, List.length_singleton, Parser.moveElements, if_neg (by omega)]
      simp only [Parser.loadSize, last]
      rw [Parser.store_ok (by omega)]
      simp only
      rw [run, Nat.sub_sub, Nat.sub_sub, Nat.add_comm 1]
    · simp only [Nat.sub_sub, Nat.add_comm 1] at sizes'
      rw [List.length_append, List.length_singleton, List.map_append, sizes_append]
      refine ⟨sizes', ?_, trivial⟩
      have place : s.out - (es.length + 1) + (es.map (· + shift)).length = s.out - 1 := by
        rw [List.length_map]
        omega
      rw [place, same _ (.inr le_rfl)]
      exact Function.update_self ..
    · intro i other
      rw [List.length_append, List.length_singleton] at other
      rw [same i (by simp only; omega)]
      exact kept i (by omega)

/-- The words of a record, its value moved. -/
def KeyRecord.shifted (shift : UInt64) (r : KeyRecord) : KeyRecord :=
  { r with value := r.value + shift }

theorem moveRecord_eq {r : KeyRecord} (sizes : Sizes s.words (s.temp - 3) r.sizes)
    (inside : 3 ≤ s.temp) (room : s.temp ≤ s.out) (bound : s.out ≤ s.text.length) :
    ∃ words, (∀ n, s.moveRecords shift (n + 1) = Parser.moveRecords shift n
        { s with words := words, temp := s.temp - 3, out := s.out - 3 }) ∧
      Sizes words (s.out - 3) (r.shifted shift).sizes ∧
      ∀ i, i < s.temp - 3 ∨ s.out ≤ i → words i = s.words i := by
  obtain ⟨start, stop, value, -⟩ := sizes
  obtain ⟨words, run, ⟨moved, -⟩, same⟩ := @moveElements_eq s shift [r.value]
    ⟨by rwa [show s.temp - 3 + 1 + 1 = s.temp - 1 by omega] at value, trivial⟩
    (by simp; omega) room bound
  simp only [List.length_cons, List.length_nil, Nat.zero_add] at run moved same
  obtain ⟨words', run', ⟨start', stop', -⟩, same'⟩ := @moveElements_eq
    { s with words := words, temp := s.temp - 1, out := s.out - 1 } 0 [r.keyStart, r.keyEnd]
    ⟨by
      rw [← start]
      simp only [List.length_cons, List.length_nil]
      rw [same _ (by omega), Nat.sub_sub], by
      rw [← stop]
      simp only [List.length_cons, List.length_nil]
      rw [same _ (by omega), Nat.sub_sub], trivial⟩
    (by simp; omega) (by simp; omega) (by simp; omega)
  simp only [List.length_cons, List.length_nil, Nat.zero_add, Nat.sub_sub, Nat.reduceAdd,
    UInt64.add_zero] at run' start' stop' same'
  refine ⟨words', fun n => ?_, ⟨start', stop', ?_, trivial⟩, fun i other => ?_⟩
  · rw [Parser.moveRecords, run]
    simp only
    rw [run']
  · rw [show s.out - 3 + 1 + 1 = s.out - 1 by omega, same' _ (by omega)]
    exact moved
  · rw [same' i (by omega), same i (by omega)]

theorem moveRecords_eq {rs : List KeyRecord}
    (sizes : Sizes s.words (s.temp - 3 * rs.length) (rs.flatMap KeyRecord.sizes))
    (inside : 3 * rs.length ≤ s.temp) (room : s.temp ≤ s.out) (bound : s.out ≤ s.text.length) :
    ∃ words, s.moveRecords shift rs.length =
        .ok { s with
          words := words, temp := s.temp - 3 * rs.length, out := s.out - 3 * rs.length } ∧
      Sizes words (s.out - 3 * rs.length) (rs.flatMap fun r => (r.shifted shift).sizes) ∧
      ∀ i, i < s.temp - 3 * rs.length ∨ s.out ≤ i → words i = s.words i := by
  induction rs using List.reverseRecOn generalizing s with
  | nil => exact ⟨s.words, rfl, trivial, fun _ _ => rfl⟩
  | append_singleton rs r ih =>
    rw [List.length_append, List.length_singleton] at sizes inside
    have width : (rs.flatMap KeyRecord.sizes).length = 3 * rs.length := length_sizes id rs
    rw [List.flatMap_append, List.flatMap_singleton, sizes_append, width] at sizes
    obtain ⟨front, last⟩ := sizes
    rw [show s.temp - 3 * (rs.length + 1) + 3 * rs.length = s.temp - 3 by omega] at last
    obtain ⟨words, run, moved, same⟩ := @moveRecord_eq s shift r last (by omega) room bound
    obtain ⟨words', run', moved', same'⟩ :=
      ih (s := { s with words := words, temp := s.temp - 3, out := s.out - 3 })
        (by
          rw [show s.temp - 3 - 3 * rs.length = s.temp - 3 * (rs.length + 1) by omega]
          refine front.congr fun i _ below => same i (.inl ?_)
          rw [width] at below
          omega)
        (by simp only; omega) (by simp only; omega) (by simp only; omega)
    have count : 3 + 3 * rs.length = 3 * (rs.length + 1) := by omega
    simp only [Nat.sub_sub, count] at run' moved' same'
    rw [List.length_append, List.length_singleton]
    refine ⟨words', (run _).trans run', ?_, fun i other => ?_⟩
    · rw [List.flatMap_append, List.flatMap_singleton, sizes_append, length_sizes]
      refine ⟨moved', ?_⟩
      rw [show s.out - 3 * (rs.length + 1) + 3 * rs.length = s.out - 3 by omega]
      exact moved.congr fun i above _ => same' i (.inr above)
    · rw [same' i (by omega), same i (by omega)]

theorem loadRecords_eq {rs : List KeyRecord} {base : Nat}
    (sizes : Sizes s.words base (rs.flatMap KeyRecord.sizes)) :
    s.loadRecords rs.length base = .ok rs := by
  induction rs generalizing base with
  | nil => rfl
  | cons r rs ih =>
    obtain ⟨start, stop, value, rest⟩ := sizes
    rw [List.length_cons, Parser.loadRecords]
    simp only [Parser.loadSize, start, stop, value, ih rest]

theorem storeRecords_eq {rs : List KeyRecord} {base : Nat}
    (bound : base + 3 * rs.length ≤ s.text.length) :
    ∃ words, s.storeRecords base rs = .ok { s with words := words } ∧
      Sizes words base (rs.flatMap KeyRecord.sizes) ∧
      ∀ i, i < base ∨ base + 3 * rs.length ≤ i → words i = s.words i := by
  induction rs generalizing s base with
  | nil => exact ⟨s.words, rfl, trivial, fun _ _ => rfl⟩
  | cons r rs ih =>
    rw [List.length_cons] at bound
    let stored : Words := Function.update (Function.update (Function.update s.words base
      (some (.size r.keyStart))) (base + 1) (some (.size r.keyEnd)))
      (base + 2) (some (.size r.value))
    obtain ⟨words, run, sizes, same⟩ := @ih { s with words := stored } (base + 3)
      (by simp only; omega)
    refine ⟨words, ?_, ?_, fun i other => ?_⟩
    · rw [Parser.storeRecords, Parser.store_ok (by omega)]
      simp only
      rw [Parser.store_ok (by simp only; omega)]
      simp only
      rw [Parser.store_ok (by simp only; omega)]
      exact run
    · rw [List.flatMap_cons, sizes_append]
      refine ⟨⟨?_, ?_, ?_, trivial⟩, sizes⟩
      · rw [same _ (by omega)]
        simp [stored, Function.update]
      · rw [same _ (by omega)]
        simp [stored, Function.update]
      · rw [same _ (by omega)]
        simp [stored]
    · rw [List.length_cons] at other
      rw [same i (by omega)]
      simp only [stored]
      rw [Function.update_of_ne (by omega), Function.update_of_ne (by omega),
        Function.update_of_ne (by omega)]

end Moves

def Parser.memory (s : Parser) : Memory := ⟨s.text.take s.p, s.words, s.out, s.text.length⟩

section Install

variable {s : Parser} {base : Nat}

/-- The place of the structure that is installed, as the pointers give it. -/
theorem newBase_eq {out length : Nat} (room : length + 1 ≤ out) (bound : out < 2 ^ 61) :
    (UInt64.ofNat out - .ofNat length - 1 : UInt64) = .ofNat (out - length - 1) := by
  apply UInt64.toNat_inj.mp
  have one : (1 : UInt64).toNat = 1 := rfl
  rw [UInt64.toNat_sub, UInt64.toNat_sub, one, ofNat_toNat (by omega), ofNat_toNat (by omega),
    ofNat_toNat (by omega)]
  omega

theorem Found.element_moved {x : Found} (held : s.memory.Holds x) {origin target : Nat}
    (above : origin ≤ s.out) (reached : target ≤ s.out) (small : s.text.length < 2 ^ 61) :
    x.element origin + (.ofNat origin - .ofNat target) = x.element target := by
  have inside : s.out ≤ x.place ∧ x.place ≤ s.text.length := held.inside
  exact makeElement_moved (by omega) (by omega) (by omega)

theorem FoundField.record_moved {x : FoundField} (held : s.memory.Holds x.toFound)
    {origin target : Nat} (above : origin ≤ s.out) (reached : target ≤ s.out)
    (small : s.text.length < 2 ^ 61) :
    (x.record origin).shifted (.ofNat origin - .ofNat target) = x.record target := by
  rw [KeyRecord.shifted, FoundField.record, FoundField.record,
    Found.element_moved held above reached small]

theorem installLength_eq {length : Nat} (room : 0 < s.out) (bound : s.out ≤ s.text.length) :
    s.installLength length = .ok { s with
      words := Function.update s.words (s.out - 1) (some (.size (.ofNat length)))
      out := s.out - 1 } := by
  rw [Parser.installLength, if_neg (by omega), Parser.store_ok (by omega)]
  rfl

theorem installArray_eq {elements : List Node} (members : s.memory.Members base (.array elements))
    (top : s.temp = base + 1 + elements.length) (room : s.temp ≤ s.out)
    (bound : s.out ≤ s.text.length) (small : s.text.length < 2 ^ 61) :
    ∃ words, s.installArray (base + 1) = .ok (.ARRAY,
        { s with words := words, temp := base + 1, out := s.out - elements.length - 1 }) ∧
      Reads (s.text.take s.p) words (s.out - elements.length - 1) s.text.length .ARRAY
        (s.out - elements.length - 1) (.array elements) ∧
      ∀ i, i < base ∨ s.out ≤ i → words i = s.words i := by
  obtain ⟨found, rfl, sizes, holds⟩ := members
  rw [List.length_map] at *
  have length : s.temp - (base + 1) = found.length := by omega
  have start : s.temp - found.length = base + 1 := by omega
  obtain ⟨words, run, moved, same⟩ := @moveElements_eq s
    (.ofNat (base + 1) - .ofNat (s.out - found.length - 1))
    (found.map (Found.element (base + 1))) (by rwa [List.length_map, start])
    (by rw [List.length_map]; omega) room bound
  rw [List.length_map] at run moved same
  rw [List.map_map] at moved
  have shifted : found.map ((· + (.ofNat (base + 1) - .ofNat (s.out - found.length - 1))) ∘
      Found.element (base + 1)) = found.map (Found.element (s.out - found.length - 1)) :=
    List.map_congr_left fun x member =>
      Found.element_moved (holds x member) (by omega) (by omega) small
  refine ⟨Function.update words (s.out - found.length - 1) (some (.size (.ofNat found.length))),
    ?_, .array found ⟨le_rfl, by omega⟩ (by omega) ?_ ?_ ?_, ?_⟩
  · rw [Parser.installArray]
    simp only [length]
    rw [newBase_eq (by omega) (by omega), run]
    simp only
    rw [installLength_eq (by simp only; omega) (by simp only; omega)]
    simp only [Except.map, start]
  · refine ⟨Function.update_self .., ?_⟩
    rw [shifted, show s.out - found.length = s.out - found.length - 1 + 1 by omega] at moved
    exact moved.congr fun i above _ => Function.update_of_ne (by omega) _ _
  · intro x member
    have inside : s.out ≤ x.place ∧ _ := (holds x member).inside
    omega
  · intro x member
    refine Reads.frame (holds x member) (List.prefix_refl _) (fun i finished => ?_) (by
      show _ ≤ s.out
      omega)
    have above : s.out ≤ i := finished
    rw [Function.update_of_ne (by omega), same i (.inr above)]
    rfl
  · intro i other
    rw [Function.update_of_ne (by omega), same i (by omega)]

/-- `std::sort` on the records of an object. -/
theorem sort_records (sort : StdSort) (text : List UInt8) (origin : Nat) (found : List FoundField) :
    ∃ sorted : List FoundField, sorted.Perm found ∧
      sort.sort (fun a b => keyLess (a.key text) (b.key text))
        (found.map (FoundField.record origin)) = sorted.map (FoundField.record origin) ∧
      sorted.Pairwise fun x y => keyLess (y.key text) (x.key text) = false := by
  have trans : ∀ a b c : KeyRecord, keyLess (a.key text) (b.key text) = false →
      keyLess (b.key text) (c.key text) = false → keyLess (a.key text) (c.key text) = false := by
    intro a b c first second
    rw [keyLess_false_iff] at *
    exact second.trans first
  have asymm : ∀ a b : KeyRecord, keyLess (a.key text) (b.key text) = true →
      keyLess (b.key text) (a.key text) = false := by
    intro a b less
    rw [keyLess_iff] at less
    rw [keyLess_false_iff]
    exact less.le
  have perm := sort.perm _ (found.map (FoundField.record origin)) trans asymm
  have ordered := sort.sorted _ (found.map (FoundField.record origin)) trans asymm
  obtain ⟨sorted, same, permuted⟩ :=
    (congrFun (congrFun (List.eq_map_comp_perm (FoundField.record origin)) _) found).mpr perm
  rw [same, List.pairwise_map] at ordered
  exact ⟨sorted, permuted, same, ordered⟩

theorem installObject_eq {fields : List (List UInt8 × Node)} (sort : StdSort)
    (members : s.memory.Members base (.object fields))
    (top : s.temp = base + 1 + 3 * fields.length ∨ fields = [] ∧ s.temp = base + 3)
    (room : base + 1 + 3 * fields.length ≤ s.out)
    (bound : s.out ≤ s.text.length) (small : s.text.length < 2 ^ 61) :
    ∃ words temp, s.installObject sort (base + 1) = .ok (.OBJECT,
        { s with words := words, temp := temp, out := s.out - 3 * fields.length - 1 }) ∧
      Reads (s.text.take s.p) words (s.out - 3 * fields.length - 1) s.text.length .OBJECT
        (s.out - 3 * fields.length - 1) (.object fields) ∧
      ∀ i, i < base ∨ s.out ≤ i → words i = s.words i := by
  obtain ⟨found, rfl, sizes, keys, holds⟩ := members
  rw [List.length_map] at *
  have length : (s.temp - (base + 1)) / 3 = found.length := by
    rcases top with exact_top | ⟨none, dangling⟩
    · omega
    · rw [List.map_eq_nil_iff] at none
      rw [none, dangling]
      simp
  obtain ⟨sorted, permuted, sorts, ordered⟩ := sort_records sort s.text (base + 1) found
  have count := permuted.length_eq
  obtain ⟨stored, store, sizes', same⟩ := @storeRecords_eq s
    (sorted.map (FoundField.record (base + 1))) (base + 1) (by rw [List.length_map]; omega)
  rw [List.length_map] at same
  have moves : ∃ words temp, Parser.moveRecords
        (.ofNat (base + 1) - .ofNat (s.out - 3 * found.length - 1)) found.length
        { s with words := stored } =
          .ok { s with words := words, temp := temp, out := s.out - 3 * found.length } ∧
      Sizes words (s.out - 3 * found.length)
        (sorted.flatMap fun x => (x.record (s.out - 3 * found.length - 1)).sizes) ∧
      ∀ i, i < base + 1 ∨ s.out ≤ i → words i = stored i := by
    rcases top with exact_top | ⟨none, dangling⟩
    · have start : s.temp - 3 * found.length = base + 1 := by omega
      obtain ⟨words, run, moved, kept⟩ := @moveRecords_eq { s with words := stored }
        (.ofNat (base + 1) - .ofNat (s.out - 3 * found.length - 1))
        (sorted.map (FoundField.record (base + 1)))
        (by
          rw [List.length_map, count, start]
          exact sizes')
        (by rw [List.length_map]; simp only; omega) (by simp only; omega) bound
      rw [List.length_map, count] at run moved kept
      refine ⟨words, _, run, ?_, fun i other => kept i (by simp only; omega)⟩
      rw [List.flatMap_map] at moved
      have shifted : (sorted.flatMap fun x => ((x.record (base + 1)).shifted
          (.ofNat (base + 1) - .ofNat (s.out - 3 * found.length - 1))).sizes) =
          sorted.flatMap fun x => (x.record (s.out - 3 * found.length - 1)).sizes := by
        refine List.flatMap_congr fun x member => ?_
        rw [FoundField.record_moved (holds x (permuted.mem_iff.mp member)) (by omega) (by omega)
          small]
      rwa [shifted] at moved
    · rw [List.map_eq_nil_iff] at none
      subst none
      rw [List.perm_nil.mp permuted]
      exact ⟨stored, s.temp, rfl, trivial, fun _ _ => rfl⟩
  obtain ⟨words, temp, run, moved, kept⟩ := moves
  refine ⟨Function.update words (s.out - 3 * found.length - 1) (some (.size (.ofNat found.length))),
    temp, ?_, ?_, fun i other => ?_⟩
  · rw [Parser.installObject]
    simp only [length]
    have loaded := @loadRecords_eq s (found.map (FoundField.record (base + 1)))
      (base + 1) (by rwa [List.flatMap_map])
    rw [List.length_map] at loaded
    rw [loaded]
    simp only
    rw [sorts, store]
    simp only
    rw [Nat.mul_comm, newBase_eq (by omega) (by omega), run]
    simp only
    rw [installLength_eq (by simp only; omega) (by simp only; omega)]
    rfl
  · have member := fun x => (permuted.mem_iff (a := x)).mp
    have key : ∀ x ∈ sorted, x.key s.text = x.key (s.text.take s.p) := fun x inside => by
      have prefix_key := @FoundField.field_longer _ (s.text.drop s.p) x (keys x (member x inside))
      rwa [show s.memory.seen = s.text.take s.p from rfl, List.take_append_drop] at prefix_key
    refine .object sorted ⟨le_rfl, by omega⟩ (by omega) ⟨?_, ?_⟩ ?_
      (fun x inside => keys x (member x inside)) ?_
      (permuted.map _) ?_
    · rw [Function.update_self, count]
    · rw [show s.out - 3 * found.length = s.out - 3 * found.length - 1 + 1 by omega] at moved
      exact moved.congr fun i above _ => Function.update_of_ne (by omega) _ _
    · intro x inside
      have finished : s.out ≤ x.place ∧ _ := (holds x (member x inside)).inside
      omega
    · intro x inside
      refine Reads.frame (holds x (member x inside)) (List.prefix_refl _) (fun i finished => ?_) (by
        show _ ≤ s.out
        omega)
      have above : s.out ≤ i := finished
      rw [Function.update_of_ne (by omega), kept i (.inr above), same i (by omega)]
      rfl
    · refine ordered.imp_of_mem fun x y => ?_
      rw [key _ x, key _ y]
      exact id
  · rw [Function.update_of_ne (by omega), kept i (by omega), same i (by omega)]

end Install

end CppMyth.Sajson
