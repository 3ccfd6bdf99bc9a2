import CppMyth.Json.Layout

/-! The parser does what the reader does: its words hold the nodes of the open structures, and no
word that is written is one that is still needed. -/
namespace CppMyth.Sajson
open JSON (Node)

namespace Parser

@[simp] theorem seek_seek (s : Parser) (front behind : List UInt8) :
    (s.seek front).seek behind = s.seek behind := rfl

theorem seek_text (s : Parser) (behind : List UInt8) : (s.seek behind).text = s.text := rfl

theorem peekStructure_eq {s : Parser} (inside : s.p ≤ s.text.length) :
    s.peekStructure = ((skipBlanks s.rest).headD 0, s.seek (skipBlanks s.rest)) := by
  have length := s.rest_length
  have parts := congrArg List.length (List.takeWhile_append_dropWhile (p := isBlank) (l := s.rest))
  rw [List.length_append] at parts
  have moved : { s with p := s.p + (s.rest.takeWhile isBlank).length } =
      s.seek (skipBlanks s.rest) := by
    rw [seek, skipBlanks]
    congr 1
    omega
  have behind : { s with p := s.p + (s.rest.takeWhile isBlank).length }.rest =
      skipBlanks s.rest := by
    rw [moved]
    exact rest_seek ((skipBlanks_suffix _).trans s.rest_suffix)
  rw [peekStructure]
  show (List.headD { s with p := s.p + (s.rest.takeWhile isBlank).length }.rest 0, _) = _
  rw [behind, moved]

theorem seek_inside (s : Parser) (behind : List UInt8) : (s.seek behind).p ≤ s.text.length :=
  Nat.sub_le _ _

end Parser

theorem Container.closing_eq {s : Structure} {c : Container} (kind : s.structureType = c.kind) :
    s.closing = c.closing := by
  rw [Structure.closing, kind]
  cases c <;> rfl

theorem readComma_agrees {s : Structure} {c : Container}
    (inside : s.parser.p ≤ s.parser.text.length)
    (kind : s.structureType = c.kind) (first : s.parser.temp = s.base + 1 ↔ c.length = 0) :
    Agrees (fun x y => x = (y.1, y.2.headD 0, s.parser.seek y.2)) s.readComma
      (Reader.scanComma c (skipBlanks s.parser.rest)) := by
  rw [Structure.readComma, Parser.peekStructure_eq inside, Reader.scanComma,
    Container.closing_eq kind]
  simp only [first]
  split
  · split
    · exact .error _ _
    · exact .ok rfl
  split
  · rename_i comma
    cases text : skipBlanks s.parser.rest with
    | nil => simp [text] at comma
    | cons c rest =>
      have tail : c :: rest <:+ s.parser.text :=
        text ▸ (skipBlanks_suffix _).trans s.parser.rest_suffix
      have next := (Parser.rest_cons (Parser.rest_seek tail)).2.2
      rw [next.2, Parser.peekStructure_eq (Parser.seek_inside _ _), Parser.seek_seek,
        Parser.seek_seek, Parser.rest_seek ((List.suffix_cons c rest).trans tail)]
      exact .ok rfl
  split
  · exact .error _ _
  · exact .ok rfl

/-- What a string leaves: its two words, and the text in front of it as it was. -/
theorem Closed.memory {s q : Parser} {tag : Nat} {t : ValueType} {content behind : List UInt8}
    (h : Closed s tag (s.text.take (s.p + 1)) content behind (t, q)) (before : s.p < s.text.length)
    (small : s.text.length < 2 ^ 61) :
    t = .STRING ∧ q.text.length = s.text.length ∧ q.rest = behind ∧ q.temp = s.temp ∧
      q.out = s.out ∧ q.p + behind.length = s.text.length ∧ s.text.take s.p <+: q.text.take q.p ∧
      q.memory.Key tag content ∧ ∀ i, i < tag ∨ tag + 2 ≤ i → q.words i = s.words i := by
  obtain ⟨gap, length, same⟩ := h
  cases same
  have front : (s.text.take (s.p + 1)).length = s.p + 1 := by
    rw [List.length_take]
    omega
  have parts : s.text.take (s.p + 1) ++ (content ++ (gap ++ behind)) =
      (s.text.take (s.p + 1) ++ (content ++ gap)) ++ behind := by simp
  have seen : (s.text.take (s.p + 1) ++ (content ++ (gap ++ behind))).take
      (s.text.take (s.p + 1) ++ (content ++ gap)).length = s.text.take (s.p + 1) ++
        (content ++ gap) := by
    rw [parts]
    exact List.take_left
  simp only [List.length_append, front] at length
  refine ⟨rfl, by simp; omega, ?_, rfl, rfl, by simp; omega, ?_, ?_, fun i other => ?_⟩
  · rw [Parser.rest]
    simp only
    rw [parts]
    exact List.drop_left
  · simp only
    rw [seen]
    exact (List.take_prefix_take_left (by omega)).trans (List.prefix_append _ _)
  · have bound : Spans ((s.text.take (s.p + 1) ++ (content ++ (gap ++ behind))).take
        (s.text.take (s.p + 1) ++ (content ++ gap)).length) (.ofNat (s.p + 1))
        (.ofNat (s.p + 1 + content.length)) := by
      refine ⟨?_, ?_⟩
      · rw [ofNat_toNat (by omega), ofNat_toNat (by omega)]
        omega
      · rw [ofNat_toNat (by omega), seen]
        simp only [List.length_append, front]
        omega
    refine ⟨.ofNat (s.p + 1), .ofNat (s.p + 1 + content.length), ⟨?_, ?_, trivial⟩, ?_, ?_⟩
    · simp [Parser.memory, front]
    · simp [Parser.memory, front]
    · exact bound
    · rw [slice, bound.length, ofNat_toNat (by omega), ofNat_toNat (by omega)]
      simp only [Parser.memory]
      rw [seen, List.drop_left' front, Nat.add_sub_cancel_left]
      exact List.take_left
  · simp only
    rw [Function.update_of_ne (by omega), Function.update_of_ne (by omega)]

/-- The parser behind the comma and the key of an element, and in front of its value. -/
structure Ready (q : Parser) (base : Nat) (c : Container) (above : List Hole) (key : List UInt8) :
    Prop where
  top : q.temp = c.top base + (c.width - 1)
  used : q.temp + (q.text.length - q.out) ≤ q.p
  bound : q.out ≤ q.text.length
  members : q.memory.Members base c
  stacked : q.memory.Stacked above base c.kind
  key : c.kind = .OBJECT → q.memory.Key (c.top base) key

/-- The parser in front of a comma or a bracket. Once it is at the end, it only fails. -/
structure Simulates (s : Structure) (r : Reader) : Prop where
  small : s.parser.text.length < 2 ^ 61
  kind : s.structureType = r.current.kind
  rest : s.parser.rest = r.rest
  inside : s.parser.p ≤ s.parser.text.length
  top : s.parser.temp = r.current.top s.base
  used : s.parser.p < s.parser.text.length →
    s.parser.temp + (s.parser.text.length - s.parser.out) ≤
      s.parser.p + if r.current.length = 0 then 0 else 1
  bound : s.parser.out ≤ s.parser.text.length
  members : s.parser.p < s.parser.text.length → s.parser.memory.Members s.base r.current
  stacked : s.parser.p < s.parser.text.length →
    s.parser.memory.Stacked r.above s.base r.current.kind

theorem grows_forward {s q : Parser} (top : Nat) (text : q.text = s.text)
    (words : q.words = s.words)
    (out : q.out = s.out) (forward : s.p ≤ q.p) : s.memory.Grows top q.memory := by
  refine ⟨?_, fun i _ => by rw [Parser.memory, words, Parser.memory], out.le, ?_⟩
  · simp only [Parser.memory, text]
    exact List.take_prefix_take_left forward
  · simp only [Parser.memory, text]

theorem Ready.grows {p q : Parser} {base : Nat} {c : Container} {above : List Hole}
    {key : List UInt8} (h : Ready p base c above key) (grows : p.memory.Grows p.temp q.memory)
    (temp : q.temp = p.temp) (bound : q.out ≤ q.text.length)
    (used : q.temp + (q.text.length - q.out) ≤ q.p) : Ready q base c above key := by
  have top := h.top
  have inside := c.lt_top base
  refine ⟨temp.trans top, used, bound, grows.members h.members (by omega),
    grows.stacked h.stacked (by omega), fun object => grows.key (h.key object) ?_⟩
  cases c with
  | array elements => cases object
  | object fields =>
    rw [top]
    exact le_rfl

theorem readKey_agrees {p : Parser} {base : Nat} {c : Container} {above : List Hole}
    (top : p.temp = c.top base) (bound : p.out ≤ p.text.length) (small : p.text.length < 2 ^ 61)
    (used : c.kind = .OBJECT ∧ p.rest.headD 0 ≠ 125 → p.temp + (p.text.length - p.out) ≤ p.p)
    (inside : p.p ≤ p.text.length) (members : p.memory.Members base c)
    (stacked : p.memory.Stacked above base c.kind) :
    Agrees (fun q y => q.rest = y.2 ∧ q.p ≤ p.text.length ∧ q.text.length = p.text.length ∧
        if c.kind = .OBJECT ∧ p.rest.headD 0 ≠ 125 then Ready q base c above y.1
        else q = p ∧ y.1 = [])
      (Structure.readKey c.kind (p.rest.headD 0) p) (Reader.scanKey c p.rest) := by
  rw [Structure.readKey, Reader.scanKey]
  split
  · rename_i keyed
    split
    · exact .error _ _
    rename_i quoted
    cases text : p.rest with
    | nil => simp [text, quote] at quoted
    | cons d rest =>
      have width := Container.width_of_kind keyed.1
      have use := used keyed
      have total := p.rest_length
      rw [text, List.length_cons] at total
      have string := @parseString_agrees p.temp p _ _ text fun some => by
        have := List.length_pos_iff.mpr some
        omega
      rw [List.tail_cons]
      cases read : scanString rest with
      | error stop =>
        rw [read] at string
        obtain ⟨fail, same, failing⟩ := string.of_error (Q := fun (_ _ : Unit) => True)
        rw [same]
        cases failing with
        | rejected line column _ => exact .rejected line column _
        | undefined => exact .undefined
      | ok found =>
        obtain ⟨key, behind⟩ := found
        rw [read] at string
        obtain ⟨⟨t, q⟩, same, closed⟩ := string.of_ok
        obtain ⟨-, length, after, temp, out, place, seen, span, words⟩ :=
          closed.memory (by omega) small
        simp only at after place span
        have shorter := (scanString_suffix read).2
        rw [same]
        simp only
        rw [Parser.peekStructure_eq (by omega), after, Reader.scanColon]
        simp only
        split
        · exact .error _ _
        rename_i colon
        cases marked : skipBlanks behind with
        | nil => simp [marked] at colon
        | cons e rest' =>
          have tail : e :: rest' <:+ q.text := by
            rw [← marked, ← after]
            exact (skipBlanks_suffix _).trans q.rest_suffix
          have further := (skipBlanks_suffix behind).length_le
          obtain ⟨-, -, value, -⟩ := Parser.rest_cons (Parser.rest_seek tail)
          have seek : (q.seek (e :: rest')).p = q.text.length - (rest'.length + 1) := rfl
          rw [marked, List.length_cons] at further
          refine .ok ⟨value.symm, by simp only; omega, length, ?_⟩
          have forward : q.memory.Grows (p.temp + 2)
              { q.seek (e :: rest') with
                p := (q.seek (e :: rest')).p + 1, temp := q.temp + 2 }.memory :=
            grows_forward _ rfl rfl rfl (by simp only; omega)
          have grows : p.memory.Grows p.temp
              { q.seek (e :: rest') with
                p := (q.seek (e :: rest')).p + 1, temp := q.temp + 2 }.memory := by
            refine ⟨seen.trans forward.seen, fun i other => words i ?_, out.le, length⟩
            have lo : p.memory.lo = p.out := rfl
            omega
          have base_top := c.lt_top base
          refine ⟨by simp only [Parser.seek]; omega, ?_, ?_, grows.members members (by omega),
            grows.stacked stacked (by omega), fun _ => forward.key (top ▸ span) (by omega)⟩
          · simp only [Parser.seek, List.length_cons]
            omega
          · simp only [Parser.seek]
            omega
  · exact .ok ⟨rfl, inside, rfl, rfl, rfl⟩

/-- A value was finished: its words are at the pointer to the finished ones. -/
structure Finished (p : Parser) (x : ValueType × Parser) (y : Node × List UInt8) : Prop where
  rest : x.2.rest = y.2
  length : x.2.text.length = p.text.length
  inside : x.2.p ≤ p.text.length
  temp : x.2.temp = p.temp
  bound : x.2.out ≤ p.text.length
  used : p.temp + (p.text.length - x.2.out) ≤ x.2.p
  grows : p.memory.Grows p.temp x.2.memory
  holds : x.2.memory.Holds ⟨x.1, x.2.out, y.1⟩

section Scalars

variable {p : Parser} {base : Nat} {c : Container} {above : List Hole} {key rest : List UInt8}
  {d : UInt8}

theorem parseLiteral_agrees (ready : Ready p base c above key) (text : p.rest = d :: rest)
    {word : List UInt8} {expected : String} {t : ValueType} {node : Node}
    (holds : ∀ (m : Memory) (place : Nat), m.lo ≤ place ∧ place ≤ m.hi → m.Holds ⟨t, place, node⟩) :
    Agrees (Finished p) (p.parseLiteral (d :: word) expected t)
      (scanLiteral (d :: word) node (d :: rest)) := by
  have total := p.rest_length
  rw [text, List.length_cons] at total
  have whole : d :: word <+: d :: rest ↔ rest.take word.length = word := by
    rw [List.cons_prefix_cons, List.prefix_iff_eq_take]
    simp [eq_comm]
  rw [Parser.parseLiteral, scanLiteral, text, List.length_cons, List.take_succ_cons, List.tail_cons,
    List.tail_cons, List.drop_succ_cons]
  simp only [whole]
  split
  · rw [if_neg]
    · exact .error _ _
    · intro same
      have := congrArg List.length same
      rw [List.length_take] at this
      omega
  by_cases same : rest.take word.length = word
  · rw [if_neg (not_not.mpr same), if_pos same]
    have used := ready.used
    have bound := ready.bound
    refine .ok ⟨?_, rfl, by simp only; omega, rfl, bound, by simp only; omega,
      grows_forward _ rfl rfl rfl (by simp only; omega), holds _ _ ⟨le_rfl, bound⟩⟩
    rw [Parser.rest_skip, text, List.drop_succ_cons]
  · rw [if_pos same, if_neg same]
    exact .error _ _

theorem parseNumber_agrees (ready : Ready p base c above key) (text : p.rest = d :: rest)
    (first : isdigit d ∨ d = 45) :
    Agrees (Finished p) p.parseNumber (scanNumeral (d :: rest)) := by
  have total := p.rest_length
  rw [text, List.length_cons] at total
  have used := ready.used
  have bound := ready.bound
  rw [Parser.parseNumber, scanNumeral, text]
  cases read : scanNumber (d :: rest) with
  | error fail =>
    cases fail with
    | undefined => exact .undefined
    | error behind message => exact .error _ _
  | ok found =>
    obtain ⟨number, behind⟩ := found
    obtain ⟨tail, some⟩ := scanNumber_suffix first read
    have shorter := tail.length_le
    have positive := List.length_pos_iff.mpr some
    simp only
    rw [if_neg (by omega), Parser.store_ok (by simp only; omega)]
    refine .ok ⟨?_, rfl, Nat.sub_le _ _, rfl, by simp only; omega, by simp only; omega,
      ⟨?_, ?_, by show p.out - 1 ≤ p.out; omega, rfl⟩, ?_⟩
    · exact Parser.rest_seek ((tail.trans (List.suffix_cons d rest)).trans (text ▸ p.rest_suffix))
    · exact List.take_prefix_take_left (by simp only; omega)
    · intro i other
      have lo : p.memory.lo = p.out := rfl
      exact Function.update_of_ne (by omega) _ _
    · exact .number ⟨le_rfl, by show p.out - 1 ≤ p.text.length; omega⟩ (Function.update_self ..)

theorem parseStringValue_agrees (ready : Ready p base c above key) (text : p.rest = d :: rest)
    (small : p.text.length < 2 ^ 61) :
    Agrees (Finished p) p.parseStringValue
      ((scanString rest).map fun (content, behind) => (.string content, behind)) := by
  have total := p.rest_length
  rw [text, List.length_cons] at total
  have used := ready.used
  have bound := ready.bound
  have top := ready.top
  rw [Container.top] at top
  rw [Parser.parseStringValue, if_neg (by omega)]
  have string := @parseString_agrees (p.out - 2) { p with out := p.out - 2 } _ _ text
    fun _ => by simp only; omega
  apply Agrees.map_right
  cases read : scanString rest with
  | error stop =>
    rw [read] at string
    obtain ⟨fail, same, failing⟩ := string.of_error
    rw [same]
    exact failing
  | ok found =>
    obtain ⟨content, behind⟩ := found
    rw [read] at string
    obtain ⟨⟨t, q⟩, same, closed⟩ := string.of_ok
    obtain ⟨rfl, length, after, temp, out, place, seen, span, words⟩ :=
      closed.memory (by simp only; omega) small
    have shorter := (scanString_suffix read).2
    simp only at length after temp out place seen span words
    rw [same]
    refine .ok ⟨after, length, by simp only; omega, temp, by simp only; omega, by simp only; omega,
      ⟨seen, fun i other => words i ?_, ?_, length⟩, ?_⟩
    · have lo : p.memory.lo = p.out := rfl
      omega
    · show q.out ≤ p.out
      omega
    · obtain ⟨start, stop, sizes, inside, content⟩ := span
      rw [← content]
      refine Reads.string ⟨le_rfl, ?_⟩ ?_ inside
      · show q.out ≤ q.text.length
        omega
      · simp only [out]
        exact sizes

end Scalars

section Push

variable {q : Parser} {base : Nat} {c : Container} {above : List Hole} {key : List UInt8}
  {t : ValueType} {node : Node}

theorem Container.width_push (c : Container) : (c.push key node).width = c.width := by
  cases c <;> rfl

theorem Container.top_push (c : Container) :
    (c.push key node).top base = c.top base + (c.width - 1) + 1 := by
  have positive := c.width_pos
  rw [Container.top, Container.top, Container.width_push, Container.length_push, Nat.mul_add]
  omega

/-- The parser behind the element of a value. -/
def Parser.withElement (q : Parser) (base : Nat) (t : ValueType) : Parser :=
  { q with
    words := Function.update q.words q.temp
      (some (.size (makeElement t (.ofNat q.out - .ofNat base - 1))))
    temp := q.temp + 1 }

theorem withElement_grows (room : q.temp < q.out) :
    q.memory.Grows q.temp (q.withElement base t).memory := by
  refine ⟨List.prefix_refl _, fun i other => ?_, le_rfl, rfl⟩
  have lo : q.memory.lo = q.out := rfl
  exact Function.update_of_ne (by omega) _ _

theorem Ready.members_push (ready : Ready q base c above key) (room : q.temp < q.out)
    (small : q.text.length < 2 ^ 61) (holds : q.memory.Holds ⟨t, q.out, node⟩) :
    (q.withElement base t).memory.Members base (c.push key node) := by
  have grows := @withElement_grows q base t room
  have top := ready.top
  have bound := ready.bound
  have element : (q.withElement base t).words q.temp =
      some (.size (Found.element (base + 1) ⟨t, q.out, node⟩)) := by
    rw [Parser.withElement]
    simp only
    have above_base : base + 1 ≤ q.temp := by
      rw [top, Container.top]
      omega
    rw [Function.update_self, newBase_eq (by omega) (by omega)]
    rfl
  have members := grows.members ready.members (by omega)
  cases c with
  | array elements =>
    obtain ⟨found, rfl, sizes, all⟩ := members
    refine ⟨found ++ [⟨t, q.out, node⟩], by simp, ?_, ?_⟩
    · rw [List.map_append, sizes_append]
      refine ⟨sizes, ?_, trivial⟩
      have place : base + 1 + (found.map (Found.element (base + 1))).length = q.temp := by
        simp [top, Container.top, Container.width, Container.length]
      rw [place]
      exact element
    · simp only [List.forall_mem_append, List.forall_mem_singleton]
      exact ⟨all, grows.holds holds⟩
  | object fields =>
    obtain ⟨found, rfl, sizes, bounds, all⟩ := members
    obtain ⟨start, stop, span, inside, content⟩ := grows.key (ready.key rfl) (by
      rw [top]
      exact le_rfl)
    refine ⟨found ++
      [{ type := t, place := q.out, node := node, keyStart := start, keyEnd := stop }],
      ?_, ?_, ?_, ?_⟩
    · rw [List.map_append, List.map_singleton, FoundField.field, FoundField.key, content]
    · rw [List.flatMap_append, sizes_append, length_sizes]
      have place : (Container.object (found.map
          (FoundField.field (q.withElement base t).memory.seen))).top base =
            base + 1 + 3 * found.length := by
        simp [Container.top, Container.width, Container.length]
      rw [place] at top span
      have last : q.temp = base + 1 + 3 * found.length + 1 + 1 := top
      exact ⟨sizes, span.1, span.2.1, last ▸ element, trivial⟩
    · simp only [List.forall_mem_append, List.forall_mem_singleton]
      exact ⟨bounds, inside⟩
    · simp only [List.forall_mem_append, List.forall_mem_singleton]
      exact ⟨all, grows.holds holds⟩

/-- The element of a value that is finished goes to the structure. -/
theorem pushElement_agrees {s : Structure} (kind : s.structureType = c.kind)
    (top : q.temp = c.top s.base + (c.width - 1)) (inside : q.p ≤ q.text.length)
    (bound : q.out ≤ q.text.length) (room : q.temp < q.text.length)
    (small : q.text.length < 2 ^ 61)
    (ready : q.p < q.text.length → Ready q s.base c above key ∧ q.memory.Holds ⟨t, q.out, node⟩) :
    ∃ s', s.pushElement (t, q) = .ok (.again s') ∧
      Simulates s' ⟨c.push key node, above, q.rest⟩ := by
  refine ⟨{ s with parser := q.withElement s.base t }, ?_, ?_⟩
  · rw [Structure.pushElement, Parser.store_ok room]
    rfl
  · refine ⟨small, kind.trans (c.kind_push key node).symm, rfl, inside, ?_,
      fun open_text => ?_, bound,
      fun open_text => ?_, fun open_text => ?_⟩
    · rw [Container.top_push, ← top]
      rfl
    · obtain ⟨ready, -⟩ := ready open_text
      have used := ready.used
      simp only [Container.length_push, Nat.succ_ne_zero, if_false, Parser.withElement]
      omega
    · obtain ⟨ready, holds⟩ := ready open_text
      have used := ready.used
      have before : q.p < q.text.length := open_text
      exact ready.members_push (by omega) small holds
    · obtain ⟨ready, holds⟩ := ready open_text
      have used := ready.used
      have before : q.p < q.text.length := open_text
      have above_base : s.base < q.temp := by
        rw [top, Container.top]
        omega
      rw [Container.kind_push]
      exact (withElement_grows (by omega)).stacked ready.stacked above_base

end Push

section Structures

variable {s : Structure} {c : Container} {above : List Hole} {key rest : List UInt8} {d : UInt8}

theorem push_agrees {new : Container} (none : new = .array [] ∨ new = .object [])
    (kind : s.structureType = c.kind) (ready : Ready s.parser s.base c above key)
    (text : s.parser.rest = d :: rest) (small : s.parser.text.length < 2 ^ 61) :
    ∃ s', s.push new.kind = .ok (.again s') ∧ Simulates s' ⟨new, ⟨c, key⟩ :: above, rest⟩ := by
  obtain ⟨before, -, tail, -⟩ := Parser.rest_cons text
  have used := ready.used
  have top := ready.top
  have bound := ready.bound
  have above_base : s.base < s.parser.temp := by
    rw [top, Container.top]
    omega
  have length : new.length = 0 := by
    rcases none with rfl | rfl <;> rfl
  let q : Parser := { s.parser with
    p := s.parser.p + 1
    words := Function.update s.parser.words s.parser.temp
      (some (.size (makeElement c.kind (.ofNat s.base))))
    temp := s.parser.temp + 1 }
  refine ⟨⟨q, new.kind, s.parser.temp⟩, ?_, small, rfl, tail.symm, before, ?_, fun _ => ?_, bound,
    fun _ => ?_, fun open_text => ?_⟩
  · rw [Structure.push, Parser.store_ok (by simp only; omega), kind]
    rfl
  · rw [Container.top, length]
    rfl
  · rw [if_pos length]
    simp only [q]
    omega
  · rcases none with rfl | rfl
    · exact ⟨[], rfl, trivial, fun x member => absurd member List.not_mem_nil⟩
    · exact ⟨[], rfl, trivial, fun x member => absurd member List.not_mem_nil,
        fun x member => absurd member List.not_mem_nil⟩
  · have further : s.parser.p + 1 < s.parser.text.length := open_text
    have grows : s.parser.memory.Grows s.parser.temp q.memory := by
      refine ⟨List.take_prefix_take_left (Nat.le_succ _), fun i other => ?_, le_rfl, rfl⟩
      have lo : s.parser.memory.lo = s.parser.out := rfl
      exact Function.update_of_ne (by omega) _ _
    have below : c.top s.base ≤ s.parser.temp := by omega
    refine ⟨s.base, top, Function.update_self .., grows.members ready.members below,
      fun object => grows.key (ready.key object) ?_, grows.stacked ready.stacked above_base⟩
    rw [top]
    cases c with
    | array elements => cases object
    | object fields => exact le_rfl

/-- The words of a document that was accepted hold the node. -/
def Document.Represents (d : Document) (node : Node) : Prop :=
  d.text.length < 2 ^ 61 ∧ Reads d.text d.words d.root d.text.length d.rootType d.root node

/-- What a call gives that goes on or ends. -/
def Steps (x : Except Fail Turn) (y : Except Stop Reader.Turn) : Prop :=
  Agrees (fun turn next => match turn, next with
    | .again s, .again r => Simulates s r
    | .done d, .done node => d.Represents node
    | _, _ => False) x y

theorem rootMarker_toNat : rootMarker.toNat = 2 ^ 61 - 1 := valueMask_toNat

theorem finish_agrees {q : Parser} {t : ValueType} {node : Node} (inside : q.p ≤ q.text.length)
    (small : q.text.length < 2 ^ 61)
    (holds : Reads (q.text.take q.p) q.words q.out q.text.length t q.out node) :
    Steps (Structure.finish t q)
      (if (skipBlanks q.rest).headD 0 = 0 then .ok (.done node) else .error .rejected) := by
  rw [Structure.finish, Parser.peekStructure_eq inside]
  simp only
  split
  · exact .ok ⟨small, holds.frame (List.take_prefix _ _) (fun _ _ => rfl) le_rfl⟩
  · exact .error _ _

/-- What a structure holds is moved to the finished words. -/
theorem install_eq {q : Parser} {base : Nat} {t : ValueType} (sort : StdSort) (kind : t = c.kind)
    (top : q.temp = c.top base ∨ c.kind = .OBJECT ∧ c.length = 0 ∧ q.temp = base + 3)
    (room : c.top base ≤ q.out) (bound : q.out ≤ q.text.length) (small : q.text.length < 2 ^ 61)
    (members : q.memory.Members base c) :
    ∃ words temp out, (if t = .ARRAY then q.installArray (base + 1)
        else q.installObject sort (base + 1)) =
          .ok (c.kind, { q with words := words, temp := temp, out := out }) ∧
      c.top base + out = base + q.out ∧
      Reads (q.text.take q.p) words out q.text.length c.kind out c.node ∧
      ∀ i, i < base ∨ q.out ≤ i → words i = q.words i := by
  cases c with
  | array elements =>
    have exact_top : q.temp = base + 1 + elements.length := by
      rcases top with exact_top | ⟨object, -⟩
      · simpa [Container.top, Container.width, Container.length] using exact_top
      · cases object
    simp only [Container.top, Container.width, Container.length] at room ⊢
    obtain ⟨words, run, reads, same⟩ :=
      installArray_eq members exact_top (by omega) bound small
    exact ⟨words, _, _, (if_pos kind).trans run, by omega, reads, same⟩
  | object fields =>
    have either : q.temp = base + 1 + 3 * fields.length ∨ fields = [] ∧ q.temp = base + 3 := by
      rcases top with exact_top | ⟨-, none, dangling⟩
      · exact .inl (by simpa [Container.top, Container.width, Container.length] using exact_top)
      · exact .inr ⟨List.length_eq_zero_iff.mp none, dangling⟩
    simp only [Container.top, Container.width, Container.length] at room ⊢
    obtain ⟨words, temp, run, reads, same⟩ :=
      installObject_eq sort members either (by omega) bound small
    refine ⟨words, temp, _, (if_neg ?_).trans run, by omega, reads, same⟩
    rw [kind]
    exact ValueType.noConfusion

theorem loadSize_eq {q : Parser} {i : Nat} {e : UInt64} (word : q.words i = some (.size e)) :
    q.loadSize i = .ok e := by
  rw [Parser.loadSize, word]

/-- A structure is closed. -/
theorem pop_agrees {hadComma : Bool} (sort : StdSort) (kind : s.structureType = c.kind)
    (text : s.parser.rest = d :: rest)
    (top : hadComma = false → s.parser.temp = c.top s.base ∨
      c.kind = .OBJECT ∧ c.length = 0 ∧ s.parser.temp = s.base + 3)
    (used : c.top s.base + (s.parser.text.length - s.parser.out) ≤ s.parser.p + 1)
    (bound : s.parser.out ≤ s.parser.text.length) (small : s.parser.text.length < 2 ^ 61)
    (members : s.parser.memory.Members s.base c)
    (stacked : s.parser.memory.Stacked above s.base c.kind) :
    Steps (s.pop sort hadComma) (Reader.close hadComma c above rest) := by
  obtain ⟨before, -, tail, -⟩ := Parser.rest_cons text
  unfold Structure.pop Reader.close
  split
  · exact .error _ _
  rename_i noComma
  have grows : s.parser.memory.Grows (c.top s.base) { s.parser with p := s.parser.p + 1 }.memory :=
    grows_forward _ rfl rfl rfl (Nat.le_succ _)
  have base_top := c.lt_top s.base
  obtain ⟨words, temp, out, run, moved, reads, same⟩ := install_eq
    (q := { s.parser with p := s.parser.p + 1 }) sort kind (top (by simpa using noComma))
    (by simp only; omega) bound small (grows.members members le_rfl)
  dsimp only at run moved reads same ⊢
  cases above with
  | nil =>
    obtain ⟨root, marker⟩ := stacked
    have value : getElementValue (makeElement c.kind rootMarker) = rootMarker :=
      getElementValue_makeElement (by rw [rootMarker_toNat]; omega)
    rw [loadSize_eq (root ▸ marker)]
    dsimp only
    rw [run]
    simp only [value, if_true]
    rw [tail]
    exact finish_agrees before small reads
  | cons hole above =>
    obtain ⟨parent, place, marker, outer, key, further⟩ := stacked
    have parent_top : parent < hole.container.top parent := by
      rw [Container.top]
      omega
    have number : (UInt64.ofNat parent).toNat = parent := ofNat_toNat (by omega)
    have value :
        getElementValue (makeElement hole.container.kind (.ofNat parent)) = .ofNat parent :=
      getElementValue_makeElement (by omega)
    have type : getElementType (makeElement hole.container.kind (.ofNat parent)) =
        hole.container.kind := getElementType_makeElement (by omega)
    have inner : UInt64.ofNat parent ≠ rootMarker := by
      intro same
      have := congrArg UInt64.toNat same
      rw [number, rootMarker_toNat] at this
      omega
    rw [loadSize_eq (q := { s.parser with p := s.parser.p + 1 }) marker]
    dsimp only
    rw [run]
    simp only [value, type, number, if_neg inner]
    let q : Parser := { s.parser with
      p := s.parser.p + 1, words := words, temp := s.base, out := out }
    have grown : s.parser.memory.Grows s.base q.memory := by
      refine ⟨List.take_prefix_take_left (Nat.le_succ _), same, ?_, rfl⟩
      show out ≤ s.parser.out
      omega
    have outer_top : hole.container.top parent ≤ s.base := by omega
    have outer_base : parent < s.base := by omega
    have key_top : hole.container.kind = .OBJECT → hole.container.top parent + 2 ≤ s.base := by
      intro object
      have width := Container.width_of_kind object
      omega
    obtain ⟨s', pushed, simulates⟩ := @pushElement_agrees q hole.container above hole.key c.kind
      c.node ⟨{ q with temp := temp }, hole.container.kind, parent⟩ rfl place before
      (by simp only [q]; omega) (by simp only [q]; omega) small
      fun _ => ⟨⟨place, by simp only [q]; omega, by simp only [q]; omega,
        grown.members outer outer_top, grown.stacked further outer_base, fun object =>
        grown.key (key object) (key_top object)⟩, reads⟩
    rw [show Structure.pushElement _ _ = _ from pushed]
    exact .ok (tail ▸ simulates)

theorem finished_steps {x : Parsed ValueType} {y : Scan Node} (kind : s.structureType = c.kind)
    (ready : Ready s.parser s.base c above key) (before : s.parser.p < s.parser.text.length)
    (small : s.parser.text.length < 2 ^ 61) (finished : Agrees (Finished s.parser) x y) :
    Steps (x.bind s.pushElement)
      (y.map fun (value, behind) => .again ⟨c.push key value, above, behind⟩) := by
  cases finished with
  | rejected => exact .rejected ..
  | undefined => exact .undefined
  | @ok x y done =>
    obtain ⟨t, q⟩ := x
    obtain ⟨value, behind⟩ := y
    obtain ⟨rest, length, inside, temp, bound, used, grows, holds⟩ := done
    simp only at rest length inside temp bound used grows holds
    have room := ready.used
    obtain ⟨s', pushed, simulates⟩ := @pushElement_agrees q c above key t value s kind
      (temp.trans ready.top) (by omega) (by omega) (by omega)
      (by omega) fun _ => ⟨ready.grows grows temp (by omega) (by omega), holds⟩
    show Steps (s.pushElement (t, q)) _
    rw [pushed]
    exact .ok (rest ▸ simulates)

theorem switch_agrees {hadComma : Bool} (sort : StdSort) (kind : s.structureType = c.kind)
    (text : s.parser.rest = d :: rest) (small : s.parser.text.length < 2 ^ 61)
    (ready : d ≠ c.closing → Ready s.parser s.base c above key)
    (top : hadComma = false → s.parser.temp = c.top s.base ∨
      c.kind = .OBJECT ∧ c.length = 0 ∧ s.parser.temp = s.base + 3)
    (used : c.top s.base + (s.parser.text.length - s.parser.out) ≤ s.parser.p + 1)
    (bound : s.parser.out ≤ s.parser.text.length)
    (members : s.parser.memory.Members s.base c)
    (stacked : s.parser.memory.Stacked above s.base c.kind) (old : List UInt8) :
    Steps (s.switch sort hadComma d) (Reader.element ⟨c, above, old⟩ hadComma key (d :: rest)) := by
  have before := (Parser.rest_cons text).1
  have close := pop_agrees sort kind text top used bound small members stacked
  by_cases closing : d = c.closing
  · subst closing
    cases c with
    | array elements => simpa [Structure.switch, Reader.element, Container.closing, kind,
        Container.kind, isdigit, quote] using close
    | object fields => simpa [Structure.switch, Reader.element, Container.closing, kind,
        Container.kind, isdigit, quote] using close
  replace ready := ready closing
  have finished {x : Parsed ValueType} {y : Scan Node} (done : Agrees (Finished s.parser) x y) :=
    finished_steps kind ready before small done
  by_cases bracket : d = 91
  · subst bracket
    obtain ⟨s', pushed, simulates⟩ := @push_agrees s _ _ _ _ _ (.array []) (.inl rfl) kind ready
      text small
    have run : s.switch sort hadComma 91 = .ok (.again s') := by
      simpa [Structure.switch, isdigit, quote, Container.kind] using pushed
    rw [run]
    exact .ok simulates
  by_cases brace : d = 123
  · subst brace
    obtain ⟨s', pushed, simulates⟩ := @push_agrees s _ _ _ _ _ (.object []) (.inr rfl) kind ready
      text small
    have run : s.switch sort hadComma 123 = .ok (.again s') := by
      simpa [Structure.switch, isdigit, quote, Container.kind] using pushed
    rw [run]
    exact .ok simulates
  by_cases wrong : d = 93 ∨ d = 125
  · have rejected : Reader.element ⟨c, above, old⟩ hadComma key (d :: rest) = .error .rejected := by
      rw [Reader.element, if_neg bracket, if_neg brace, if_pos wrong, if_neg closing]
    rw [rejected]
    cases c with
    | array elements =>
      obtain rfl : d = 125 := wrong.resolve_left closing
      have run : s.switch sort hadComma 125 = .error (s.parser.error "expected ]") := by
        simp [Structure.switch, kind, Container.kind, isdigit, quote]
      rw [run]
      exact .error _ _
    | object fields =>
      obtain rfl : d = 93 := wrong.resolve_right closing
      have run : s.switch sort hadComma 93 = .error (s.parser.error "expected \x7d") := by
        simp [Structure.switch, kind, Container.kind, isdigit, quote]
      rw [run]
      exact .error _ _
  have scalar : Reader.element ⟨c, above, old⟩ hadComma key (d :: rest) =
      (scanScalar (d :: rest)).map fun (value, behind) =>
        .again ⟨c.push key value, above, behind⟩ := by
    rw [Reader.element, if_neg bracket, if_neg brace, if_neg wrong]
  rw [scalar, Structure.switch, scanScalar]
  by_cases null : d = 110
  · subst null
    exact finished (parseLiteral_agrees ready text fun m place inside => .null inside)
  by_cases other : d = 102
  · subst other
    exact finished (parseLiteral_agrees ready text fun m place inside => .falseValue inside)
  by_cases one : d = 116
  · subst one
    exact finished (parseLiteral_agrees ready text fun m place inside => .trueValue inside)
  simp only [if_neg null, if_neg other, if_neg one]
  by_cases first : isdigit d ∨ d = 45
  · have some : d ≠ 0 := by
      rintro rfl
      simp [isdigit] at first
    rw [if_neg some, if_pos first, if_pos first]
    exact finished (parseNumber_agrees ready text first)
  rw [if_neg first, if_neg first]
  by_cases quoted : d = quote
  · subst quoted
    exact finished (parseStringValue_agrees ready text small)
  rw [if_neg quoted, if_neg quoted, if_neg bracket, if_neg brace, if_neg fun h => wrong (.inl h),
    if_neg fun h => wrong (.inr h)]
  split
  · exact .error _ _
  split <;> exact .error _ _

end Structures

theorem tail_shorter {c : UInt8} {rest : List UInt8} (head : rest.headD 0 = c) (some : c ≠ 0) :
    rest.tail.length < rest.length := by
  cases rest with
  | nil => exact absurd head.symm some
  | cons c rest => exact Nat.lt_succ_self _

/-- A comma was read in front of every element but the first; without it, the structure ends. -/
theorem scanComma_ok {c : Container} {rest behind : List UInt8} {hadComma : Bool}
    (h : Reader.scanComma c rest = .ok (hadComma, behind)) :
    c.length = 0 ∧ hadComma = false ∧ behind = rest ∨
      c.length ≠ 0 ∧ hadComma = true ∧ behind.length < rest.length ∨
      c.length ≠ 0 ∧ hadComma = false ∧ behind = rest ∧ rest.headD 0 = c.closing := by
  unfold Reader.scanComma at h
  split at h
  · rename_i first
    split at h
    · cases h
    · cases h
      exact .inl ⟨first, rfl, rfl⟩
  · rename_i first
    split at h
    · rename_i comma
      cases h
      exact .inr (.inl ⟨first, rfl, (skipBlanks_suffix _).length_le.trans_lt
        (tail_shorter comma (by decide))⟩)
    · split at h
      · cases h
      · rename_i closing
        cases h
        exact .inr (.inr ⟨first, rfl, rfl, not_not.mp closing⟩)

theorem skipBlanks_of_head {rest : List UInt8} {d : UInt8} (head : rest.headD 0 = d)
    (plain : isBlank d = false) : skipBlanks rest = rest := by
  cases rest with
  | nil => rfl
  | cons c rest =>
    rw [List.headD_cons] at head
    subst head
    rw [skipBlanks, List.dropWhile_cons_of_neg (by simp [plain])]

theorem closing_plain (c : Container) : isBlank c.closing = false ∧ c.closing ≠ 0 := by
  cases c <;> exact ⟨rfl, by simp [Container.closing]⟩

section Turns

variable {s : Structure} {c : Container} {above : List Hole} {behind : List UInt8}
  {hadComma : Bool}

/-- What follows the comma: a key, if the structure is an object, and the value. -/
def Structure.afterComma (sort : StdSort) (s : Structure) (hadComma : Bool) (d : UInt8) :
    Except Fail Turn :=
  match Structure.readKey s.structureType d s.parser with
  | .error fail => .error fail
  | .ok p => switch sort { s with parser := p.peekStructure.2 } hadComma p.peekStructure.1

def Reader.afterComma (r : Reader) (hadComma : Bool) : Except Stop Reader.Turn :=
  match scanKey r.current r.rest with
  | .error stop => .error stop
  | .ok (key, rest) => r.element hadComma key (skipBlanks rest)

theorem Structure.turn_of_comma {d : UInt8} {p : Parser} (sort : StdSort)
    (h : s.readComma = .ok (hadComma, d, p)) :
    s.turn sort = Structure.afterComma sort { s with parser := p } hadComma d := by
  rw [Structure.turn, h]
  rfl

theorem Structure.turn_of_fail {fail : Fail} (sort : StdSort) (h : s.readComma = .error fail) :
    s.turn sort = .error fail := by
  rw [Structure.turn, h]

theorem Reader.turn_of_comma {rest : List UInt8}
    (h : Reader.scanComma c (skipBlanks rest) = .ok (hadComma, behind)) :
    Reader.turn ⟨c, above, rest⟩ = Reader.afterComma ⟨c, above, behind⟩ hadComma := by
  rw [Reader.turn, h]
  rfl

theorem Reader.turn_of_stop {rest : List UInt8} {stop : Stop}
    (h : Reader.scanComma c (skipBlanks rest) = .error stop) :
    Reader.turn ⟨c, above, rest⟩ = .error stop := by
  rw [Reader.turn, h]

theorem afterComma_at_end (sort : StdSort) (kind : s.structureType = c.kind)
    (inside : s.parser.p ≤ s.parser.text.length) (text : s.parser.rest = []) :
    Steps (s.afterComma sort hadComma 0) (Reader.afterComma ⟨c, above, []⟩ hadComma) := by
  rw [Structure.afterComma, Reader.afterComma, Structure.readKey, Reader.scanKey, kind]
  cases c with
  | array elements =>
    simp only [Container.kind, reduceCtorEq, false_and, if_false]
    rw [Parser.peekStructure_eq inside, text]
    exact .error _ _
  | object fields => exact .error _ _

theorem afterComma_agrees (sort : StdSort) (kind : s.structureType = c.kind)
    (inside : s.parser.p ≤ s.parser.text.length) (small : s.parser.text.length < 2 ^ 61)
    (top : s.parser.temp = c.top s.base)
    (used : s.parser.temp + (s.parser.text.length - s.parser.out) ≤ s.parser.p + 1)
    (room : hadComma = true ∨ c.length = 0 →
      s.parser.temp + (s.parser.text.length - s.parser.out) ≤ s.parser.p)
    (first : (hadComma = true ∨ c.length = 0) ∨ s.parser.rest.headD 0 = c.closing)
    (bound : s.parser.out ≤ s.parser.text.length)
    (members : s.parser.memory.Members s.base c)
    (stacked : s.parser.memory.Stacked above s.base c.kind) :
    Steps (s.afterComma sort hadComma (s.parser.rest.headD 0))
      (Reader.afterComma ⟨c, above, s.parser.rest⟩ hadComma) := by
  have started : c.kind = .OBJECT ∧ s.parser.rest.headD 0 ≠ 125 → hadComma = true ∨ c.length = 0 :=
    fun keyed => first.resolve_right fun closed =>
      keyed.2 (closed.trans (Container.closing_of_kind keyed.1))
  have keyed := @readKey_agrees _ s.base _ above top bound small
    (fun object => room (started object)) inside members stacked
  rw [Structure.afterComma, Reader.afterComma, kind]
  simp only
  cases read : Reader.scanKey c s.parser.rest with
  | error stop =>
    rw [read] at keyed
    obtain ⟨fail, same, failing⟩ := keyed.of_error
    rw [same]
    exact failing
  | ok found =>
    obtain ⟨key, behind⟩ := found
    rw [read] at keyed
    obtain ⟨q, same, after, within, length, ready⟩ := keyed.of_ok
    simp only at after ready
    rw [same]
    simp only
    rw [Parser.peekStructure_eq (by omega), after]
    have tail : skipBlanks behind <:+ q.text :=
      (skipBlanks_suffix _).trans (after ▸ q.rest_suffix)
    have text := Parser.rest_seek tail
    have further := (skipBlanks_suffix behind).length_le
    have place := q.rest_length
    rw [after] at place
    have base_top := c.lt_top s.base
    cases value : skipBlanks behind with
    | nil => exact .error _ _
    | cons d rest =>
      rw [value] at text further
      have forward : q.p ≤ (q.seek (d :: rest)).p := by
        rw [Parser.seek]
        simp only
        omega
      have grows : ∀ top, q.memory.Grows top (q.seek (d :: rest)).memory := fun top =>
        grows_forward top rfl rfl rfl forward
      by_cases keys : c.kind = .OBJECT ∧ s.parser.rest.headD 0 ≠ 125
      · rw [if_pos keys] at ready
        have ready' : Ready (q.seek (d :: rest)) s.base c above key :=
          ready.grows (grows _) rfl ready.bound (ready.used.trans forward)
        have object : c.width = 3 ∧ c.closing = 125 :=
          ⟨Container.width_of_kind keys.1, Container.closing_of_kind keys.1⟩
        have dangling := ready.top
        have need := ready'.used
        refine switch_agrees (s := ⟨q.seek (d :: rest), c.kind, s.base⟩) sort rfl text
          (by simp only [Parser.seek_text]; omega) (fun _ => ready')
          (fun no => .inr ⟨keys.1, ?_, ?_⟩)
          ?_ ready.bound ready'.members ready'.stacked _
        · exact (started keys).resolve_left (by simp [no])
        · have none : c.length = 0 := (started keys).resolve_left (by simp [no])
          rw [Container.top, none] at dangling
          show q.temp = s.base + 3
          omega
        · simp only
          have counted : (q.seek (d :: rest)).temp = q.temp := rfl
          omega
      · rw [if_neg keys] at ready
        obtain ⟨rfl, rfl⟩ := ready
        refine switch_agrees (s := ⟨s.parser.seek (d :: rest), c.kind, s.base⟩) sort rfl text small
          (fun open_value => ?_) (fun _ => .inl top) ?_ bound ((grows _).members members le_rfl)
          ((grows _).stacked stacked base_top) _
        · subst after
          have head : s.parser.rest.headD 0 ≠ c.closing := by
            intro closed
            rw [skipBlanks_of_head closed (closing_plain c).1] at value
            rw [value, List.headD_cons] at closed
            exact open_value closed
          have need := room (first.resolve_right head)
          cases c with
          | array elements =>
            exact ⟨top, need.trans forward, bound, (grows _).members members le_rfl,
              (grows _).stacked stacked base_top, fun object => by cases object⟩
          | object fields => exact absurd ⟨rfl, head⟩ keys
        · rw [← top]
          exact used.trans (Nat.succ_le_succ forward)

/-- One turn of the parser is one of the reader. -/
theorem turn_agrees {r : Reader} (sort : StdSort) (h : Simulates s r) :
    Steps (s.turn sort) r.turn := by
  obtain ⟨c, above, rest⟩ := r
  obtain ⟨small, kind, same, inside, top, used, bound, members, stacked⟩ := h
  simp only at kind same top used members stacked
  subst same
  have base_top := c.lt_top s.base
  have first : s.parser.temp = s.base + 1 ↔ c.length = 0 := by
    have positive := c.width_pos
    rw [top, Container.top]
    simp [positive.ne']
  have comma := readComma_agrees inside kind first
  cases read : Reader.scanComma c (skipBlanks s.parser.rest) with
  | error stop =>
    rw [read] at comma
    obtain ⟨fail, same, failing⟩ := comma.of_error
    rw [Structure.turn_of_fail sort same, Reader.turn_of_stop read]
    exact failing
  | ok found =>
    obtain ⟨hadComma, behind⟩ := found
    rw [read] at comma
    obtain ⟨_, same, rfl⟩ := comma.of_ok
    rw [Structure.turn_of_comma sort same, Reader.turn_of_comma read]
    have tail := ((Reader.scanComma_suffix read).trans (skipBlanks_suffix _)).trans
      s.parser.rest_suffix
    have text := Parser.rest_seek tail
    have facts := scanComma_ok read
    have blanks := (skipBlanks_suffix s.parser.rest).length_le
    have further := (Reader.scanComma_suffix read).length_le
    have place := s.parser.rest_length
    by_cases open_text : s.parser.p < s.parser.text.length
    · have grows := grows_forward (s := s.parser) (q := s.parser.seek behind) (c.top s.base)
        rfl rfl rfl
        (by simp only [Parser.seek]; omega)
      have use := used open_text
      have after := @afterComma_agrees ⟨s.parser.seek behind, s.structureType, s.base⟩ c above
        hadComma sort kind (Parser.seek_inside _ _) small top
        (by simp only [Parser.seek]; split at use <;> omega) ?_ ?_ bound
        (grows.members (members open_text) le_rfl) (grows.stacked (stacked open_text) base_top)
      · simpa only [text] using after
      · intro started
        simp only [Parser.seek]
        rcases facts with ⟨first, -, -⟩ | ⟨-, -, shorter⟩ | ⟨first, none, -⟩
        · rw [if_pos first] at use
          omega
        · split at use <;> omega
        · exact absurd started (by simp [first, none])
      · simp only [text]
        rcases facts with ⟨first, -, -⟩ | ⟨-, comma, -⟩ | ⟨-, -, rfl, closed⟩
        · exact .inl (.inr first)
        · exact .inl (.inl comma)
        · exact .inr closed
    · have empty : s.parser.rest = [] := List.length_eq_zero_iff.mp (by omega)
      have none : behind = [] := List.length_eq_zero_iff.mp (by
        rw [empty] at further
        exact Nat.le_zero.mp further)
      subst none
      exact afterComma_at_end (s := ⟨s.parser.seek [], s.structureType, s.base⟩) sort kind
        (Parser.seek_inside _ _) text

end Turns

/-- The whole loop: a text that is not accepted is one the reader does not accept, and what is
stored for any other is what the reader builds. -/
theorem loop_agrees {fuel : Nat} {s : Structure} {r : Reader} (sort : StdSort)
    (h : Simulates s r) (enough : r.rest.length < fuel) :
    Agrees Document.Represents (Structure.loop sort fuel s) r.loop := by
  induction fuel generalizing s r with
  | zero => omega
  | succ fuel ih =>
    have turn := turn_agrees sort h
    rw [Structure.loop, Reader.loop_eq]
    cases read : r.turn with
    | error stop =>
      rw [read] at turn
      obtain ⟨fail, same, failing⟩ := turn.of_error
      rw [same]
      exact failing
    | ok next =>
      rw [read] at turn
      obtain ⟨t, same, related⟩ := turn.of_ok
      rw [same]
      cases t with
      | done d =>
        cases next with
        | done node => exact .ok related
        | again r => exact related.elim
      | again s =>
        cases next with
        | done node => exact related.elim
        | again r =>
          have shorter := Reader.turn_shorter read
          exact ih related (by omega)

theorem open_simulates {q : Parser} {new : Container} {d : UInt8} {rest : List UInt8}
    (none : new = .array [] ∨ new = .object []) (text : q.rest = d :: rest)
    (small : q.text.length < 2 ^ 61) (temp : q.temp = 0) (out : q.out = q.text.length) :
    Simulates ⟨{ q with
      p := q.p + 1
      words := Function.update q.words q.temp (some (.size (makeElement new.kind rootMarker)))
      temp := q.temp + 1 }, new.kind, q.temp⟩ ⟨new, [], rest⟩ := by
  obtain ⟨before, -, tail, -⟩ := Parser.rest_cons text
  have length : new.length = 0 := by
    rcases none with rfl | rfl <;> rfl
  refine ⟨small, rfl, tail.symm, before, ?_, fun _ => ?_, out.le, fun _ => ?_, fun _ => ⟨temp, ?_⟩⟩
  · rw [Container.top, length]
    rfl
  · rw [if_pos length]
    simp only [temp, out]
    omega
  · rcases none with rfl | rfl
    · exact ⟨[], rfl, trivial, fun x member => absurd member List.not_mem_nil⟩
    · exact ⟨[], rfl, trivial, fun x member => absurd member List.not_mem_nil,
        fun x member => absurd member List.not_mem_nil⟩
  · show Function.update q.words q.temp _ 0 = _
    rw [temp, Function.update_self]

/-- The parser accepts what the reader accepts, and the words of the document hold the node that
the reader builds. The array of words for a longer text could not be allocated. -/
theorem parse_refines (sort : StdSort) (text : List UInt8) (small : text.length < 2 ^ 61) :
    Agrees Document.Represents (parse sort text) (readText text) := by
  have peek := Parser.peekStructure_eq (s := Parser.new text) (Nat.zero_le _)
  have tail := skipBlanks_suffix text
  have rest : ((Parser.new text).seek (skipBlanks text)).rest = skipBlanks text :=
    Parser.rest_seek (s := Parser.new text) tail
  rw [show (Parser.new text).rest = text from rfl] at peek
  rw [parse, peek, readText]
  obtain ⟨q, same⟩ : ∃ q, (Parser.new text).seek (skipBlanks text) = q := ⟨_, rfl⟩
  have length : q.text.length = text.length := same ▸ rfl
  have temp : q.temp = 0 := same ▸ rfl
  have out : q.out = q.text.length := same ▸ rfl
  rw [same] at rest ⊢
  simp only
  cases found : skipBlanks text with
  | nil => exact .error _ _
  | cons c behind =>
    rw [found] at rest tail
    have shorter := tail.length_le
    rw [List.length_cons] at shorter
    have opened {new : Container} (none : new = .array [] ∨ new = .object []) :=
      @loop_agrees (text.length + 1) _ _ sort
        (open_simulates none rest (by omega) temp out) (by simp only; omega)
    simp only [List.headD_cons]
    rw [Parser.store_ok (by simp only; omega)]
    by_cases bracket : c = 91
    · subst bracket
      have some : (91 : UInt8) ≠ 0 := by decide
      simp only [some, true_or, if_true, if_false]
      simpa only [Container.kind] using opened (.inl rfl)
    by_cases brace : c = 123
    · subst brace
      have some : (123 : UInt8) ≠ 0 := by decide
      simp only [some, bracket, or_true, if_true, if_false]
      simpa only [Container.kind] using opened (.inr rfl)
    simp only [bracket, brace, or_self, if_false]
    split <;> exact .error _ _

end CppMyth.Sajson
