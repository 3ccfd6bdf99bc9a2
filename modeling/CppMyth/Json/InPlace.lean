import CppMyth.Json.Reader

/-! The strings, which are decoded in the text itself: what is written never reaches what is
still to be read. -/
namespace CppMyth.Sajson

/-- The parser fails as the reader does, and their results are related. -/
inductive Agrees {α β : Type} (R : α → β → Prop) : Except Fail α → Except Stop β → Prop where
  | ok {a : α} {b : β} (h : R a b) : Agrees R (.ok a) (.ok b)
  | rejected (line column : Nat) (message : String) :
      Agrees R (.error (.error line column message)) (.error .rejected)
  | undefined : Agrees R (.error .undefined) (.error .undefined)

namespace Agrees

variable {α β γ δ : Type} {R : α → β → Prop} {Q : γ → δ → Prop} {x : Except Fail α}
  {y : Except Stop β}

theorem mono {R' : α → β → Prop} (h : Agrees R x y) (weaker : ∀ a b, R a b → R' a b) :
    Agrees R' x y := by
  cases h with
  | ok h => exact .ok (weaker _ _ h)
  | rejected => exact .rejected ..
  | undefined => exact .undefined

theorem of_ok {b : β} (h : Agrees R x (.ok b)) : ∃ a, x = .ok a ∧ R a b := by
  cases h with
  | ok h => exact ⟨_, rfl, h⟩

theorem of_error {stop : Stop} (h : Agrees R x (.error stop)) :
    ∃ fail, x = .error fail ∧ Agrees Q (.error fail) (.error stop) := by
  cases h with
  | rejected => exact ⟨_, rfl, .rejected ..⟩
  | undefined => exact ⟨_, rfl, .undefined⟩

theorem map {f : α → γ} {g : β → δ} (h : Agrees R x y) (maps : ∀ a b, R a b → Q (f a) (g b)) :
    Agrees Q (x.map f) (y.map g) := by
  cases h with
  | ok h => exact .ok (maps _ _ h)
  | rejected => exact .rejected ..
  | undefined => exact .undefined

theorem map_right {g : β → δ} {Q : α → δ → Prop} (h : Agrees (fun a b => Q a (g b)) x y) :
    Agrees Q x (y.map g) := by
  cases h with
  | ok h => exact .ok h
  | rejected => exact .rejected ..
  | undefined => exact .undefined

theorem error (s : Parser) (message : String) :
    Agrees R (.error (s.error message)) (.error .rejected) := .rejected ..

end Agrees

namespace Parser

/-- The parser where `behind` is still to be read. -/
def seek (s : Parser) (behind : List UInt8) : Parser :=
  { s with p := s.text.length - behind.length }

theorem seek_rest {s : Parser} (inside : s.p ≤ s.text.length) : s.seek s.rest = s := by
  have same : s.text.length - s.rest.length = s.p := by
    rw [rest, List.length_drop]
    omega
  rw [seek, same]

theorem rest_seek {s : Parser} {behind : List UInt8} (tail : behind <:+ s.text) :
    (s.seek behind).rest = behind := (List.suffix_iff_eq_drop.mp tail).symm

theorem rest_suffix (s : Parser) : s.rest <:+ s.text := List.drop_suffix _ _

theorem rest_length (s : Parser) : s.rest.length = s.text.length - s.p := List.length_drop

theorem rest_cons {s : Parser} {c : UInt8} {rest : List UInt8} (h : s.rest = c :: rest) :
    s.p < s.text.length ∧ s.text[s.p]? = some c ∧ rest = { s with p := s.p + 1 }.rest ∧
      { s with p := s.p + 1 } = s.seek rest := by
  have inside : s.p < s.text.length := by
    have length := s.rest_length
    rw [h, List.length_cons] at length
    omega
  obtain ⟨same, tail⟩ := List.cons_eq_cons.mp ((List.drop_eq_getElem_cons inside).symm.trans h)
  refine ⟨inside, by rw [List.getElem?_eq_getElem inside, same], tail.symm, ?_⟩
  have next : s.text.length - rest.length = s.p + 1 := by
    rw [← tail, List.length_drop]
    omega
  rw [seek, next]

theorem rest_nil {s : Parser} (h : s.rest = []) : s.text.length ≤ s.p := by
  have length := s.rest_length
  rw [h, List.length_nil] at length
  omega

end Parser

/-- Where the reader goes, the parser has its pointer. -/
def Moved {α : Type} (s : Parser) (x : α × Parser) (y : α × List UInt8) : Prop :=
  x = (y.1, s.seek y.2)

theorem scanHex_short {i : Nat} {v : UInt32} {rest : List UInt8} (short : rest.length < i) :
    scanHex i v rest = .error .rejected := by
  induction i generalizing v rest with
  | zero => omega
  | succ i ih =>
    cases rest with
    | nil => rfl
    | cons c rest =>
      rw [scanHex]
      split
      · rfl
      · exact ih (Nat.lt_of_succ_lt_succ short)

theorem readHex_agrees {i : Nat} {v : UInt32} {s : Parser} (inside : s.p ≤ s.text.length)
    (room : i ≤ s.rest.length) : Agrees (Moved s) (s.readHex i v) (scanHex i v s.rest) := by
  induction i generalizing v s with
  | zero => exact .ok (by rw [Moved, Parser.seek_rest inside])
  | succ i ih =>
    cases text : s.rest with
    | nil => simp [text] at room
    | cons c rest =>
      obtain ⟨before, char, tail, -⟩ := Parser.rest_cons text
      rw [Parser.readHex, char, scanHex]
      simp only
      cases hexDigit c with
      | none => exact .error _ _
      | some d =>
        rw [text, List.length_cons, tail] at room
        rw [tail]
        exact ih (s := { s with p := s.p + 1 }) before (Nat.le_of_succ_le_succ room)

theorem Parser.rest_skip (s : Parser) (n : Nat) : { s with p := s.p + n }.rest = s.rest.drop n := by
  rw [Parser.rest, Parser.rest, List.drop_drop]

theorem readTrail_agrees {u : UInt32} {s : Parser} (inside : s.p ≤ s.text.length) :
    Agrees (Moved s) (s.readTrail u) (scanTrail u s.rest) := by
  have length := s.rest_length
  rw [Parser.readTrail, scanTrail]
  split
  · split
    · exact .error _ _
    · rw [scanHex_short (by rw [List.length_drop]; omega)]
      exact .error _ _
  split
  · exact .error _ _
  have hex := readHex_agrees (i := 4) (v := 0) (s := { s with p := s.p + 2 })
    (by simp only; omega) (by rw [Parser.rest_skip, List.length_drop]; omega)
  rw [Parser.rest_skip] at hex
  cases read : scanHex 4 0 (s.rest.drop 2) with
  | error stop =>
    obtain ⟨fail, same, failing⟩ := (read ▸ hex).of_error
    rw [same]
    exact failing
  | ok found =>
    obtain ⟨_, same, rfl⟩ := (read ▸ hex).of_ok
    rw [same]
    simp only
    split
    · exact .error _ _
    · exact .ok rfl

theorem readUnicode_agrees {s : Parser} (inside : s.p ≤ s.text.length) :
    Agrees (Moved s) s.readUnicode (scanUnicode s.rest) := by
  have length := s.rest_length
  rw [Parser.readUnicode, scanUnicode]
  split
  · rw [scanHex_short (by omega)]
    exact .error _ _
  have hex := readHex_agrees (i := 4) (v := 0) inside (by omega)
  cases read : scanHex 4 0 s.rest with
  | error stop =>
    obtain ⟨fail, same, failing⟩ := (read ▸ hex).of_error
    rw [same]
    exact failing
  | ok found =>
    obtain ⟨_, same, rfl⟩ := (read ▸ hex).of_ok
    have tail := (scanHex_suffix read).1.trans s.rest_suffix
    rw [same]
    simp only
    split
    · have trail := readTrail_agrees (u := found.1) (s := s.seek found.2) (Nat.sub_le _ _)
      rw [Parser.rest_seek tail] at trail
      exact trail
    · exact .ok rfl

theorem readEscape_agrees (s : Parser) :
    Agrees (Moved s) s.readEscape (scanEscape s.rest) := by
  cases text : s.rest with
  | nil =>
    have none : s.text[s.p]? = none := List.getElem?_eq_none (Parser.rest_nil text)
    rw [Parser.readEscape, none]
    exact .error _ _
  | cons e rest =>
    obtain ⟨before, char, tail, next⟩ := Parser.rest_cons text
    rw [Parser.readEscape, char, scanEscape]
    simp only
    cases replacement e with
    | some r => exact .ok (by rw [Moved, next])
    | none =>
      simp only
      split
      · have unicode := readUnicode_agrees (s := { s with p := s.p + 1 }) before
        rw [← tail] at unicode
        apply unicode.map
        rintro _ y rfl
        rfl
      · exact .error _ _

section Written

variable {s : Parser} {front gap behind bytes : List UInt8} {c : UInt8}

theorem Parser.write_eq (text : s.text = front ++ (gap ++ behind))
    (room : bytes.length ≤ gap.length) :
    s.write front.length bytes =
      { s with text := front ++ (bytes ++ (gap.drop bytes.length ++ behind)) } := by
  induction bytes generalizing s front gap with
  | nil =>
    rw [Parser.write, List.length_nil, List.drop_zero, List.nil_append, ← text]
  | cons b bytes ih =>
    cases gap with
    | nil => simp at room
    | cons g gap =>
      have set : s.text.set front.length b = (front ++ [b]) ++ (gap ++ behind) := by
        rw [text, List.set_append_right _ _ le_rfl, Nat.sub_self, List.cons_append,
          List.set_cons_zero, List.append_assoc, List.singleton_append]
      have further := @ih { s with text := s.text.set front.length b } (front ++ [b]) gap set
        (Nat.le_of_succ_le_succ room)
      rw [List.length_append, List.length_singleton] at further
      rw [Parser.write, further]
      simp

theorem Parser.blank_eq (text : s.text = front ++ c :: behind) (place : s.p = front.length) :
    s.blank = { s with text := front ++ blanked c :: behind } := by
  have char : s.text.getD s.p 0x20 = c := by simp [text, place]
  rw [Parser.blank, char, blanked]
  split
  · rw [text, place, List.set_append_right _ _ le_rfl, Nat.sub_self, List.set_cons_zero]
  · rw [← text]

end Written

/-- The string was closed: its content lies behind `front`, and the words at `tag` say where. -/
def Closed (s : Parser) (tag : Nat) (front content : List UInt8) (behind : List UInt8)
    (x : ValueType × Parser) : Prop :=
  ∃ gap, (front ++ (content ++ (gap ++ behind))).length = s.text.length ∧
    x = (.STRING,
      { s with
        text := front ++ (content ++ (gap ++ behind))
        p := (front ++ (content ++ gap)).length
        words := Function.update (Function.update s.words tag (some (.size (.ofNat front.length))))
          (tag + 1) (some (.size (.ofNat (front ++ content).length))) })

theorem Parser.closeString_eq {s : Parser} {tag : Nat} (start stop : Nat)
    (room : tag + 1 < s.text.length) :
    s.closeString tag start stop = .ok (.STRING,
      { s with
        p := s.p + 1
        words := Function.update (Function.update s.words tag (some (.size (.ofNat start))))
          (tag + 1) (some (.size (.ofNat stop))) }) := by
  have first : tag < s.text.length := Nat.lt_of_succ_lt room
  simp [Parser.closeString, Parser.store, first, room, Except.map]

theorem Closed.same_memory {s t : Parser} {tag : Nat} {front content behind : List UInt8}
    {x : ValueType × Parser} (h : Closed t tag front content behind x)
    (length : t.text.length = s.text.length) (words : t.words = s.words) (temp : t.temp = s.temp)
    (out : t.out = s.out) : Closed s tag front content behind x := by
  obtain ⟨gap, same, rfl⟩ := h
  refine ⟨gap, same.trans length, ?_⟩
  rw [words, temp, out]

theorem blanked_eq_quote {c : UInt8} : blanked c = quote ↔ c = quote := by
  unfold blanked quote
  split
  · rename_i small
    constructor
    · intro h
      cases h
    · rintro rfl
      exact absurd small (by decide)
  · exact Iff.rfl

theorem blanked_eq_backslash {c : UInt8} : blanked c = backslash ↔ c = backslash := by
  unfold blanked backslash
  split
  · rename_i small
    constructor
    · intro h
      cases h
    · rintro rfl
      exact absurd small (by decide)
  · exact Iff.rfl

theorem Parser.rest_behind {s : Parser} {front rest : List UInt8} {c : UInt8}
    (place : s.p = front.length) :
    { s with text := front ++ c :: rest, p := s.p + 1 }.rest = rest := by
  rw [Parser.rest, place, ← List.singleton_append, ← List.append_assoc]
  exact List.drop_left' (by simp)

theorem parseStringSlow_agrees {tag fuel : Nat} {s : Parser} {front content gap rest : List UInt8}
    (text : s.text = front ++ (content ++ (gap ++ rest)))
    (place : s.p = (front ++ (content ++ gap)).length) (room : tag + 1 < s.text.length)
    (enough : rest.length < fuel) :
    Agrees (fun x y => Closed s tag front (content ++ y.1) y.2 x)
      (s.parseStringSlow tag front.length fuel (front ++ content).length) (scanString rest) := by
  induction fuel generalizing s content gap rest with
  | zero => omega
  | succ fuel ih =>
    have total := congrArg List.length text
    simp only [List.length_append] at total place
    cases rest with
    | nil =>
      rw [Parser.parseStringSlow, if_pos (by simp at total; omega), scanString]
      exact .error _ _
    | cons c rest =>
      have split : s.text = (front ++ (content ++ gap)) ++ c :: rest := by simpa using text
      have inside : ¬ s.p ≥ s.text.length := by
        simp only [List.length_cons] at total
        omega
      have blank := Parser.blank_eq split (by simpa using place)
      have char : ((front ++ (content ++ gap)) ++ blanked c :: rest).getD s.p 0 = blanked c := by
        simp [place]
      rw [Parser.parseStringSlow, if_neg inside, blank, scanString_cons]
      simp only [char, blanked_eq_quote, blanked_eq_backslash]
      split
      · rename_i closing
        rw [Parser.closeString_eq _ _ (by simpa [text] using room)]
        refine .ok ⟨gap ++ [quote], by simp [text], ?_⟩
        rw [closing, place]
        simp [blanked, quote, Nat.add_assoc]
      split
      · have escape := readEscape_agrees
          { s with text := (front ++ (content ++ gap)) ++ blanked c :: rest, p := s.p + 1 }
        rw [@Parser.rest_behind s (front ++ (content ++ gap)) rest (blanked c)
          (by simpa using place)] at escape
        cases read : scanEscape rest with
        | error stop =>
          rw [read] at escape
          obtain ⟨fail, same, failing⟩ := escape.of_error
          rw [same]
          exact failing
        | ok found =>
          obtain ⟨bytes, behind⟩ := found
          rw [read] at escape
          obtain ⟨_, same, rfl⟩ := escape.of_ok
          obtain ⟨⟨used, rfl⟩, -, short⟩ := scanEscape_suffix read
          rw [List.length_append] at short
          rw [same]
          simp only [Parser.seek]
          rw [@Parser.write_eq _ (front ++ content) (gap ++ blanked c :: used) behind bytes
            (by simp) (by simp; omega)]
          rw [← List.length_append, List.append_assoc front]
          apply Agrees.map_right
          refine (@ih _ (content ++ bytes) ((gap ++ blanked c :: used).drop bytes.length) behind
            ?_ ?_ ?_ ?_).mono ?_
          · simp
          · simp
            omega
          · simp at total ⊢
            omega
          · simp at enough
            omega
          · intro x y closed
            show Closed s tag front (content ++ (bytes ++ y.1)) y.2 x
            rw [← List.append_assoc]
            refine closed.same_memory ?_ rfl rfl rfl
            simp at total ⊢
            omega
      · rw [@Parser.write_eq _ (front ++ content) (gap ++ [blanked c]) rest [blanked c]
          (by simp) (by simp)]
        apply Agrees.map_right
        have counted : (front ++ content).length + 1 =
            (front ++ (content ++ [blanked c])).length := by
          simp [Nat.add_assoc]
        rw [counted, List.append_assoc front]
        refine (@ih _ (content ++ [blanked c]) ((gap ++ [blanked c]).drop 1) rest
          ?_ ?_ ?_ ?_).mono ?_
        · simp
        · simp
          omega
        · simp at total ⊢
          omega
        · simp at enough
          omega
        · intro x y closed
          show Closed s tag front (content ++ ([blanked c] ++ y.1)) y.2 x
          rw [← List.append_assoc]
          refine closed.same_memory ?_ rfl rfl rfl
          simp at total ⊢
          omega

theorem parseStringLoop_agrees {tag fuel : Nat} {s : Parser} {front content rest : List UInt8}
    (text : s.text = front ++ (content ++ rest)) (place : s.p = (front ++ content).length)
    (room : tag + 1 < s.text.length) (enough : rest.length < fuel) :
    Agrees (fun x y => Closed s tag front (content ++ y.1) y.2 x)
      (s.parseStringLoop tag front.length fuel) (scanString rest) := by
  induction fuel generalizing s content rest with
  | zero => omega
  | succ fuel ih =>
    have total := congrArg List.length text
    simp only [List.length_append] at total place
    cases rest with
    | nil =>
      rw [Parser.parseStringLoop, if_pos (by simp at total; omega), scanString]
      exact .error _ _
    | cons c rest =>
      have split : s.text = (front ++ content) ++ c :: rest := by simpa using text
      have inside : ¬ s.p ≥ s.text.length := by
        simp only [List.length_cons] at total
        omega
      have blank := Parser.blank_eq split (by simpa using place)
      have char : ((front ++ content) ++ blanked c :: rest).getD s.p 0 = blanked c := by
        simp [place]
      rw [Parser.parseStringLoop, if_neg inside, blank]
      simp only [char, blanked_eq_quote, blanked_eq_backslash]
      split
      · rename_i closing
        rw [Parser.closeString_eq _ _ (by simpa [text] using room), scanString_cons, if_pos closing]
        refine .ok ⟨[quote], by simp [text], ?_⟩
        rw [closing, place]
        simp [blanked, quote, Nat.add_assoc]
      split
      · rename_i escaped
        have same : blanked c = c := by
          rw [escaped]
          rfl
        have slow := @parseStringSlow_agrees tag
          (((front ++ content) ++ blanked c :: rest).length - s.p + 1)
          { s with text := (front ++ content) ++ blanked c :: rest } front content [] (c :: rest)
          (by simp [same]) (by simpa using place) (by simpa [text] using room)
          (by simp [place]; omega)
        rw [← List.length_append] at place
        rw [← place] at slow
        refine slow.mono fun x y closed => closed.same_memory ?_ rfl rfl rfl
        simp [text]
      · rename_i plain escaped
        rw [scanString_cons, if_neg plain, if_neg escaped]
        apply Agrees.map_right
        refine (@ih _ (content ++ [blanked c]) rest ?_ ?_ ?_ ?_).mono ?_
        · simp
        · simp
          omega
        · simp at total ⊢
          omega
        · simp at enough
          omega
        · intro x y closed
          show Closed s tag front (content ++ ([blanked c] ++ y.1)) y.2 x
          rw [← List.append_assoc]
          refine closed.same_memory ?_ rfl rfl rfl
          simp [text]

/-- The quotation mark at the pointer is not looked at again. Without text behind it, no word is
written. -/
theorem parseString_agrees {tag : Nat} {s : Parser} {c : UInt8} {rest : List UInt8}
    (text : s.rest = c :: rest) (room : rest ≠ [] → tag + 1 < s.text.length) :
    Agrees (fun x y => Closed s tag (s.text.take (s.p + 1)) y.1 y.2 x) (s.parseString tag)
      (scanString rest) := by
  obtain ⟨before, -, tail, -⟩ := Parser.rest_cons text
  have length : (s.text.take (s.p + 1)).length = s.p + 1 := by
    rw [List.length_take]
    omega
  have split : s.text = s.text.take (s.p + 1) ++ rest := by
    rw [tail, Parser.rest]
    exact (List.take_append_drop _ _).symm
  have total := congrArg List.length split
  rw [List.length_append, length] at total
  by_cases none : rest = []
  · rw [none, List.length_nil] at total
    rw [none, Parser.parseString, Parser.parseStringLoop, if_pos (by simp only; omega), scanString]
    exact .error _ _
  · have loop := @parseStringLoop_agrees tag (s.text.length - (s.p + 1) + 1)
      { s with p := s.p + 1 } (s.text.take (s.p + 1)) [] rest split (by simpa using length.symm)
        (room none)
      (by omega)
    rw [length] at loop
    exact loop.mono fun x y closed => closed.same_memory rfl rfl rfl rfl

end CppMyth.Sajson
