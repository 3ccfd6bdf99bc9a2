import CppMyth.Json.Reader
import Mathlib.Data.List.DropRight

/-! The texts that are accepted, as a grammar. It is wider than that of JSON: the only key of an
object may lack its value; behind a minus the digits may be missing, in front of a point, behind it
or both, down to the lone minus of `[-]`; a control character in a string is read as a blank, a
byte above 127 as it is, and the second half of a surrogate pair may stand alone; and the end of
the text may be a null character. -/
namespace CppMyth.Sajson
open JSON (Node)

def Blank (text : List UInt8) : Prop := ∀ c ∈ text, isBlank c = true

theorem blank_nil : Blank [] := fun _ member => absurd member List.not_mem_nil

def hexValue (v : UInt32) (digits : List UInt8) : UInt32 :=
  digits.foldl (fun v c => (v <<< 4) + (hexDigit c).getD 0) v

/-- Four hexadecimal digits. -/
structure HexText (u : UInt32) (text : List UInt8) : Prop where
  length : text.length = 4
  digits : ∀ c ∈ text, (hexDigit c).isSome
  value : hexValue 0 text = u

/-- What an escape is written as, behind its backslash. -/
inductive EscapeText : List UInt8 → List UInt8 → Prop where
  | character {e r : UInt8} (known : replacement e = some r) : EscapeText [r] [e]
  | unicode {u : UInt32} {digits : List UInt8} (hex : HexText u digits)
      (single : ¬ (0xD800 ≤ u ∧ u ≤ 0xDBFF)) : EscapeText (writeUtf8 u) (117 :: digits)
  | surrogates {u v : UInt32} {high low : List UInt8} (first : HexText u high)
      (second : HexText v low) (lead : 0xD800 ≤ u ∧ u ≤ 0xDBFF)
      (trail : ¬ (v < 0xDC00 ∨ v > 0xDFFF)) :
      EscapeText (writeUtf8 (surrogates u v)) (117 :: (high ++ backslash :: 117 :: low))

/-- What a string is written as, behind its first quotation mark. -/
inductive StringText : List UInt8 → List UInt8 → Prop where
  | close : StringText [] [quote]
  | plain {c : UInt8} {content text : List UInt8} (printed : c ≠ quote ∧ c ≠ backslash)
      (rest : StringText content text) : StringText (blanked c :: content) (c :: text)
  | escape {bytes escape content text : List UInt8} (escaped : EscapeText bytes escape)
      (rest : StringText content text) :
      StringText (bytes ++ content) (backslash :: (escape ++ text))

section Strings

variable {u v : UInt32} {rest behind bytes content text : List UInt8}

theorem scanHex_iff {i : Nat} :
    scanHex i v rest = .ok (u, behind) ↔ ∃ text, rest = text ++ behind ∧ text.length = i ∧
      (∀ c ∈ text, (hexDigit c).isSome) ∧ hexValue v text = u := by
  induction i generalizing v rest with
  | zero =>
    constructor
    · intro h
      cases h
      exact ⟨[], rfl, rfl, fun c member => absurd member List.not_mem_nil, rfl⟩
    · rintro ⟨text, rfl, none, -, rfl⟩
      obtain rfl := List.length_eq_zero_iff.mp none
      rfl
  | succ i ih =>
    cases rest with
    | nil =>
      constructor
      · intro h
        cases h
      · rintro ⟨text, none, length, -⟩
        rw [(List.append_eq_nil_iff.mp none.symm).1] at length
        cases length
    | cons c rest =>
      rw [scanHex]
      constructor
      · intro h
        cases digit : hexDigit c with
        | none => simp [digit] at h
        | some d =>
          simp only [digit] at h
          obtain ⟨text, rfl, length, digits, value⟩ := ih.mp h
          refine ⟨c :: text, rfl, by simp [length], ?_, ?_⟩
          · simp only [List.forall_mem_cons]
            exact ⟨by simp [digit], digits⟩
          · rw [← value, hexValue, List.foldl_cons, digit]
            rfl
      · rintro ⟨text, same, length, digits, value⟩
        cases text with
        | nil => cases length
        | cons c' text =>
          obtain ⟨rfl, rfl⟩ := List.cons_eq_cons.mp same
          simp only [List.forall_mem_cons] at digits
          obtain ⟨d, digit⟩ := Option.isSome_iff_exists.mp digits.1
          rw [hexValue, List.foldl_cons, digit] at value
          simp only [digit]
          exact ih.mpr ⟨text, rfl, Nat.succ.inj length, digits.2, value⟩

theorem scanHex_four :
    scanHex 4 0 rest = .ok (u, behind) ↔ ∃ text, rest = text ++ behind ∧ HexText u text := by
  rw [scanHex_iff]
  constructor
  · rintro ⟨text, same, length, digits, value⟩
    exact ⟨text, same, length, digits, value⟩
  · rintro ⟨text, same, length, digits, value⟩
    exact ⟨text, same, length, digits, value⟩

theorem scanTrail_iff :
    scanTrail u rest = .ok (v, behind) ↔ ∃ w low, rest = backslash :: 117 :: (low ++ behind) ∧
      HexText w low ∧ ¬ (w < 0xDC00 ∨ w > 0xDFFF) ∧ v = surrogates u w := by
  rw [scanTrail]
  constructor
  · intro h
    split at h
    · cases h
    rename_i mark
    split at h
    · cases h
    rename_i w after hex
    split at h
    · cases h
    rename_i trail
    cases h
    obtain ⟨low, same, digits⟩ := scanHex_four.mp hex
    refine ⟨w, low, ?_, digits, trail, rfl⟩
    rw [← List.take_append_drop 2 rest, not_not.mp mark, same]
    rfl
  · rintro ⟨w, low, rfl, digits, trail, rfl⟩
    have hex : scanHex 4 0 (low ++ behind) = .ok (w, behind) := scanHex_four.mpr ⟨low, rfl, digits⟩
    simp [hex, trail]

theorem replacement_unicode : replacement 117 = none := by decide

theorem scanEscape_iff :
    scanEscape rest = .ok (bytes, behind) ↔
      ∃ text, rest = text ++ behind ∧ EscapeText bytes text := by
  constructor
  · intro h
    cases rest with
    | nil => cases h
    | cons e rest =>
      rw [scanEscape] at h
      split at h
      · rename_i r known
        cases h
        exact ⟨[e], rfl, .character known⟩
      split at h
      · rename_i unicode
        subst unicode
        obtain ⟨⟨u, after⟩, read, same⟩ := except_map_ok h
        cases same
        unfold scanUnicode at read
        split at read
        · cases read
        rename_i high first
        obtain ⟨digits, rfl, hex⟩ := scanHex_four.mp first
        split at read
        · rename_i lead
          obtain ⟨w, low, rfl, second, trail, rfl⟩ := scanTrail_iff.mp read
          exact ⟨_, by simp, .surrogates hex second lead trail⟩
        · rename_i single
          cases read
          exact ⟨_, rfl, .unicode hex single⟩
      · cases h
  · rintro ⟨text, rfl, escaped⟩
    cases escaped with
    | character known => simp [scanEscape, known]
    | @unicode u digits hex single =>
      have read : scanHex 4 0 (digits ++ behind) = .ok (u, behind) := scanHex_four.mpr ⟨_, rfl, hex⟩
      rw [List.cons_append, scanEscape, replacement_unicode]
      simp only [if_true, scanUnicode, read, if_neg single]
      rfl
    | @surrogates u v high low first second lead trail =>
      have read : scanHex 4 0 (high ++ (backslash :: 117 :: (low ++ behind))) =
          .ok (u, backslash :: 117 :: (low ++ behind)) := scanHex_four.mpr ⟨_, rfl, first⟩
      have further : scanTrail u (backslash :: 117 :: (low ++ behind)) =
          .ok (surrogates u v, behind) := scanTrail_iff.mpr ⟨v, low, rfl, second, trail, rfl⟩
      rw [List.cons_append, List.append_assoc, List.cons_append, List.cons_append, scanEscape,
        replacement_unicode]
      simp only [if_true, scanUnicode, read, if_pos lead, further]
      rfl

theorem scanString_iff :
    scanString rest = .ok (content, behind) ↔
      ∃ text, rest = text ++ behind ∧ StringText content text := by
  constructor
  · intro h
    fun_induction scanString rest generalizing content behind with
    | case1 => cases h
    | case2 rest =>
      cases h
      exact ⟨[quote], rfl, .close⟩
    | case3 => cases h
    | case4 rest bytes after escape _ _ ih =>
      obtain ⟨found, read, same⟩ := except_map_ok h
      cases same
      obtain ⟨text, rfl, string⟩ := ih read
      obtain ⟨front, rfl, escaped⟩ := scanEscape_iff.mp escape
      exact ⟨_, by simp, .escape escaped string⟩
    | case5 c rest plain escape ih =>
      obtain ⟨found, read, same⟩ := except_map_ok h
      cases same
      obtain ⟨text, rfl, string⟩ := ih read
      exact ⟨c :: text, rfl, .plain ⟨plain, escape⟩ string⟩
  · rintro ⟨text, rfl, string⟩
    induction string with
    | close => rw [List.singleton_append, scanString_cons, if_pos rfl]
    | plain printed _ ih =>
      rw [List.cons_append, scanString_cons, if_neg printed.1, if_neg printed.2, ih]
      rfl
    | @escape bytes escape content text escaped _ ih =>
      have read : scanEscape (escape ++ (text ++ behind)) = .ok (bytes, text ++ behind) :=
        scanEscape_iff.mpr ⟨_, rfl, escaped⟩
      rw [List.cons_append, List.append_assoc, scanString_cons, if_neg (by decide), if_pos rfl,
        read]
      simp only [ih]
      rfl

end Strings

/-- What a value that is no structure is written as. -/
inductive ScalarText : Node → List UInt8 → Prop where
  | null : ScalarText .null (ascii "null")
  | false : ScalarText (.boolean false) (ascii "false")
  | true : ScalarText (.boolean true) (ascii "true")
  | number {t : NumberText} (starts : t.negative ∨ t.whole ≠ []) (valid : t.Valid) :
      ScalarText t.value.node t.text
  | string {content text : List UInt8} (string : StringText content text) :
      ScalarText (.string content) (quote :: text)

/-- What stands behind a value that was accepted. -/
def Follows (rest : List UInt8) : Prop :=
  ∃ c behind, rest = c :: behind ∧ (isBlank c ∨ c = 44 ∨ c = 93 ∨ c = 125)

theorem Follows.ends {rest : List UInt8} (follows : Follows rest) (t : NumberText) :
    t.Ends rest := by
  obtain ⟨c, behind, rfl, follow⟩ := follows
  have plain : isdigit c = false ∧ ¬ (c = 101 ∨ c = 69) ∧ c ≠ 46 := by
    simp only [isBlank, Bool.or_eq_true, beq_iff_eq] at follow
    rcases follow with (((rfl | rfl) | rfl) | rfl) | rfl | rfl | rfl <;> decide
  exact ⟨c, behind, rfl, fun _ => plain.1,
    fun _ => ⟨plain.2.1, fun _ => plain.1, fun _ => ⟨plain.2.2, fun _ => plain.1⟩⟩⟩

section Scalars

variable {value : Node} {rest behind text : List UInt8}

theorem scanLiteral_ok {word : List UInt8} {node : Node}
    (h : scanLiteral word node rest = .ok (value, behind)) :
    value = node ∧ rest = word ++ behind := by
  unfold scanLiteral at h
  split at h
  · rename_i front
    cases h
    exact ⟨rfl, (List.prefix_append_drop front)⟩
  · cases h

theorem scanLiteral_append (word : List UInt8) (node : Node) (rest : List UInt8) :
    scanLiteral word node (word ++ rest) = .ok (node, rest) := by
  rw [scanLiteral, if_pos (List.prefix_append word rest), List.drop_left]

theorem scanScalar_written (h : scanScalar rest = .ok (value, behind)) :
    ∃ text, rest = text ++ behind ∧ ScalarText value text := by
  cases rest with
  | nil => cases h
  | cons c rest =>
    rw [scanScalar] at h
    split at h
    · obtain ⟨rfl, same⟩ := scanLiteral_ok h
      exact ⟨_, same, .null⟩
    split at h
    · obtain ⟨rfl, same⟩ := scanLiteral_ok h
      exact ⟨_, same, .false⟩
    split at h
    · obtain ⟨rfl, same⟩ := scanLiteral_ok h
      exact ⟨_, same, .true⟩
    split at h
    · rename_i first
      obtain ⟨number, read, rfl⟩ := scanNumeral_ok h
      obtain ⟨t, same, starts, valid, -, rfl⟩ := (scanNumber_iff first).mp read
      exact ⟨_, same, .number starts valid⟩
    split at h
    · rename_i mark
      obtain ⟨found, read, same⟩ := except_map_ok h
      cases same
      obtain ⟨text, rfl, string⟩ := scanString_iff.mp read
      exact ⟨quote :: text, by rw [mark, List.cons_append], .string string⟩
    · cases h

theorem number_first {t : NumberText} (starts : t.negative ∨ t.whole ≠ []) (valid : t.Valid) :
    ∃ c more, t.text = c :: more ∧ (isdigit c ∨ c = 45) := by
  cases sign : t.negative with
  | true => exact ⟨45, t.unsigned, by rw [NumberText.text, if_pos sign]; rfl, .inr rfl⟩
  | false =>
    obtain ⟨c, more, whole⟩ := List.exists_cons_of_ne_nil (starts.resolve_left (by simp [sign]))
    refine ⟨c, more ++ (NumberText.fractionText t.fraction ++
      NumberText.exponentText t.exponent), ?_, .inl (valid.whole.1 c (by simp [whole]))⟩
    rw [NumberText.text, if_neg (by simp [sign]), NumberText.unsigned, whole]
    rfl

/-- The first character of a value tells its kind. -/
theorem scanScalar_append (written : ScalarText value text) (follows : Follows rest) :
    scanScalar (text ++ rest) = .ok (value, rest) := by
  cases written with
  | null => exact scanLiteral_append (ascii "null") .null rest
  | false => exact scanLiteral_append (ascii "false") (.boolean false) rest
  | true => exact scanLiteral_append (ascii "true") (.boolean true) rest
  | @number t starts valid =>
    obtain ⟨c, more, same, first⟩ := number_first starts valid
    have letter : c ≠ 110 ∧ c ≠ 102 ∧ c ≠ 116 := by
      refine ⟨?_, ?_, ?_⟩ <;> (rintro rfl; rcases first with digit | minus)
      all_goals first | cases digit | cases minus
    have read : scanNumber (c :: (more ++ rest)) = .ok (t.value, rest) :=
      (scanNumber_iff first).mpr ⟨t, by rw [same, List.cons_append], starts, valid, follows.ends t,
        rfl⟩
    rw [same, List.cons_append, scanScalar, if_neg letter.1, if_neg letter.2.1,
      if_neg letter.2.2, if_pos first, scanNumeral, read]
  | @string content text string =>
    have read : scanString (text ++ rest) = .ok (content, rest) :=
      scanString_iff.mpr ⟨text, rfl, string⟩
    rw [List.cons_append, scanScalar, if_neg (by decide), if_neg (by decide), if_neg (by decide),
      if_neg (by decide), if_pos rfl, read]
    rfl

end Scalars

/-- What stands between the elements: nothing but blanks in front of the first. -/
def CommaText (c : Container) (text : List UInt8) : Prop :=
  if c.length = 0 then Blank text
  else ∃ gap gap', Blank gap ∧ Blank gap' ∧ text = gap ++ 44 :: gap'

/-- What stands in front of the value of an element, with the key of a field. -/
inductive Lead : Container → List UInt8 → List UInt8 → Prop where
  | element {elements : List Node} {text : List UInt8} (comma : CommaText (.array elements) text) :
      Lead (.array elements) [] text
  | field {fields : List (List UInt8 × Node)} {front key name gap gap' : List UInt8}
      (comma : CommaText (.object fields) front) (string : StringText key name)
      (before : Blank gap) (behind : Blank gap') :
      Lead (.object fields) key (front ++ quote :: (name ++ (gap ++ 58 :: gap')))

/-- What stands between the last element and the end of a structure. An object without fields may
have a key there. -/
def Ending (c : Container) (text : List UInt8) : Prop :=
  Blank text ∨ c = .object [] ∧ ∃ key, Lead c key text

def Container.opening : Container → UInt8
  | array _ => 91
  | object _ => 123

inductive Phrase where
  | value (node : Node)
  | inside (c : Container)

/-- What a value is written as, and what the elements of a structure are written as. -/
inductive Spells : Phrase → List UInt8 → Prop where
  | empty {c : Container} (none : c.length = 0) : Spells (.inside c) []
  | push {c : Container} {key front lead text : List UInt8} {node : Node}
      (inside : Spells (.inside c) front) (leads : Lead c key lead)
      (value : Spells (.value node) text) :
      Spells (.inside (c.push key node)) (front ++ (lead ++ text))
  | scalar {node : Node} {text : List UInt8} (scalar : ScalarText node text) :
      Spells (.value node) text
  | closed {c : Container} {front gap : List UInt8} (inside : Spells (.inside c) front)
      (ending : Ending c gap) :
      Spells (.value c.node) (c.opening :: (front ++ (gap ++ [c.closing])))

/-- A text that is accepted: one structure, then blanks up to the end or to a null character. -/
def Accepted (text : List UInt8) (node : Node) : Prop :=
  ∃ gap body gap' behind, text = gap ++ (body ++ (gap' ++ behind)) ∧ Blank gap ∧
    Spells (.value node) body ∧ (∃ c : Container, node = c.node) ∧ Blank gap' ∧ behind.headD 0 = 0

section Blanks

variable {c : UInt8} {gap rest : List UInt8}

theorem skipBlanks_append (blank : Blank gap) (rest : List UInt8) :
    skipBlanks (gap ++ rest) = skipBlanks rest :=
  List.dropWhile_append_of_pos blank

theorem skipBlanks_cons (plain : isBlank c = false) (rest : List UInt8) :
    skipBlanks (c :: rest) = c :: rest :=
  List.dropWhile_cons_of_neg (by simp [plain])

theorem skipBlanks_split (rest : List UInt8) :
    ∃ gap, Blank gap ∧ rest = gap ++ skipBlanks rest :=
  ⟨rest.takeWhile isBlank, fun _ member => List.mem_takeWhile_imp member,
    List.takeWhile_append_dropWhile.symm⟩

theorem skipBlanks_idem (rest : List UInt8) : skipBlanks (skipBlanks rest) = skipBlanks rest :=
  List.dropWhile_idempotent _ _

end Blanks

namespace Reader

variable {c : Container} {key lead gap rest after : List UInt8} {b : UInt8} {above : List Hole}
  {hadComma : Bool}

theorem scanComma_written {text : List UInt8} (comma : CommaText c text) (plain : isBlank b = false)
    (other : b ≠ 44) : scanComma c (skipBlanks (text ++ b :: rest)) =
      .ok (decide (c.length ≠ 0), b :: rest) := by
  unfold CommaText at comma
  unfold scanComma
  split at comma
  · rename_i none
    rw [skipBlanks_append comma, skipBlanks_cons plain, if_pos none, List.headD_cons, if_neg other]
    simp [none]
  · rename_i some
    obtain ⟨gap, gap', blank, blank', rfl⟩ := comma
    rw [List.append_assoc, List.cons_append, skipBlanks_append blank, skipBlanks_cons (by decide),
      if_neg some, List.headD_cons, if_pos rfl, List.tail_cons, skipBlanks_append blank',
      skipBlanks_cons plain]
    simp [some]

theorem closing_ends (c : Container) :
    isBlank c.closing = false ∧ c.closing ≠ 44 ∧ c.closing ≠ 91 ∧ c.closing ≠ 123 ∧
      (c.closing = 93 ∨ c.closing = 125) := by
  cases c <;> simp [Container.closing, isBlank]

/-- A turn goes to the element that stands behind its lead. -/
theorem turn_lead (leads : Lead c key lead) (plain : isBlank b = false) (other : b ≠ 44) :
    turn ⟨c, above, lead ++ b :: rest⟩ =
      element ⟨c, above, lead ++ b :: rest⟩ (decide (c.length ≠ 0)) key (b :: rest) := by
  cases leads with
  | element comma =>
    rw [turn, scanComma_written comma plain other]
    simp only [scanKey, Container.kind, reduceCtorEq, false_and, if_false, skipBlanks_cons plain]
  | @field fields front key name gap gap' comma string before behind =>
    have read : scanString (name ++ (gap ++ 58 :: (gap' ++ b :: rest))) =
        .ok (key, gap ++ 58 :: (gap' ++ b :: rest)) := scanString_iff.mpr ⟨name, rfl, string⟩
    have colon : skipBlanks (gap ++ 58 :: (gap' ++ b :: rest)) = 58 :: (gap' ++ b :: rest) := by
      rw [skipBlanks_append before, skipBlanks_cons (by decide)]
    have text : front ++ quote :: (name ++ (gap ++ 58 :: gap')) ++ b :: rest =
        front ++ quote :: (name ++ (gap ++ 58 :: (gap' ++ b :: rest))) := by simp
    rw [text, turn, scanComma_written comma (by decide) (by decide)]
    have mark : quote ≠ 125 := by decide
    simp [scanKey, Container.kind, mark, read, colon, scanColon, skipBlanks_append behind,
      skipBlanks_cons plain]

/-- A turn that meets the end of the structure closes it. -/
theorem turn_close (blank : Blank gap) :
    turn ⟨c, above, gap ++ c.closing :: rest⟩ = close false c above rest := by
  obtain ⟨plain, comma, bracket, brace, closing⟩ := closing_ends c
  have first : scanComma c (skipBlanks (gap ++ c.closing :: rest)) =
      .ok (false, c.closing :: rest) := by
    rw [skipBlanks_append blank, skipBlanks_cons plain, scanComma]
    simp [comma]
  have second : scanKey c (c.closing :: rest) = .ok ([], c.closing :: rest) := by
    cases c <;> simp [scanKey, Container.kind, Container.closing]
  rw [turn, first]
  simp only [second, skipBlanks_cons plain]
  rw [element, if_neg bracket, if_neg brace, if_pos closing, if_pos rfl]

theorem turn_ending (ending : Ending c gap) :
    turn ⟨c, above, gap ++ c.closing :: rest⟩ = close false c above rest := by
  rcases ending with blank | ⟨rfl, key, leads⟩
  · exact turn_close blank
  · obtain ⟨plain, comma, bracket, brace, closing⟩ := closing_ends (.object [])
    rw [turn_lead leads plain comma, element, if_neg bracket, if_neg brace, if_pos closing,
      if_pos rfl]
    rfl

end Reader

section Written

variable {c : Container} {key rest : List UInt8} {node : Node}

def Container.emptied : Container → Container
  | .array _ => .array []
  | .object _ => .object []

@[simp] theorem Container.emptied_push (c : Container) (key : List UInt8) (node : Node) :
    (c.push key node).emptied = c.emptied := by
  cases c <;> rfl

@[simp] theorem Container.opening_push (c : Container) (key : List UInt8) (node : Node) :
    (c.push key node).opening = c.opening := by
  cases c <;> rfl

@[simp] theorem Container.closing_push (c : Container) (key : List UInt8) (node : Node) :
    (c.push key node).closing = c.closing := by
  cases c <;> rfl

theorem Container.emptied_eq (none : c.length = 0) : c.emptied = c := by
  cases c with
  | array elements =>
    obtain rfl := List.length_eq_zero_iff.mp none
    rfl
  | object fields =>
    obtain rfl := List.length_eq_zero_iff.mp none
    rfl

theorem Blank.follows {gap : List UInt8} (blank : Blank gap) (follows : Follows rest) :
    Follows (gap ++ rest) := by
  cases gap with
  | nil => exact follows
  | cons b gap => exact ⟨b, gap ++ rest, rfl, .inl (blank b List.mem_cons_self)⟩

theorem CommaText.follows {text : List UInt8} (comma : CommaText c text) (some : c.length ≠ 0)
    (rest : List UInt8) : Follows (text ++ rest) := by
  rw [CommaText, if_neg some] at comma
  obtain ⟨gap, gap', blank, -, rfl⟩ := comma
  rw [List.append_assoc]
  exact blank.follows ⟨44, gap' ++ rest, rfl, .inr (.inl rfl)⟩

theorem Lead.follows {lead : List UInt8} (leads : Lead c key lead) (some : c.length ≠ 0)
    (rest : List UInt8) : Follows (lead ++ rest) := by
  cases leads with
  | element comma => exact comma.follows some rest
  | field comma _ _ _ =>
    rw [List.append_assoc]
    exact comma.follows some _

theorem Ending.follows {gap : List UInt8} (ending : Ending c gap) (some : c.length ≠ 0) :
    Follows (gap ++ c.closing :: rest) := by
  rcases ending with blank | ⟨rfl, -⟩
  · refine blank.follows ⟨c.closing, rest, rfl, .inr (.inr ?_)⟩
    exact (Reader.closing_ends c).2.2.2.2
  · exact absurd rfl some

/-- A scalar does not start like anything else that stands in a structure. -/
theorem scanScalar_first {b : UInt8} {found : Node × List UInt8}
    (h : scanScalar (b :: rest) = .ok found) :
    isBlank b = false ∧ b ≠ 44 ∧ b ≠ 91 ∧ b ≠ 123 ∧ ¬ (b = 93 ∨ b = 125) := by
  have rejects : ∀ b : UInt8, b = 0x20 ∨ b = 0x09 ∨ b = 0x0A ∨ b = 0x0D ∨ b = 44 ∨ b = 91 ∨
      b = 123 ∨ b = 93 ∨ b = 125 → scanScalar (b :: rest) = .error .rejected := by
    rintro b (rfl | rfl | rfl | rfl | rfl | rfl | rfl | rfl | rfl) <;> rfl
  have other : ¬ (b = 0x20 ∨ b = 0x09 ∨ b = 0x0A ∨ b = 0x0D ∨ b = 44 ∨ b = 91 ∨ b = 123 ∨
      b = 93 ∨ b = 125) := fun same => by
    have rejected := rejects b same
    rw [h] at rejected
    cases rejected
  simp only [isBlank, Bool.or_eq_false_iff, beq_eq_false_iff_ne]
  tauto

theorem ScalarText.ne_node {text : List UInt8} (scalar : ScalarText node text) (c : Container) :
    node ≠ c.node := by
  cases scalar with
  | @number t =>
    cases t.value <;> cases c <;> exact nofun
  | _ => cases c <;> exact nofun

/-- What the reader does with a text of the grammar, wherever the text stands. -/
def Phrase.Carries : Phrase → List UInt8 → Prop
  | .value node, text => ∀ (c : Container) (key : List UInt8) (above : List Hole)
      (lead rest : List UInt8), Lead c key lead → Follows rest →
      Reader.loop ⟨c, above, lead ++ (text ++ rest)⟩ = Reader.loop ⟨c.push key node, above, rest⟩
  | .inside c, text => ∀ (above : List Hole) (rest : List UInt8), (c.length ≠ 0 → Follows rest) →
      Reader.loop ⟨c.emptied, above, text ++ rest⟩ = Reader.loop ⟨c, above, rest⟩

theorem loop_again {r next : Reader} (h : r.turn = .ok (.again next)) : r.loop = next.loop := by
  rw [Reader.loop_eq, h]

theorem element_opening (r : Reader) (hadComma : Bool) (rest : List UInt8) :
    r.element hadComma key (c.opening :: rest) =
      .ok (.again ⟨c.emptied, ⟨r.current, key⟩ :: r.above, rest⟩) := by
  cases c <;> rfl

theorem opening_plain (c : Container) : isBlank c.opening = false ∧ c.opening ≠ 44 := by
  cases c <;> simp [Container.opening, isBlank]

theorem Spells.carries {p : Phrase} {text : List UInt8} (h : Spells p text) :
    p.Carries text := by
  induction h with
  | empty none =>
    intro above rest _
    rw [Container.emptied_eq none, List.nil_append]
  | @push c key front lead text node _ leads _ within value =>
    intro above rest follows
    have follows := follows (by rw [Container.length_push]; exact Nat.succ_ne_zero _)
    rw [Container.emptied_push, List.append_assoc, List.append_assoc]
    exact (within above _ fun some => leads.follows some _).trans
      (value c key above lead rest leads follows)
  | @scalar node text scalar =>
    intro c key above lead rest leads follows
    have read := scanScalar_append scalar follows
    cases found : text ++ rest with
    | nil =>
      rw [found] at read
      cases read
    | cons b after =>
      rw [found] at read
      obtain ⟨plain, comma, bracket, brace, closing⟩ := scanScalar_first read
      apply loop_again
      rw [Reader.turn_lead leads plain comma, Reader.element, if_neg bracket, if_neg brace,
        if_neg closing, read]
      rfl
  | @closed inner front gap _ ending within =>
    intro c key above lead rest leads follows
    obtain ⟨plain, comma⟩ := opening_plain inner
    have text : inner.opening :: (front ++ (gap ++ [inner.closing])) ++ rest =
        inner.opening :: (front ++ (gap ++ inner.closing :: rest)) := by simp
    rw [text, loop_again ((Reader.turn_lead leads plain comma).trans (element_opening _ _ _)),
      within _ _ fun some => ending.follows some]
    exact loop_again (Reader.turn_ending ending)

theorem readText_accepted {text : List UInt8} (h : Accepted text node) :
    readText text = .ok node := by
  obtain ⟨gap, body, gap', behind, rfl, blank, spells, ⟨c, rfl⟩, blank', stop⟩ := h
  have done : ∀ inner : Container, Reader.close false inner [] (gap' ++ behind) =
      .ok (.done inner.node) := by
    intro inner
    have head : (skipBlanks behind).headD 0 = 0 := by
      cases behind with
      | nil => rfl
      | cons b behind =>
        rw [List.headD_cons] at stop
        subst stop
        rfl
    rw [Reader.close, if_neg Bool.false_ne_true]
    simp only [skipBlanks_append blank', head, if_true]
  obtain ⟨p, value⟩ : ∃ p, p = Phrase.value c.node := ⟨_, rfl⟩
  rw [← value] at spells
  cases spells with
  | empty => cases value
  | push => cases value
  | scalar scalar => exact absurd (Phrase.value.inj value) (scalar.ne_node c)
  | @closed inner front gap'' inside ending =>
    have text : gap ++ (inner.opening :: (front ++ (gap'' ++ [inner.closing])) ++
        (gap' ++ behind)) =
        gap ++ inner.opening :: (front ++ (gap'' ++ inner.closing :: (gap' ++ behind))) := by simp
    have read : readText (gap ++ inner.opening ::
        (front ++ (gap'' ++ inner.closing :: (gap' ++ behind)))) = Reader.loop
          ⟨inner.emptied, [], front ++ (gap'' ++ inner.closing :: (gap' ++ behind))⟩ := by
      rw [readText, skipBlanks_append blank, skipBlanks_cons (opening_plain inner).1]
      cases inner <;> rfl
    rw [text, read, inside.carries [] _ fun some => ending.follows some, Reader.loop_eq,
      Reader.turn_ending ending, done, Phrase.value.inj value]

/-- What was read of the structures that are open. -/
inductive Opened : Container → List Hole → List UInt8 → Prop where
  | root {c : Container} {front : List UInt8} (inside : Spells (.inside c) front) :
      Opened c [] (c.opening :: front)
  | nested {hole : Hole} {above : List Hole} {c : Container} {outer lead front : List UInt8}
      (outside : Opened hole.container above outer) (leads : Lead hole.container hole.key lead)
      (inside : Spells (.inside c) front) :
      Opened c (hole :: above) (outer ++ (lead ++ c.opening :: front))

theorem Opened.push {above : List Hole} {read lead text : List UInt8}
    (opened : Opened c above read) (leads : Lead c key lead) (value : Spells (.value node) text) :
    Opened (c.push key node) above (read ++ (lead ++ text)) := by
  cases opened with
  | @root _ front inside =>
    have further := Opened.root (inside.push leads value)
    rwa [Container.opening_push] at further
  | @nested hole above _ outer lead' front outside leads' inside =>
    have further := Opened.nested outside leads' (inside.push leads value)
    rw [Container.opening_push] at further
    have text : outer ++ (lead' ++ c.opening :: front) ++ (lead ++ text) =
        outer ++ (lead' ++ c.opening :: (front ++ (lead ++ text))) := by simp
    rwa [text]

theorem Opened.close {hole : Hole} {above : List Hole} {read gap : List UInt8}
    (opened : Opened c (hole :: above) read) (ending : Ending c gap) :
    Opened (hole.container.push hole.key c.node) above (read ++ (gap ++ [c.closing])) := by
  cases opened with
  | @nested _ _ _ outer lead front outside leads inside =>
    have further := outside.push leads (inside.closed ending)
    have text : outer ++ (lead ++ c.opening :: front) ++ (gap ++ [c.closing]) =
        outer ++ (lead ++ c.opening :: (front ++ (gap ++ [c.closing]))) := by simp
    rwa [text]

/-- What a turn has read. -/
inductive Turned (r : Reader) : Reader.Turn → Prop where
  | opens {new : Container} {key lead rest : List UInt8} (none : new.length = 0)
      (leads : Lead r.current key lead) (text : r.rest = lead ++ new.opening :: rest) :
      Turned r (.again ⟨new, ⟨r.current, key⟩ :: r.above, rest⟩)
  | scalar {node : Node} {key lead text rest : List UInt8} (leads : Lead r.current key lead)
      (scalar : ScalarText node text) (text : r.rest = lead ++ (text ++ rest)) :
      Turned r (.again ⟨r.current.push key node, r.above, rest⟩)
  | closes {gap rest : List UInt8} {t : Reader.Turn} (ending : Ending r.current gap)
      (text : r.rest = gap ++ r.current.closing :: rest)
      (close : Reader.close false r.current r.above rest = .ok t) : Turned r t

/-- Behind a lead there is a value, or the end of an object whose key lacks one. -/
theorem element_turned {r : Reader} {lead body : List UInt8} {t : Reader.Turn}
    (leads : Lead r.current key lead) (text : r.rest = lead ++ body)
    (ends : r.current.length = 0 → body.headD 0 = r.current.closing → Ending r.current lead)
    (h : r.element (decide (r.current.length ≠ 0)) key body = .ok t) : Turned r t := by
  cases body with
  | nil => cases h
  | cons b rest =>
    rw [Reader.element] at h
    split at h
    · rename_i bracket
      subst bracket
      cases h
      exact @Turned.opens r (.array []) _ _ _ rfl leads text
    split at h
    · rename_i brace
      subst brace
      cases h
      exact @Turned.opens r (.object []) _ _ _ rfl leads text
    split at h
    · split at h
      · rename_i closing
        subst closing
        by_cases none : r.current.length = 0
        · simp only [none, ne_eq, not_true, decide_false] at h
          exact .closes (ends none rfl) text h
        · unfold Reader.close at h
          rw [if_pos (decide_eq_true none)] at h
          cases h
      · cases h
    · obtain ⟨⟨node, behind⟩, read, same⟩ := except_map_ok h
      cases same
      obtain ⟨written, same, scalar⟩ := scanScalar_written read
      rw [same] at text
      exact .scalar leads scalar text

theorem scanComma_read {hadComma : Bool} {after : List UInt8}
    (h : Reader.scanComma c (skipBlanks rest) = .ok (hadComma, after)) :
    ∃ text, rest = text ++ after ∧ skipBlanks after = after ∧
      (CommaText c text ∧ hadComma = decide (c.length ≠ 0) ∨
        c.length ≠ 0 ∧ Blank text ∧ hadComma = false ∧ after.headD 0 = c.closing) := by
  obtain ⟨gap, blank, split⟩ := skipBlanks_split rest
  unfold Reader.scanComma at h
  split at h
  · rename_i none
    split at h
    · cases h
    · cases h
      refine ⟨gap, split, skipBlanks_idem rest, .inl ⟨?_, by simp [none]⟩⟩
      rwa [CommaText, if_pos none]
  · rename_i some
    split at h
    · rename_i comma
      cases h
      obtain ⟨gap', blank', split'⟩ := skipBlanks_split (skipBlanks rest).tail
      cases found : skipBlanks rest with
      | nil =>
        rw [found] at comma
        cases comma
      | cons b behind =>
        rw [found] at comma split split'
        rw [List.headD_cons] at comma
        subst comma
        rw [List.tail_cons] at split' ⊢
        refine ⟨gap ++ 44 :: gap', ?_, skipBlanks_idem _, .inl ⟨?_, by simp [some]⟩⟩
        · rw [List.append_assoc, List.cons_append, ← split', ← split]
        · rw [CommaText, if_neg some]
          exact ⟨gap, gap', blank, blank', rfl⟩
    · split at h
      · cases h
      · rename_i closing
        cases h
        exact ⟨gap, split, skipBlanks_idem rest, .inr ⟨some, blank, rfl, not_not.mp closing⟩⟩

theorem headD_eq {b : UInt8} (some : b ≠ 0) (h : rest.headD 0 = b) :
    ∃ after, rest = b :: after := by
  cases rest with
  | nil => exact absurd h.symm some
  | cons d after =>
    rw [List.headD_cons] at h
    subst h
    exact ⟨after, rfl⟩

/-- Where no key is read, the structure is an array, or it ends. -/
theorem scanKey_read {after : List UInt8} (h : Reader.scanKey c rest = .ok (key, after)) :
    (∃ name gap, c.kind = .OBJECT ∧ rest = quote :: (name ++ (gap ++ 58 :: after)) ∧
      StringText key name ∧ Blank gap) ∨
    (c.kind = .OBJECT → rest.headD 0 = 125) ∧ key = [] ∧ after = rest := by
  unfold Reader.scanKey at h
  split at h
  · rename_i keyed
    split at h
    · cases h
    rename_i mark
    obtain ⟨behind, rfl⟩ := headD_eq (by decide) (not_not.mp mark)
    rw [List.tail_cons] at h
    split at h
    · cases h
    rename_i found read
    obtain ⟨name, rfl, string⟩ := scanString_iff.mp read
    obtain ⟨gap, blank, split⟩ := skipBlanks_split found
    unfold Reader.scanColon at h
    split at h
    · cases h
    rename_i colon
    obtain ⟨behind, same⟩ := headD_eq (by decide) (not_not.mp colon)
    rw [same] at h split
    cases h
    exact .inl ⟨name, gap, keyed.1, by rw [split, List.tail_cons], string, blank⟩
  · rename_i other
    cases h
    exact .inr ⟨fun object => not_not.mp fun apart => other ⟨object, apart⟩, rfl, rfl⟩

/-- The end of the structure stands where an element could. -/
theorem element_closing {r : Reader} {gap after : List UInt8} {t : Reader.Turn} {hadComma : Bool}
    (blank : hadComma = false → Blank gap) (text : r.rest = gap ++ r.current.closing :: after)
    (h : r.element hadComma key (r.current.closing :: after) = .ok t) : Turned r t := by
  obtain ⟨-, -, bracket, brace, closing⟩ := Reader.closing_ends r.current
  rw [Reader.element, if_neg bracket, if_neg brace, if_pos closing, if_pos rfl] at h
  cases hadComma with
  | true =>
    unfold Reader.close at h
    rw [if_pos rfl] at h
    cases h
  | false => exact .closes (.inl (blank rfl)) text h

theorem turn_turned {r : Reader} {t : Reader.Turn} (h : r.turn = .ok t) : Turned r t := by
  unfold Reader.turn at h
  split at h
  · cases h
  rename_i hadComma body first
  split at h
  · cases h
  rename_i key after keyed
  obtain ⟨front, split, plain, leads | ⟨some, blank, rfl, closing⟩⟩ := scanComma_read first
  · obtain ⟨comma, rfl⟩ := leads
    have blank (none : r.current.length = 0) : Blank front := by
      rwa [CommaText, if_pos none] at comma
    rcases scanKey_read keyed with ⟨name, gap, object, rfl, string, blank'⟩ | ⟨ends, rfl, rfl⟩
    · obtain ⟨gap', blank'', split'⟩ := skipBlanks_split after
      cases kind : r.current with
      | array elements =>
        rw [kind] at object
        cases object
      | object fields =>
        rw [kind] at comma
        have leads := Lead.field comma string blank' blank''
        rw [← kind] at leads
        refine element_turned leads ?_ (fun none _ => .inr ⟨?_, key, leads⟩) h
        · have text : r.rest =
              front ++ quote :: (name ++ (gap ++ 58 :: (gap' ++ skipBlanks after))) := by
            rw [← split', split]
          rw [text]
          simp
        · rw [kind] at none ⊢
          rw [List.length_eq_zero_iff.mp none]
    · rw [plain] at h
      cases kind : r.current with
      | array elements =>
        rw [kind] at comma
        have leads := Lead.element comma
        rw [← kind] at leads
        exact element_turned leads split (fun none _ => .inl (blank none)) h
      | object fields =>
        have object : r.current.kind = .OBJECT := by rw [kind]; rfl
        obtain ⟨behind, rfl⟩ := headD_eq (by decide) (ends object)
        rw [← Container.closing_of_kind object] at h split
        exact element_closing (fun none => blank (by simpa using none)) split h
  · obtain ⟨behind, rfl⟩ := headD_eq (by
      rcases (Reader.closing_ends r.current).2.2.2.2 with same | same <;> rw [same] <;> decide)
        closing
    rcases scanKey_read keyed with ⟨name, gap, object, same, -⟩ | ⟨-, rfl, rfl⟩
    · rw [Container.closing_of_kind object] at same
      cases same
    · rw [plain] at h
      exact element_closing (fun _ => blank) split h

theorem loop_written {r : Reader} {read : List UInt8} (h : r.loop = .ok node)
    (opened : Opened r.current r.above read) :
    ∃ body gap behind, read ++ r.rest = body ++ (gap ++ behind) ∧ Spells (.value node) body ∧
      (∃ c : Container, node = c.node) ∧ Blank gap ∧ behind.headD 0 = 0 := by
  induction size : r.rest.length using Nat.strongRecOn generalizing r read with
  | ind n ih =>
    subst size
    rw [Reader.loop_eq] at h
    split at h
    · cases h
    · rename_i last turn
      cases h
      cases turn_turned turn with
      | @closes gap rest _ ending text close =>
        obtain ⟨c, above, _⟩ := r
        simp only at ending text close opened
        unfold Reader.close at close
        rw [if_neg Bool.false_ne_true] at close
        cases opened with
        | nested => cases close
        | @root _ front inside =>
          dsimp only at close
          split at close
          · rename_i stop
            cases close
            obtain ⟨gap', blank', split⟩ := skipBlanks_split rest
            refine ⟨_, gap', skipBlanks rest, ?_, inside.closed ending, ⟨c, rfl⟩, blank', stop⟩
            rw [text, ← split]
            simp
          · cases close
    · rename_i next turn
      have shorter := Reader.turn_shorter turn
      cases turn_turned turn with
      | @opens new key lead rest none leads text =>
        obtain ⟨body, gap, behind, same, found⟩ :=
          ih _ shorter h (opened.nested leads (.empty none)) rfl
        refine ⟨body, gap, behind, ?_, found⟩
        rw [← same, text]
        simp
      | @scalar value key lead written rest leads scalar text =>
        obtain ⟨body, gap, behind, same, found⟩ :=
          ih _ shorter h (opened.push leads (.scalar scalar)) rfl
        refine ⟨body, gap, behind, ?_, found⟩
        rw [← same, text]
        simp
      | @closes gap rest _ ending text close =>
        obtain ⟨c, above, _⟩ := r
        simp only at ending text close opened
        unfold Reader.close at close
        rw [if_neg Bool.false_ne_true] at close
        cases above with
        | nil =>
          dsimp only at close
          split at close <;> cases close
        | cons hole above =>
          cases close
          obtain ⟨body, gap', behind, same, found⟩ := ih _ shorter h (opened.close ending) rfl
          refine ⟨body, gap', behind, ?_, found⟩
          rw [← same, text]
          simp

/-- A text is accepted when it is one of the grammar, and then it stands for the node that the
grammar gives it. -/
theorem readText_iff {text : List UInt8} : readText text = .ok node ↔ Accepted text node := by
  refine ⟨fun h => ?_, readText_accepted⟩
  obtain ⟨gap, blank, split⟩ := skipBlanks_split text
  have opening : ∃ (c : Container) (rest : List UInt8), c.length = 0 ∧
      skipBlanks text = c.opening :: rest ∧ Reader.loop ⟨c, [], rest⟩ = .ok node := by
    unfold readText at h
    split at h
    · cases h
    · rename_i b rest found
      split at h
      · rename_i bracket
        subst bracket
        exact ⟨.array [], rest, rfl, found, h⟩
      split at h
      · rename_i brace
        subst brace
        exact ⟨.object [], rest, rfl, found, h⟩
      · cases h
  obtain ⟨c, rest, none, found, loop⟩ := opening
  obtain ⟨body, gap', behind, same, spells, structured, blank', stop⟩ :=
    loop_written loop (.root (.empty none))
  refine ⟨gap, body, gap', behind, ?_, blank, spells, structured, blank', stop⟩
  rw [← same, split, found]
  rfl

end Written

end CppMyth.Sajson
