import CppMyth.Json.Sajson

/-! The numbers of `parse_number`: how they are written, what they leave of the text, and which
integers are read as they are. -/
namespace CppMyth.Sajson

section Leaves

variable {α : Type} {a : α} {str rest behind : List UInt8}

theorem unlessEnd_ok {next : Scanned α} (h : unlessEnd rest next = .ok (a, behind)) :
    rest ≠ [] ∧ next = .ok (a, behind) := by
  unfold unlessEnd at h
  split at h
  · cases h
  · rename_i some
    exact ⟨some, h⟩

theorem asInt_ok {i : Int} {next : Scanned α} (h : asInt i next = .ok (a, behind)) :
    (-intMax - 1 ≤ i ∧ i ≤ intMax) ∧ next = .ok (a, behind) := by
  unfold asInt at h
  split at h
  · rename_i small
    exact ⟨small, h⟩
  · cases h

end Leaves

variable {num num' : Numeral} {str behind : List UInt8}

theorem digitsLoop_suffix (h : digitsLoop str num = .ok (num', behind)) :
    behind <:+ str ∧ behind ≠ [] := by
  induction str generalizing num with
  | nil => cases h
  | cons c rest ih =>
    rw [digitsLoop] at h
    split at h
    · obtain ⟨tail, some⟩ := ih (unlessEnd_ok h).2
      exact ⟨tail.trans (List.suffix_cons c rest), some⟩
    · cases h
      exact ⟨List.suffix_refl _, List.cons_ne_nil _ _⟩

theorem wholePart_suffix (h : wholePart str = .ok (num, behind)) : behind <:+ str := by
  cases str with
  | nil => cases h
  | cons c rest =>
    rw [wholePart] at h
    split at h
    · cases h
      exact List.suffix_cons c _
    · exact (digitsLoop_suffix h).1

/-- A digit is read. -/
theorem wholePart_shorter {c : UInt8} {rest : List UInt8} (digit : isdigit c)
    (h : wholePart (c :: rest) = .ok (num, behind)) : behind <:+ rest := by
  rw [wholePart] at h
  split at h
  · cases h
    exact List.suffix_refl _
  · rw [digitsLoop, if_pos digit] at h
    exact (digitsLoop_suffix (unlessEnd_ok h).2).1

theorem fractionLoop_suffix (h : fractionLoop str num = .ok (num', behind)) :
    behind <:+ str ∧ behind ≠ [] := by
  induction str generalizing num with
  | nil => cases h
  | cons c rest ih =>
    rw [fractionLoop] at h
    split at h
    · obtain ⟨tail, some⟩ := ih (asInt_ok (unlessEnd_ok h).2).2
      exact ⟨tail.trans (List.suffix_cons c rest), some⟩
    · cases h
      exact ⟨List.suffix_refl _, List.cons_ne_nil _ _⟩

theorem fractionPart_suffix (h : fractionPart num str = .ok (num', behind)) :
    behind <:+ str ∧ behind ≠ [] := by
  cases str with
  | nil => cases h
  | cons c rest =>
    rw [fractionPart] at h
    split at h
    · obtain ⟨tail, some⟩ := fractionLoop_suffix (unlessEnd_ok h).2
      exact ⟨tail.trans (List.suffix_cons c rest), some⟩
    · cases h
      exact ⟨List.suffix_refl _, List.cons_ne_nil _ _⟩

theorem exponentLoop_suffix {exp exp' : Int} (h : exponentLoop str exp = .ok (exp', behind)) :
    behind <:+ str ∧ behind ≠ [] := by
  induction str generalizing exp with
  | nil => cases h
  | cons c rest ih =>
    rw [exponentLoop] at h
    split at h
    · obtain ⟨tail, some⟩ := ih (unlessEnd_ok (asInt_ok h).2).2
      exact ⟨tail.trans (List.suffix_cons c rest), some⟩
    · cases h
      exact ⟨List.suffix_refl _, List.cons_ne_nil _ _⟩

theorem exponentDigits_suffix (rest : List UInt8) : exponentDigits rest <:+ rest := by
  unfold exponentDigits
  split_ifs
  · exact List.tail_suffix rest
  · exact List.suffix_refl rest

theorem exponentPart_suffix (h : exponentPart num str = .ok (num', behind)) :
    behind <:+ str ∧ behind ≠ [] := by
  cases str with
  | nil => cases h
  | cons e rest =>
    rw [exponentPart] at h
    split at h
    · have h := (unlessEnd_ok (unlessEnd_ok h).2).2
      split at h
      · cases h
      · split at h
        · cases h
        · rename_i digits
          obtain ⟨tail, some⟩ := exponentLoop_suffix digits
          obtain ⟨-, h⟩ := asInt_ok h
          cases h
          exact ⟨(tail.trans (exponentDigits_suffix rest)).trans (List.suffix_cons e rest), some⟩
    · cases h
      exact ⟨List.suffix_refl _, List.cons_ne_nil _ _⟩

theorem scanUnsigned_ok (h : scanUnsigned str = .ok (num, behind)) :
    ∃ whole rest part, wholePart str = .ok (whole, rest) ∧ behind <:+ rest ∧ behind ≠ [] ∧
      fractionPart whole rest = .ok part ∧ exponentPart part.1 part.2 = .ok (num, behind) := by
  unfold scanUnsigned at h
  split at h
  · cases h
  · rename_i whole rest read
    split at h
    · cases h
    · rename_i part after fraction
      obtain ⟨tail, some⟩ := exponentPart_suffix h
      exact ⟨whole, rest, ⟨part, after⟩, read, tail.trans (fractionPart_suffix fraction).1, some,
        fraction, h⟩

/-- A number is never the end of the text. -/
theorem scanNumber_suffix {number : Number} {c : UInt8} {rest : List UInt8}
    (first : isdigit c ∨ c = 45) (h : scanNumber (c :: rest) = .ok (number, behind)) :
    behind <:+ rest ∧ behind ≠ [] := by
  unfold scanNumber at h
  simp only [List.head?_cons, Option.some.injEq, List.tail_cons, decide_eq_true_eq] at h
  split at h
  · cases h
  · rename_i num after read
    cases h
    split at read
    · obtain ⟨_, rest', _, whole, tail, some, _⟩ := scanUnsigned_ok (unlessEnd_ok read).2
      exact ⟨tail.trans (wholePart_suffix whole), some⟩
    · rename_i positive
      obtain ⟨_, rest', _, whole, tail, some, _⟩ := scanUnsigned_ok read
      exact ⟨tail.trans (wholePart_shorter (first.resolve_right positive) whole), some⟩

/-- How a number is written. -/
structure NumberText where
  negative : Bool
  whole : List UInt8
  fraction : Option (List UInt8)
  exponent : Option (UInt8 × List UInt8 × List UInt8)

abbrev Digits (text : List UInt8) : Prop := ∀ c ∈ text, isdigit c = true

namespace NumberText

/-- The point and what is behind it. -/
def fractionText : Option (List UInt8) → List UInt8
  | none => []
  | some digits => 46 :: digits

/-- The letter, the sign and the digits of an exponent. -/
def exponentText : Option (UInt8 × List UInt8 × List UInt8) → List UInt8
  | none => []
  | some (e, sign, digits) => e :: (sign ++ digits)

/-- What stands behind the sign. -/
def unsigned (t : NumberText) : List UInt8 :=
  t.whole ++ (fractionText t.fraction ++ exponentText t.exponent)

def text (t : NumberText) : List UInt8 := (if t.negative then [45] else []) ++ t.unsigned

def wholeNumeral (whole : List UInt8) (num : Numeral) : Numeral :=
  whole.foldl (fun num c => num.push (c - 48)) num

def fractionNumeral (num : Numeral) : Option (List UInt8) → Numeral
  | none => num
  | some digits => digits.foldl (fun num c => num.shift (c - 48)) num.toDouble

def exponentNumeral (num : Numeral) : Option (UInt8 × List UInt8 × List UInt8) → Numeral
  | none => num
  | some (_, sign, digits) =>
    { num.toDouble with
      exponent := num.exponent +
        if sign = [45] then -(digitsValue digits : Int) else digitsValue digits }

def numeral (t : NumberText) : Numeral :=
  exponentNumeral (fractionNumeral (wholeNumeral t.whole {}) t.fraction) t.exponent

def value (t : NumberText) : Number := t.numeral.value t.negative

/-- A zero stands alone; the whole part and the fraction may be empty. What is computed with the
exponent has to fit an `int`. -/
structure Valid (t : NumberText) : Prop where
  whole : Digits t.whole ∧ (t.whole = [48] ∨ t.whole.head? ≠ some 48)
  fraction : ∀ digits, t.fraction = some digits → Digits digits ∧ digits.length ≤ 2 ^ 31
  exponent : ∀ e sign digits, t.exponent = some (e, sign, digits) →
    (e = 101 ∨ e = 69) ∧ (sign = [] ∨ sign = [43] ∨ sign = [45]) ∧ digits ≠ [] ∧ Digits digits ∧
      digitsValue digits ≤ intMax ∧ -intMax - 1 ≤ t.numeral.exponent ∧ t.numeral.exponent ≤ intMax

/-- The character behind a number, which is not taken for a part of it. -/
def Ends (t : NumberText) (behind : List UInt8) : Prop :=
  ∃ c rest, behind = c :: rest ∧ (t.exponent ≠ none → isdigit c = false) ∧
    (t.exponent = none → ¬ (c = 101 ∨ c = 69) ∧ (t.fraction ≠ none → isdigit c = false) ∧
      (t.fraction = none → c ≠ 46 ∧ (t.whole ≠ [48] → isdigit c = false)))

end NumberText

section Parts

variable {c : UInt8} {rest digits : List UInt8}

theorem unlessEnd_of_ne {α : Type} {next : Scanned α} (some : rest ≠ []) :
    unlessEnd rest next = next := if_neg some

theorem asInt_of {α : Type} {i : Int} {next : Scanned α} (small : -intMax - 1 ≤ i ∧ i ≤ intMax) :
    asInt i next = next := if_pos small

theorem digitsLoop_iff : digitsLoop str num = .ok (num', behind) ↔
    ∃ digits, str = digits ++ behind ∧ Digits digits ∧
      (∃ c rest, behind = c :: rest ∧ isdigit c = false) ∧
      num' = NumberText.wholeNumeral digits num := by
  constructor
  · intro h
    induction str generalizing num with
    | nil => cases h
    | cons c str ih =>
      rw [digitsLoop] at h
      split at h
      · rename_i digit
        obtain ⟨digits, rfl, all, stop, rfl⟩ := ih (unlessEnd_ok h).2
        exact ⟨c :: digits, rfl, List.forall_mem_cons.mpr ⟨digit, all⟩, stop, rfl⟩
      · rename_i other
        cases h
        exact ⟨[], rfl, fun c member => absurd member List.not_mem_nil,
          ⟨c, str, rfl, by simpa using other⟩, rfl⟩
  · rintro ⟨digits, rfl, all, ⟨c, rest, rfl, other⟩, rfl⟩
    induction digits generalizing num with
    | nil =>
      rw [List.nil_append, digitsLoop, if_neg (by simp [other])]
      rfl
    | cons d digits ih =>
      obtain ⟨digit, all⟩ := List.forall_mem_cons.mp all
      rw [List.cons_append, digitsLoop, if_pos digit, unlessEnd_of_ne (by simp)]
      exact ih all

theorem shift_exponent (num : Numeral) (digit : UInt8) :
    (num.shift digit).exponent = num.exponent - 1 := rfl

/-- Each digit behind the point takes one from the exponent, which starts at 0. -/
theorem fractionLoop_iff {k : Nat} (start : num.exponent = -(k : Int)) (few : k ≤ 2 ^ 31) :
    fractionLoop str num = .ok (num', behind) ↔
    ∃ digits, str = digits ++ behind ∧ Digits digits ∧
      (∃ c rest, behind = c :: rest ∧ isdigit c = false) ∧ digits.length + k ≤ 2 ^ 31 ∧
      num' = digits.foldl (fun num c => num.shift (c - 48)) num := by
  have limit : intMax = 2 ^ 31 - 1 := rfl
  constructor
  · intro h
    induction str generalizing num k with
    | nil => cases h
    | cons c str ih =>
      rw [fractionLoop] at h
      split at h
      · rename_i digit
        obtain ⟨small, h⟩ := asInt_ok (unlessEnd_ok h).2
        obtain ⟨digits, rfl, all, stop, length, rfl⟩ := ih (k := k + 1)
          (by rw [shift_exponent, start]; push_cast; ring) (by omega) h
        exact ⟨c :: digits, rfl, List.forall_mem_cons.mpr ⟨digit, all⟩, stop,
          by rw [List.length_cons]; omega, rfl⟩
      · rename_i other
        cases h
        exact ⟨[], rfl, fun c member => absurd member List.not_mem_nil,
          ⟨c, str, rfl, by simpa using other⟩, by simpa using few, rfl⟩
  · rintro ⟨digits, rfl, all, ⟨c, rest, rfl, other⟩, length, rfl⟩
    induction digits generalizing num k with
    | nil =>
      rw [List.nil_append, fractionLoop, if_neg (by simp [other])]
      rfl
    | cons d digits ih =>
      obtain ⟨digit, all⟩ := List.forall_mem_cons.mp all
      rw [List.length_cons] at length
      rw [List.cons_append, fractionLoop, if_pos digit, unlessEnd_of_ne (by simp),
        asInt_of (by omega)]
      exact ih (k := k + 1) (by rw [shift_exponent, start]; push_cast; ring) (by omega) all
        (by omega)

theorem sub_zero_toNat (digit : isdigit c = true) : (c - 48).toNat = c.toNat - 48 := by
  obtain ⟨d, small, rfl⟩ := digit_of_isdigit digit
  interval_cases d <;> rfl

theorem exponent_digit (n : Nat) (digit : isdigit c = true) :
    10 * (n : Int) + ((c - 48).toNat : Int) = ((n * 10 + (c.toNat - 48) : Nat) : Int) := by
  rw [sub_zero_toNat digit]
  push_cast
  ring

theorem exponentLoop_iff {n : Nat} {exp : Int} : exponentLoop str (n : Int) = .ok (exp, behind) ↔
    ∃ digits, str = digits ++ behind ∧ Digits digits ∧
      (∃ c rest, behind = c :: rest ∧ isdigit c = false) ∧
      (digits ≠ [] → (digitsFrom n digits : Int) ≤ intMax) ∧ exp = (digitsFrom n digits : Int) := by
  constructor
  · intro h
    induction str generalizing n with
    | nil => cases h
    | cons c str ih =>
      rw [exponentLoop] at h
      split at h
      · rename_i digit
        simp only [exponent_digit n digit] at h
        obtain ⟨small, h⟩ := asInt_ok h
        obtain ⟨digits, rfl, all, stop, bound, rfl⟩ := ih (unlessEnd_ok h).2
        refine ⟨c :: digits, rfl, List.forall_mem_cons.mpr ⟨digit, all⟩, stop, fun _ => ?_, ?_⟩
        · rw [digitsFrom_cons]
          by_cases last : digits = []
          · subst last
            exact small.2
          · exact bound last
        · rw [digitsFrom_cons]
      · rename_i other
        cases h
        exact ⟨[], rfl, fun c member => absurd member List.not_mem_nil,
          ⟨c, str, rfl, by simpa using other⟩, fun some => absurd rfl some, rfl⟩
  · rintro ⟨digits, rfl, all, ⟨c, rest, rfl, other⟩, bound, rfl⟩
    induction digits generalizing n with
    | nil =>
      rw [List.nil_append, exponentLoop, if_neg (by simp [other])]
      rfl
    | cons d digits ih =>
      obtain ⟨digit, all⟩ := List.forall_mem_cons.mp all
      have bound := bound (List.cons_ne_nil _ _)
      rw [digitsFrom_cons] at bound
      have grown := le_digitsFrom (n * 10 + (d.toNat - 48)) digits
      rw [List.cons_append, exponentLoop, if_pos digit]
      simp only [exponent_digit n digit]
      rw [asInt_of (by rw [intMax] at *; omega), unlessEnd_of_ne (by simp), digitsFrom_cons]
      exact ih all fun _ => bound

theorem wholeNumeral_zero : NumberText.wholeNumeral [48] {} = {} := rfl

theorem wholePart_iff : wholePart str = .ok (num, behind) ↔
    ∃ whole, str = whole ++ behind ∧ Digits whole ∧ (whole = [48] ∨ whole.head? ≠ some 48) ∧
      (whole ≠ [48] → ∃ c rest, behind = c :: rest ∧ isdigit c = false) ∧
      num = NumberText.wholeNumeral whole {} := by
  constructor
  · intro h
    cases str with
    | nil => cases h
    | cons c rest =>
      rw [wholePart] at h
      split at h
      · rename_i zero
        cases h
        subst zero
        exact ⟨[48], rfl, List.forall_mem_singleton.mpr rfl, .inl rfl,
          fun other => absurd rfl other, wholeNumeral_zero.symm⟩
      · rename_i nonzero
        obtain ⟨whole, same, all, stop, rfl⟩ := digitsLoop_iff.mp h
        refine ⟨whole, same, all, .inr ?_, fun _ => stop, rfl⟩
        intro head
        obtain ⟨tail, rfl⟩ := List.head?_eq_some_iff.mp head
        exact nonzero (List.cons_eq_cons.mp same).1
  · rintro ⟨whole, rfl, all, zero, stop, rfl⟩
    by_cases single : whole = [48]
    · subst single
      rw [wholeNumeral_zero]
      rfl
    · obtain ⟨c, rest, rfl, other⟩ := stop single
      have nonzero := zero.resolve_left single
      have read : digitsLoop (whole ++ c :: rest) {} =
          .ok (NumberText.wholeNumeral whole {}, c :: rest) :=
        digitsLoop_iff.mpr ⟨whole, rfl, all, ⟨c, rest, rfl, other⟩, rfl⟩
      cases whole with
      | nil =>
        rw [List.nil_append] at read ⊢
        have plain : c ≠ 48 := by
          rintro rfl
          cases other
        rw [wholePart, if_neg plain, read]
      | cons d whole =>
        rw [List.cons_append] at read ⊢
        rw [wholePart, if_neg (fun same => nonzero (by rw [same]; rfl)), read]

theorem toDouble_exponent (num : Numeral) : num.toDouble.exponent = num.exponent := by
  unfold Numeral.toDouble
  split <;> rfl

/-- A fraction is read with its point. -/
theorem fractionPart_iff (start : num.exponent = 0) :
    fractionPart num str = .ok (num', behind) ↔
    ∃ fraction, str = NumberText.fractionText fraction ++ behind ∧
      (∀ digits, fraction = some digits → Digits digits ∧ digits.length ≤ 2 ^ 31) ∧
      (∃ c rest, behind = c :: rest ∧ (fraction = none → c ≠ 46) ∧
        (fraction ≠ none → isdigit c = false)) ∧
      num' = NumberText.fractionNumeral num fraction := by
  have double : num.toDouble.exponent = -((0 : Nat) : Int) := by
    rw [toDouble_exponent, start]
    rfl
  constructor
  · intro h
    cases str with
    | nil => cases h
    | cons c rest =>
      rw [fractionPart] at h
      split at h
      · rename_i point
        obtain ⟨digits, rfl, all, ⟨d, after, rfl, other⟩, length, rfl⟩ :=
          (fractionLoop_iff double (by omega)).mp (unlessEnd_ok h).2
        subst point
        refine ⟨some digits, rfl, ?_, ⟨d, after, rfl, nofun, fun _ => other⟩, rfl⟩
        rintro _ ⟨⟩
        exact ⟨all, length⟩
      · rename_i other
        cases h
        exact ⟨none, rfl, nofun, ⟨c, rest, rfl, fun _ => other, fun some => absurd rfl some⟩, rfl⟩
  · rintro ⟨fraction, rfl, valid, ⟨c, rest, rfl, plain, other⟩, rfl⟩
    cases fraction with
    | none =>
      rw [NumberText.fractionText, List.nil_append, fractionPart, if_neg (plain rfl)]
      rfl
    | some digits =>
      obtain ⟨all, length⟩ := valid digits rfl
      rw [NumberText.fractionText, List.cons_append, fractionPart, if_pos rfl,
        unlessEnd_of_ne (by simp)]
      exact (fractionLoop_iff double (by omega)).mpr
        ⟨digits, rfl, all, ⟨c, rest, rfl, other nofun⟩, length, rfl⟩

/-- The digits of a text are those in front of its first character that is none. -/
theorem digits_unique {digits' rest' : List UInt8} {d : UInt8} (all : Digits digits)
    (all' : Digits digits') (other : isdigit c = false) (other' : isdigit d = false)
    (same : digits ++ c :: rest = digits' ++ d :: rest') :
    digits = digits' ∧ c :: rest = d :: rest' := by
  have taken : ∀ digits : List UInt8, Digits digits → ∀ c rest, isdigit c = false →
      (digits ++ c :: rest).takeWhile isdigit = digits := by
    intro digits all c rest other
    rw [List.takeWhile_append_of_pos all, List.takeWhile_cons_of_neg (by simp [other]),
      List.append_nil]
  have front : digits = digits' := by
    rw [← taken digits all c rest other, same, taken digits' all' d rest' other']
  subst front
  exact ⟨rfl, List.append_cancel_left same⟩

theorem headD_digits (some : digits ≠ []) (all : Digits digits) (behind : List UInt8) :
    isdigit ((digits ++ behind).headD 0) = true := by
  obtain ⟨d, digits, rfl⟩ := List.exists_cons_of_ne_nil some
  exact all d List.mem_cons_self

theorem not_sign_of_isdigit (digit : isdigit c = true) : c ≠ 45 ∧ c ≠ 43 := by
  constructor <;> (rintro rfl; cases digit)

/-- The sign is the first character, where it is one. -/
theorem exponentDigits_signed {sign : List UInt8}
    (one : sign = [] ∨ sign = [43] ∨ sign = [45]) (digit : isdigit (digits.headD 0) = true) :
    exponentDigits (sign ++ digits) = digits ∧
      ((sign ++ digits).head? = some 45 ↔ sign = [45]) := by
  have plain : digits.head? ≠ some 45 ∧ digits.head? ≠ some 43 := by
    cases digits with
    | nil => cases digit
    | cons d digits =>
      obtain ⟨minus, plus⟩ := not_sign_of_isdigit digit
      exact ⟨fun same => minus (Option.some.inj same), fun same => plus (Option.some.inj same)⟩
  rcases one with rfl | rfl | rfl
  · exact ⟨if_neg (not_or.mpr plain), by simpa using plain.1⟩
  · exact ⟨rfl, by simp⟩
  · exact ⟨rfl, by simp⟩

theorem exponentDigits_split (rest : List UInt8) :
    ∃ sign, (sign = [] ∨ sign = [43] ∨ sign = [45]) ∧ rest = sign ++ exponentDigits rest := by
  unfold exponentDigits
  split_ifs with signed
  · rcases signed with minus | plus
    · obtain ⟨tail, rfl⟩ := List.head?_eq_some_iff.mp minus
      exact ⟨[45], .inr (.inr rfl), rfl⟩
    · obtain ⟨tail, rfl⟩ := List.head?_eq_some_iff.mp plus
      exact ⟨[43], .inr (.inl rfl), rfl⟩
  · exact ⟨[], .inl rfl, rfl⟩

/-- An exponent that is well written is read where it and the exponent of the number fit. -/
theorem exponentPart_written {e : UInt8} {sign : List UInt8} (letter : e = 101 ∨ e = 69)
    (one : sign = [] ∨ sign = [43] ∨ sign = [45]) (some : digits ≠ []) (all : Digits digits)
    (other : isdigit c = false) :
    exponentPart num (e :: (sign ++ (digits ++ c :: rest))) = .ok (num', behind) ↔
      (digitsValue digits ≤ intMax ∧
        -intMax - 1 ≤ (NumberText.exponentNumeral num (.some (e, sign, digits))).exponent ∧
        (NumberText.exponentNumeral num (.some (e, sign, digits))).exponent ≤ intMax) ∧
      num' = NumberText.exponentNumeral num (.some (e, sign, digits)) ∧ behind = c :: rest := by
  have digit := headD_digits some all (c :: rest)
  obtain ⟨unsigned, minus⟩ := exponentDigits_signed one digit
  rw [exponentPart, if_pos letter]
  simp only [unsigned, minus]
  rw [unlessEnd_of_ne (by simp), unlessEnd_of_ne (by simp), if_neg (not_not.mpr digit)]
  by_cases bound : (digitsValue digits : Int) ≤ intMax
  · have read : exponentLoop (digits ++ c :: rest) (0 : Nat) =
        .ok ((digitsValue digits : Int), c :: rest) :=
      exponentLoop_iff.mpr ⟨digits, rfl, all, ⟨c, rest, rfl, other⟩, fun _ => bound, rfl⟩
    simp only [Nat.cast_zero] at read
    simp only [read, bound, true_and, NumberText.exponentNumeral, decide_eq_true_eq]
    constructor
    · intro h
      obtain ⟨small, h⟩ := asInt_ok h
      cases h
      exact ⟨small, rfl, rfl⟩
    · rintro ⟨small, rfl, rfl⟩
      exact asInt_of small
  · constructor
    · intro h
      split at h
      · cases h
      · rename_i scanned
        obtain ⟨digits', same, all', ⟨d, after, rfl, other'⟩, fits, -⟩ :=
          (exponentLoop_iff (n := 0)).mp scanned
        obtain ⟨rfl, -⟩ := digits_unique all all' other other' same
        exact absurd (fits some) bound
    · exact fun h => absurd h.1.1 bound

theorem exponentPart_iff :
    exponentPart num str = .ok (num', behind) ↔
    ∃ exponent, str = NumberText.exponentText exponent ++ behind ∧
      (∀ e sign digits, exponent = some (e, sign, digits) →
        (e = 101 ∨ e = 69) ∧ (sign = [] ∨ sign = [43] ∨ sign = [45]) ∧ digits ≠ [] ∧ Digits digits ∧
        digitsValue digits ≤ intMax ∧
        -intMax - 1 ≤ (NumberText.exponentNumeral num exponent).exponent ∧
        (NumberText.exponentNumeral num exponent).exponent ≤ intMax) ∧
      (∃ c rest, behind = c :: rest ∧ (exponent = none → ¬ (c = 101 ∨ c = 69)) ∧
        (exponent ≠ none → isdigit c = false)) ∧
      num' = NumberText.exponentNumeral num exponent := by
  constructor
  · intro h
    cases str with
    | nil => cases h
    | cons e rest =>
      by_cases letter : e = 101 ∨ e = 69
      · have read := h
        rw [exponentPart, if_pos letter] at read
        have read := (unlessEnd_ok (unlessEnd_ok read).2).2
        split at read
        · cases read
        · rename_i digit
          rw [not_not] at digit
          split at read
          · cases read
          · rename_i scanned
            obtain ⟨digits, same, all, ⟨c, after, rfl, other⟩, -, -⟩ :=
              (exponentLoop_iff (n := 0)).mp scanned
            obtain ⟨sign, one, split⟩ := exponentDigits_split rest
            have some : digits ≠ [] := by
              rintro rfl
              rw [same, List.nil_append, List.headD_cons, other] at digit
              cases digit
            rw [split, same] at h
            obtain ⟨small, rfl, rfl⟩ := (exponentPart_written letter one some all other).mp h
            refine ⟨.some (e, sign, digits), ?_, ?_, ⟨c, after, rfl, nofun, fun _ => other⟩, rfl⟩
            · rw [split, same, NumberText.exponentText, List.cons_append, List.append_assoc]
            · rintro _ _ _ ⟨⟩
              exact ⟨letter, one, some, all, small⟩
      · rw [exponentPart, if_neg letter] at h
        cases h
        exact ⟨none, rfl, nofun, ⟨e, rest, rfl, fun _ => letter, fun some => absurd rfl some⟩, rfl⟩
  · rintro ⟨exponent, rfl, valid, ⟨c, rest, rfl, plain, other⟩, rfl⟩
    cases exponent with
    | none =>
      rw [NumberText.exponentText, List.nil_append, exponentPart, if_neg (plain rfl)]
      rfl
    | some parts =>
      obtain ⟨e, sign, digits⟩ := parts
      obtain ⟨letter, one, some, all, small⟩ := valid e sign digits rfl
      rw [NumberText.exponentText, List.cons_append, List.append_assoc]
      exact (exponentPart_written letter one some all (other nofun)).mpr ⟨small, rfl, rfl⟩

end Parts

theorem push_exponent (num : Numeral) (digit : UInt8) :
    (num.push digit).exponent = num.exponent := by
  unfold Numeral.push
  dsimp only
  split_ifs <;> simp [toDouble_exponent]

theorem wholeNumeral_exponent (whole : List UInt8) (num : Numeral) :
    (NumberText.wholeNumeral whole num).exponent = num.exponent := by
  induction whole generalizing num with
  | nil => rfl
  | cons c whole ih => exact (ih _).trans (push_exponent num _)

/-- What stands behind a part of a number starts with the letter of the next part, or with what
stands behind the number. -/
theorem Ends_iff {t : NumberText} (letter : ∀ e sign digits, t.exponent = some (e, sign, digits) →
    e = 101 ∨ e = 69) : t.Ends behind ↔
    (t.whole ≠ [48] → ∃ c rest, NumberText.fractionText t.fraction ++
      (NumberText.exponentText t.exponent ++ behind) = c :: rest ∧ isdigit c = false) ∧
    (∃ c rest, NumberText.exponentText t.exponent ++ behind = c :: rest ∧
      (t.fraction = none → c ≠ 46) ∧ (t.fraction ≠ none → isdigit c = false)) ∧
    (∃ c rest, behind = c :: rest ∧ (t.exponent = none → ¬ (c = 101 ∨ c = 69)) ∧
      (t.exponent ≠ none → isdigit c = false)) := by
  obtain ⟨negative, whole, fraction, exponent⟩ := t
  have point : isdigit 46 = false := rfl
  cases behind with
  | nil => simp [NumberText.Ends]
  | cons c rest =>
    cases exponent with
    | none => cases fraction <;> simp [NumberText.Ends, NumberText.fractionText,
        NumberText.exponentText, point] <;> tauto
    | some parts =>
      obtain ⟨e, sign, digits⟩ := parts
      obtain ⟨plain, other⟩ : e ≠ 46 ∧ isdigit e = false := by
        rcases letter e sign digits rfl with rfl | rfl <;> decide
      cases fraction <;> simp [NumberText.Ends, NumberText.fractionText,
        NumberText.exponentText, point, plain, other]

theorem scanUnsigned_iff (negative : Bool) : scanUnsigned str = .ok (num, behind) ↔
    ∃ t : NumberText, t.negative = negative ∧ str = t.unsigned ++ behind ∧ t.Valid ∧
      t.Ends behind ∧ num = t.numeral := by
  constructor
  · intro h
    unfold scanUnsigned at h
    split at h
    · cases h
    · rename_i read
      obtain ⟨whole, rfl, digits, zero, stop, rfl⟩ := wholePart_iff.mp read
      split at h
      · cases h
      · rename_i read
        obtain ⟨fraction, rfl, digits', stop', rfl⟩ :=
          (fractionPart_iff (wholeNumeral_exponent whole {})).mp read
        obtain ⟨exponent, rfl, written, stop'', rfl⟩ := exponentPart_iff.mp h
        refine ⟨⟨negative, whole, fraction, exponent⟩, rfl, ?_, ⟨⟨digits, zero⟩, digits', ?_⟩,
          (Ends_iff ?_).mpr ⟨stop, stop', stop''⟩, rfl⟩
        · simp only [NumberText.unsigned, List.append_assoc]
        · exact written
        · exact fun e sign digits given => (written e sign digits given).1
  · rintro ⟨t, rfl, rfl, valid, ends, rfl⟩
    obtain ⟨stop, stop', stop''⟩ :=
      (Ends_iff fun e sign digits given => (valid.exponent e sign digits given).1).mp ends
    have whole := wholePart_iff.mpr ⟨t.whole, rfl, valid.whole.1, valid.whole.2, stop, rfl⟩
    have fraction := (fractionPart_iff (wholeNumeral_exponent t.whole {})).mpr
      ⟨t.fraction, rfl, valid.fraction, stop', rfl⟩
    rw [NumberText.unsigned, List.append_assoc, List.append_assoc, scanUnsigned, whole]
    dsimp only
    rw [fraction]
    exact exponentPart_iff.mpr ⟨t.exponent, rfl, valid.exponent, stop'', rfl⟩

theorem NumberText.Ends.some {t : NumberText} (ends : t.Ends behind) : behind ≠ [] := by
  obtain ⟨c, rest, rfl, -⟩ := ends
  exact List.cons_ne_nil c rest

/-- A number is read as it is written. -/
theorem scanNumber_iff {number : Number} {c : UInt8} {rest : List UInt8}
    (first : isdigit c ∨ c = 45) : scanNumber (c :: rest) = .ok (number, behind) ↔
    ∃ t : NumberText, c :: rest = t.text ++ behind ∧ (t.negative ∨ t.whole ≠ []) ∧ t.Valid ∧
      t.Ends behind ∧ number = t.value := by
  unfold scanNumber
  simp only [List.head?_cons, Option.some.injEq, List.tail_cons, decide_eq_true_eq]
  constructor
  · intro h
    split at h
    · cases h
    · rename_i num after read
      cases h
      split at read
      · rename_i minus
        obtain ⟨t, negative, rfl, valid, ends, rfl⟩ :=
          (scanUnsigned_iff true).mp (unlessEnd_ok read).2
        refine ⟨t, ?_, .inl negative, valid, ends, ?_⟩
        · rw [minus, NumberText.text, if_pos negative]
          rfl
        · rw [NumberText.value, negative, decide_eq_true minus]
      · rename_i plus
        obtain ⟨t, negative, same, valid, ends, rfl⟩ := (scanUnsigned_iff false).mp read
        refine ⟨t, ?_, .inr ?_, valid, ends, ?_⟩
        · rw [same, NumberText.text, negative]
          rfl
        · intro none
          obtain ⟨d, rest', starts, other⟩ := ((Ends_iff fun e sign digits given =>
            (valid.exponent e sign digits given).1).mp ends).1 (by simp [none])
          rw [NumberText.unsigned, none, List.nil_append, List.append_assoc, starts] at same
          cases same
          rw [first.resolve_right plus] at other
          cases other
        · rw [NumberText.value, negative, decide_eq_false plus]
  · rintro ⟨t, same, starts, valid, ends, rfl⟩
    have read := (scanUnsigned_iff t.negative).mpr ⟨t, rfl, rfl, valid, ends, rfl⟩
    cases sign : t.negative with
    | true =>
      rw [NumberText.text, if_pos sign] at same
      obtain ⟨rfl, rfl⟩ : c = 45 ∧ rest = t.unsigned ++ behind := List.cons_eq_cons.mp same
      rw [if_pos rfl, unlessEnd_of_ne (by simp [ends.some]), read]
      simp only [NumberText.value, sign, decide_true]
    | false =>
      rw [NumberText.text, if_neg (by simp [sign]), List.nil_append] at same
      have whole : t.whole ≠ [] := starts.resolve_left (by simp [sign])
      obtain ⟨d, digits, written⟩ := List.exists_cons_of_ne_nil whole
      have plus : c ≠ 45 := by
        rintro rfl
        rw [NumberText.unsigned, written] at same
        cases same
        have digit := valid.whole.1 45 (by simp [written])
        cases digit
      rw [if_neg plus, same, read]
      simp only [NumberText.value, sign, decide_eq_false plus]

end CppMyth.Sajson
