import CppMyth.Json.Value

/-! Arrays of integers: what was written as decimal numerals is learned again from the document. An
integer that the parser's own limit keeps out of an `int` is a double there. -/
namespace CppMyth.Sajson
open Library JSON

/-- The largest integer that `parse_number` keeps as one: a further digit is not tried above a
tenth of the limit of an `int`, less nine. -/
def integerLimit : Int := 2147483559

/-- The node of an integer. -/
def integerNode (v : Int) : Node :=
  if v.natAbs ≤ integerLimit then .integer (.ofInt v) else .double (.round v)

/-- The elements of an array of integers. -/
def listed (vs : List Int) : List UInt8 :=
  vs.foldl (fun text v => text ++ ((if text = [] then [] else [44]) ++ decimalInt v)) []

section Digits

variable {num : Numeral} {c : UInt8} {n k : Nat}

/-- What the digits read so far have made of a number. -/
structure Numeral.Stands (num : Numeral) (n : Nat) : Prop where
  tryDouble : num.tryDouble = decide (integerLimit < n)
  exponent : num.exponent = 0
  double : integerLimit < n → num.d = .round n
  integer : n ≤ integerLimit → num.i = n

theorem round_natCast (small : n < 2 ^ 53) :
    ∃ exact : Representable n, Double.round n = .finite ⟨n, exact⟩ := by
  have exact : Representable ((n : ℤ) : ℚ) := Double.representable_int (by
    rw [abs_of_nonneg (Int.natCast_nonneg n)]
    exact_mod_cast small)
  rw [Int.cast_natCast] at exact
  exact ⟨exact, Double.round_exact exact⟩

/-- A further digit of a double that is an integer is exact. -/
theorem double_digit (small : n * 10 + k < 2 ^ 53) :
    ((Double.round 10).mul (.round n)).add (.round k) = .round ((n * 10 + k : Nat) : ℚ) := by
  obtain ⟨_, ten⟩ := @round_natCast 10 (by decide)
  obtain ⟨_, front⟩ := @round_natCast n (by omega)
  obtain ⟨_, last⟩ := @round_natCast k (by omega)
  obtain ⟨_, product⟩ := @round_natCast (n * 10) (by omega)
  have scaled : (Double.round 10).mul (.round n) = .round ((n * 10 : Nat) : ℚ) := by
    have same : (10 : ℚ) = ((10 : ℕ) : ℚ) := by norm_num
    rw [same, ten, front]
    show Double.round (((10 : ℕ) : ℚ) * n) = _
    rw [← Nat.cast_mul, Nat.mul_comm]
  rw [scaled, product, last]
  show Double.round (((n * 10 : ℕ) : ℚ) + k) = _
  rw [← Nat.cast_add]

theorem Numeral.Stands.push (h : num.Stands n) (digit : isdigit c = true)
    (small : n * 10 + (c.toNat - 48) < 2 ^ 53) :
    (num.push (c - 48)).Stands (n * 10 + (c.toNat - 48)) := by
  have low := isdigit_value digit
  have byte := sub_zero_toNat digit
  have limit : integerLimit = 2147483559 := rfl
  have tried := h.tryDouble
  by_cases big : integerLimit < n
  · rw [decide_eq_true big] at tried
    have pushed : num.push (c - 48) =
        { num with d := ((Double.round 10).mul num.d).add (.round (c - 48).toNat) } := by
      simp [Numeral.push, tried]
    have above : integerLimit < ((n * 10 + (c.toNat - 48) : Nat) : Int) := by omega
    rw [pushed, h.double big, byte, double_digit small]
    exact ⟨tried.trans (decide_eq_true above).symm, h.exponent, fun _ => rfl,
      fun below => absurd above (not_lt.mpr below)⟩
  · rw [decide_eq_false big] at tried
    have whole := h.integer (not_lt.mp big)
    have tenth : intMax / 10 - 9 = 214748355 := by decide
    by_cases further : num.i > intMax / 10 - 9
    · have pushed : num.push (c - 48) = { num with
          tryDouble := true
          d := ((Double.round 10).mul (.round num.i)).add (.round (c - 48).toNat) } := by
        simp [Numeral.push, Numeral.toDouble, tried, further]
      have above : integerLimit < ((n * 10 + (c.toNat - 48) : Nat) : Int) := by omega
      rw [pushed, whole, Int.cast_natCast, byte, double_digit small]
      exact ⟨(decide_eq_true above).symm, h.exponent, fun _ => rfl,
        fun below => absurd above (not_lt.mpr below)⟩
    · have pushed : num.push (c - 48) = { num with i := 10 * num.i + (c - 48).toNat } := by
        simp [Numeral.push, tried, further]
      have below : ¬ integerLimit < ((n * 10 + (c.toNat - 48) : Nat) : Int) := by omega
      rw [pushed]
      refine ⟨tried.trans (decide_eq_false below).symm, h.exponent, fun above => absurd above below,
        fun _ => ?_⟩
      simp only [whole, byte]
      omega

theorem wholeNumeral_stands {digits : List UInt8} (h : num.Stands n) (all : Digits digits)
    (small : digitsFrom n digits < 2 ^ 53) :
    (NumberText.wholeNumeral digits num).Stands (digitsFrom n digits) := by
  induction digits generalizing num n with
  | nil => exact h
  | cons c digits ih =>
    obtain ⟨digit, all⟩ := List.forall_mem_cons.mp all
    rw [digitsFrom_cons] at small ⊢
    have grown := le_digitsFrom (n * 10 + (c.toNat - 48)) digits
    exact ih (h.push digit (by omega)) all small

theorem decimal_plain (n : Nat) : decimal n = [48] ∨ (decimal n).head? ≠ some 48 := by
  induction n using Nat.strongRecOn with
  | ind n ih =>
    by_cases single : n < 10
    · rw [decimal_of_lt single]
      interval_cases n <;> decide
    · rw [decimal_of_ge (by omega)]
      obtain ⟨c, rest, same, -⟩ := decimal_head (n / 10)
      rcases ih (n / 10) (by omega) with zero | plain
      · have value := digitsValue_decimal (n / 10)
        rw [zero] at value
        have none : n / 10 = 0 := value.symm
        omega
      · right
        rw [same] at plain ⊢
        exact plain

end Digits

/-- The numeral of an integer. -/
def integerText (v : Int) : NumberText := ⟨decide (v < 0), decimal v.natAbs, none, none⟩

theorem integerText_text (v : Int) : (integerText v).text = decimalInt v := by
  unfold NumberText.text NumberText.unsigned integerText decimalInt
  by_cases negative : v < 0 <;>
    simp [negative, NumberText.fractionText, NumberText.exponentText]

theorem integerText_valid (v : Int) : (integerText v).Valid :=
  ⟨⟨decimal_isdigit _, decimal_plain _⟩, nofun, nofun⟩

theorem integerText_value {v : Int} (small : v.natAbs < 2 ^ 53) :
    (integerText v).value.node = integerNode v := by
  have start : Numeral.Stands {} 0 := 
    ⟨rfl, rfl, fun big => absurd big (by decide), fun _ => rfl⟩
  have value := digitsValue_decimal v.natAbs
  have stands := wholeNumeral_stands start (decimal_isdigit v.natAbs) (by
    rw [show digitsFrom 0 (decimal v.natAbs) = v.natAbs from value]
    exact small)
  rw [show digitsFrom 0 (decimal v.natAbs) = v.natAbs from value] at stands
  show (Numeral.value (NumberText.wholeNumeral (decimal v.natAbs) {}) (decide (v < 0))).node = _
  generalize NumberText.wholeNumeral (decimal v.natAbs) {} = num at stands
  have tried := stands.tryDouble
  unfold Numeral.value integerNode
  by_cases big : integerLimit < v.natAbs
  · rw [decide_eq_true big] at tried
    obtain ⟨_, same⟩ := round_natCast small
    simp only [stands.exponent, tried, stands.double big, if_neg (not_le.mpr big), ne_eq,
      not_true, if_false, if_true, decide_eq_true_eq]
    by_cases negative : v < 0
    · have opposite : -(v.natAbs : Int) = v := by omega
      rw [if_pos negative, same]
      show Node.double (.round (-((v.natAbs : ℕ) : ℚ))) = _
      rw [← Int.cast_natCast, ← Int.cast_neg, opposite]
    · have same : (v.natAbs : Int) = v := by omega
      rw [if_neg negative, ← Int.cast_natCast, same]
      rfl
  · rw [decide_eq_false big] at tried
    simp only [tried, stands.integer (not_lt.mp big), if_pos (not_lt.mp big), if_false,
      Bool.false_eq_true, decide_eq_true_eq]
    by_cases negative : v < 0
    · rw [if_pos negative, show -(v.natAbs : Int) = v by omega]
      rfl
    · rw [if_neg negative, show (v.natAbs : Int) = v by omega]
      rfl

theorem scalarText_integer {v : Int} (small : v.natAbs < 2 ^ 53) :
    ScalarText (integerNode v) (decimalInt v) := by
  rw [← integerText_value small, ← integerText_text]
  exact .number (.inr (decimal_ne_nil _)) (integerText_valid v)

theorem decimalInt_ne_nil (v : Int) : decimalInt v ≠ [] := by
  unfold decimalInt
  split
  · exact List.cons_ne_nil _ _
  · exact decimal_ne_nil _

theorem listed_concat (vs : List Int) (v : Int) :
    listed (vs ++ [v]) = listed vs ++ ((if listed vs = [] then [] else [44]) ++ decimalInt v) := by
  rw [listed, List.foldl_append]
  rfl

theorem listed_eq_nil (vs : List Int) : listed vs = [] ↔ vs = [] := by
  induction vs using List.reverseRecOn with
  | nil => simp [listed]
  | append_singleton vs v _ =>
    rw [listed_concat]
    simp [decimalInt_ne_nil]

theorem spells_listed {vs : List Int} (small : ∀ v ∈ vs, v.natAbs < 2 ^ 53) :
    Spells (.inside (.array (vs.map integerNode))) (listed vs) := by
  induction vs using List.reverseRecOn with
  | nil => exact .empty rfl
  | append_singleton vs v ih =>
    have inside := ih fun v member => small v (List.mem_append_left _ member)
    have comma : CommaText (.array (vs.map integerNode)) (if listed vs = [] then [] else [44]) := by
      unfold CommaText
      by_cases none : vs = []
      · subst none
        exact blank_nil
      · rw [if_neg (by simp [Container.length, none]), if_neg (by rwa [listed_eq_nil])]
        exact ⟨[], [], blank_nil, blank_nil, rfl⟩
    have scalar := scalarText_integer (small v (by simp))
    rw [listed_concat, List.map_append]
    exact inside.push (.element comma) (.scalar scalar)

theorem accepted_listed {vs : List Int} (small : ∀ v ∈ vs, v.natAbs < 2 ^ 53) :
    Accepted (91 :: (listed vs ++ [93])) (.array (vs.map integerNode)) :=
  ⟨[], _, [], [], by simp [Container.opening, Container.closing], blank_nil,
    @Spells.closed _ _ [] (spells_listed small) (.inl blank_nil),
    ⟨.array _, rfl⟩, blank_nil, rfl⟩

theorem toInt_ofInt {v : Int} (small : v.natAbs ≤ integerLimit) : (Int32.ofInt v).toInt = v := by
  have limit : integerLimit = 2147483559 := rfl
  exact Int32.toInt_ofInt_of_le (by omega) (by omega)

theorem integerNode_bigInt {v : Int} (small : v.natAbs < 2 ^ 53) :
    (integerNode v).getBigIntValue = some v := by
  have exact : Representable v := Double.representable_int (by
    rw [Int.abs_eq_natAbs]
    exact_mod_cast small)
  have whole : (Double.round v).toInt64 = some v := by
    rw [Double.round_exact exact, Double.toInt64_int, if_pos (by omega)]
  unfold integerNode
  split
  · rename_i fits
    rw [Node.getBigIntValue, toInt_ofInt fits, whole]
  · exact whole

theorem integerNode_int (v : Int) :
    (integerNode v).getIntValue = if v.natAbs ≤ integerLimit then v else 0 := by
  unfold integerNode
  split
  · rename_i fits
    exact toInt_ofInt fits
  · rfl

/-- Integers that a double holds are learned again from an array of their numerals: all of them as
64-bit integers, and as `int` those up to the parser's limit. The others give 0 there. -/
theorem openDocument_integers (sort : StdSort) {vs : List Int}
    (small : ∀ v ∈ vs, v.natAbs < 2 ^ 53)
    (room : (91 :: (listed vs ++ [93])).length < 2 ^ 61) :
    ∃ root, openDocument sort (91 :: (listed vs ++ [93])) = some (true, root) ∧
      root.size = some vs.length ∧
      ∀ i (inside : i < vs.length), ∃ w, root.getArrayElement i = some w ∧
        w.getBigIntValue = some vs[i] ∧
        w.getIntValue = some (if vs[i].natAbs ≤ integerLimit then vs[i] else 0) := by
  obtain ⟨root, opened, represents, bound⟩ :=
    openDocument_accepted sort room (accepted_listed small)
  refine ⟨root, opened, ?_, fun i inside => ?_⟩
  · have facts := represents.facts bound
    have size := congrArg Node.Facts.size facts
    rw [show root.size = (root.facts).size from rfl, size]
    simp [Node.facts, Node.size]
  · have within : i < (vs.map integerNode).length := by rwa [List.length_map]
    obtain ⟨w, reached, text, represents⟩ := represents.arrayElement bound within
    have facts := represents.facts (text ▸ bound)
    rw [List.getElem_map] at facts
    have bigInt := congrArg Node.Facts.bigIntValue facts
    have int := congrArg Node.Facts.intValue facts
    refine ⟨w, reached, ?_, ?_⟩
    · rw [show w.getBigIntValue = (w.facts).bigIntValue from rfl, bigInt]
      exact integerNode_bigInt (small _ (List.getElem_mem inside))
    · rw [show w.getIntValue = (w.facts).intValue from rfl, int]
      exact congrArg some (integerNode_int _)

theorem openDocument_integers_two :
    ∃ root, openDocument .merge (91 :: (listed [7, -2147483560] ++ [93])) = some (true, root) ∧
      root.size = some 2 ∧
      ∀ i (inside : i < [7, -2147483560].length), ∃ w, root.getArrayElement i = some w ∧
        w.getBigIntValue = some [7, -2147483560][i] ∧
        w.getIntValue = some (if [7, -2147483560][i].natAbs ≤ integerLimit
          then [7, -2147483560][i] else 0) :=
  openDocument_integers .merge (by decide) (by decide)

end CppMyth.Sajson
