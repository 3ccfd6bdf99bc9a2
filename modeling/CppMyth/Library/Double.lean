import Mathlib.Data.Int.Log
import Mathlib.Tactic

/-! The doubles: fifty-three bits of mantissa, and a last place of at least 2^-1074. A number is
rounded to the nearest of them, and at a midpoint to the even one. -/
namespace CppMyth.Library

def doubleLimit : ℚ := 2 ^ 1024

/-- The finite doubles; both zeros are 0. -/
def Representable (q : ℚ) : Prop :=
  |q| < doubleLimit ∧ ∃ m e : ℤ, |m| < 2 ^ 53 ∧ -1074 ≤ e ∧ q = m * 2 ^ e

inductive Double where
  | finite (value : { q : ℚ // Representable q })
  | infinite (negative : Bool)
  | nan
  deriving DecidableEq

def roundEven (x : ℚ) : ℤ := if x = ⌊x⌋ + 1 / 2 ∧ Even ⌊x⌋ then ⌊x⌋ else round x

/-- The exponent of the last place of a double next to `x`. -/
def lastPlace (x : ℚ) : ℤ := max (Int.log 2 |x| - 52) (-1074)

def rounded (x : ℚ) : ℚ := roundEven (x / 2 ^ lastPlace x) * 2 ^ lastPlace x

theorem roundEven_intCast (k : ℤ) : roundEven k = k := by
  simp [roundEven]

theorem roundEven_error (x : ℚ) : |x - roundEven x| ≤ 1 / 2 := by
  unfold roundEven
  split
  · rename_i midpoint
    have half : x - ⌊x⌋ = 1 / 2 := by linarith [midpoint.1]
    rw [half]
    norm_num
  · exact abs_sub_round x

theorem roundEven_abs_le {x : ℚ} {n : ℤ} (within : |x| ≤ n) : |roundEven x| ≤ n := by
  have near := roundEven_error x
  have apart : |(roundEven x : ℚ)| ≤ |x| + |x - roundEven x| := by
    have triangle := abs_sub x (x - roundEven x)
    rwa [sub_sub_cancel] at triangle
  have under : |(roundEven x : ℚ)| < n + 1 := by linarith
  have whole : |roundEven x| < n + 1 := by exact_mod_cast under
  omega

theorem lastPlace_scaled (x : ℚ) : |x / 2 ^ lastPlace x| ≤ ((2 ^ 53 : ℤ) : ℚ) := by
  have place : (0 : ℚ) < 2 ^ lastPlace x := by positivity
  rw [abs_div, abs_of_pos place, div_le_iff₀ place]
  have top := Int.lt_zpow_succ_log_self (b := 2) (by decide) |x|
  have higher : Int.log 2 |x| + 1 ≤ 53 + lastPlace x := by
    unfold lastPlace
    omega
  calc
    |x| ≤ 2 ^ (Int.log 2 |x| + 1) := by exact_mod_cast top.le
    _ ≤ 2 ^ (53 + lastPlace x) := zpow_le_zpow_right₀ (by norm_num) higher
    _ = ((2 ^ 53 : ℤ) : ℚ) * 2 ^ lastPlace x := by
      rw [zpow_add₀ (by norm_num)]
      norm_num

/-- A rounded number is a double: a mantissa of 2^53 is one of 2^52 one place up. -/
theorem rounded_representable {x : ℚ} (small : |rounded x| < doubleLimit) :
    Representable (rounded x) := by
  have lowest : -1074 ≤ lastPlace x := le_max_right _ _
  have mantissa := roundEven_abs_le (lastPlace_scaled x)
  refine ⟨small, ?_⟩
  rcases mantissa.lt_or_eq with inside | top
  · exact ⟨_, _, inside, lowest, rfl⟩
  · have carried : ∀ s : ℤ, roundEven (x / 2 ^ lastPlace x) = s * 2 ^ 53 →
        rounded x = ((s * 2 ^ 52 : ℤ) : ℚ) * 2 ^ (lastPlace x + 1) := by
      intro s same
      rw [rounded, same, zpow_add₀ (by norm_num)]
      push_cast
      ring
    rcases abs_eq (by norm_num : (0 : ℤ) ≤ 2 ^ 53) |>.mp top with plus | minus
    · exact ⟨_, _, by norm_num, by omega, carried 1 (by omega)⟩
    · exact ⟨_, _, by norm_num, by omega, carried (-1) (by omega)⟩

theorem rounded_of_whole {q : ℚ} (k : ℤ) (whole : q = k * 2 ^ lastPlace q) : rounded q = q := by
  have place : (2 : ℚ) ^ lastPlace q ≠ 0 := by positivity
  have scaled : q / 2 ^ lastPlace q = k := (div_eq_iff place).mpr whole
  rw [rounded, scaled, roundEven_intCast, ← whole]

/-- The last place of a double is not above its own exponent. -/
theorem lastPlace_le {m e : ℤ} (some : m ≠ 0) (bits : |m| < 2 ^ 53) (lowest : -1074 ≤ e) :
    lastPlace (m * 2 ^ e) ≤ e := by
  have place : (0 : ℚ) < 2 ^ e := by positivity
  have positive : 0 < |(m : ℚ) * 2 ^ e| := by
    rw [abs_pos]
    exact mul_ne_zero (Int.cast_ne_zero.mpr some) place.ne'
  have small : |(m : ℚ) * 2 ^ e| < ((2 : ℕ) : ℚ) ^ (53 + e) := by
    rw [abs_mul, abs_of_pos place, Nat.cast_ofNat, zpow_add₀ (by norm_num)]
    apply mul_lt_mul_of_pos_right _ place
    exact_mod_cast bits
  have log := (Int.lt_zpow_iff_log_lt (by decide) positive).mp small
  unfold lastPlace
  omega

theorem rounded_exact {q : ℚ} (h : Representable q) : rounded q = q := by
  obtain ⟨-, m, e, bits, lowest, rfl⟩ := h
  by_cases some : m = 0
  · apply rounded_of_whole 0
    simp [some]
  · have below := lastPlace_le some bits lowest
    apply rounded_of_whole (m * 2 ^ (e - lastPlace (m * 2 ^ e)).toNat)
    have places : e = (e - lastPlace (m * 2 ^ e)).toNat + lastPlace (m * 2 ^ e) := by omega
    push_cast
    rw [mul_assoc, ← zpow_natCast, ← zpow_add₀ (by norm_num), ← places]

namespace Double

def round (x : ℚ) : Double :=
  if small : |rounded x| < doubleLimit then .finite ⟨rounded x, rounded_representable small⟩
  else .infinite (x < 0)

theorem round_exact {q : ℚ} (h : Representable q) : round q = .finite ⟨q, h⟩ := by
  have same := rounded_exact h
  have small : |rounded q| < doubleLimit := by
    rw [same]
    exact h.1
  rw [round, dif_pos small]
  simp only [same]

theorem representable_int {v : ℤ} (small : |v| < 2 ^ 53) : Representable v := by
  have bits : |(v : ℚ)| < 2 ^ 53 := by exact_mod_cast small
  have limit : (2 : ℚ) ^ 53 < doubleLimit := pow_lt_pow_right₀ (by norm_num) (by norm_num)
  refine ⟨bits.trans limit, v, 0, small, by norm_num, ?_⟩
  rw [zpow_zero, mul_one]

theorem representable_zero : Representable 0 :=
  ⟨by norm_num [doubleLimit], 0, 0, by norm_num, by norm_num, by norm_num⟩

def zero : Double := .finite ⟨0, representable_zero⟩

/-- The whole part, where it fits 64 bits with a sign; elsewhere the conversion is undefined. -/
def toInt64 : Double → Option Int
  | .finite x =>
    let whole := x.1.num.tdiv x.1.den
    if -2 ^ 63 ≤ whole ∧ whole < 2 ^ 63 then some whole else none
  | .infinite _ | .nan => none

theorem toInt64_int {v : ℤ} (h : Representable v) :
    toInt64 (.finite ⟨v, h⟩) = if -2 ^ 63 ≤ v ∧ v < 2 ^ 63 then some v else none := by
  have whole : (v : ℚ).num.tdiv (v : ℚ).den = v := by
    rw [Rat.num_intCast, Rat.den_intCast]
    exact Int.tdiv_one v
  simp only [toInt64, whole]

/-- The sign of a zero is not in the model. -/
def neg : Double → Double
  | .finite x => round (-x.1)
  | .infinite negative => .infinite (!negative)
  | .nan => .nan

def add : Double → Double → Double
  | .finite x, .finite y => round (x.1 + y.1)
  | .infinite a, .infinite b => if a = b then .infinite a else .nan
  | .infinite a, .finite _ => .infinite a
  | .finite _, .infinite b => .infinite b
  | .nan, _ => .nan
  | _, .nan => .nan

def mul : Double → Double → Double
  | .finite x, .finite y => round (x.1 * y.1)
  | .infinite a, .infinite b => .infinite (a != b)
  | .infinite a, .finite y => if y.1 = 0 then .nan else .infinite (a != decide (y.1 < 0))
  | .finite x, .infinite b => if x.1 = 0 then .nan else .infinite (decide (x.1 < 0) != b)
  | .nan, _ => .nan
  | _, .nan => .nan

end Double

end CppMyth.Library
