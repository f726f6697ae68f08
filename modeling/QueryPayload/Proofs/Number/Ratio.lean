import Mathlib.Algebra.Order.Floor.Semifield
import Mathlib.Data.Int.Log
import Mathlib.Data.Rat.Floor
import Mathlib.Tactic.FieldSimp
import Mathlib.Tactic.Lemma
import Mathlib.Tactic.Linarith
import Mathlib.Tactic.Ring
import QueryPayload.Number.Conversion

/-!
# Quotients as rational numbers

What is computed from a quotient of natural numbers depends on the rational number only that it
stands for, and not on how it is written as a quotient.

## Main definitions

* `Ratio.value` — the rational number.
* `roundEven` — the natural number nearest to a rational one; of two, the even one.
* `nearestMagnitudeTo` — the magnitude of the binary64 number nearest to a rational one.

## Main results

* `Ratio.value_scale`, `Ratio.value_mul`, `Ratio.value_div`, `Ratio.floorLog2_eq_log`,
  `Ratio.roundDiv_eq_roundEven` — the operations on quotients.
* `Decimal.nearestMagnitude_eq` — the nearest binary64 number.
-/

set_option relaxedAutoImplicit false
set_option autoImplicit false

namespace QueryPayload

/-- A power that is at most a number, with the next one above the number, tells the logarithm. -/
lemma log_eq_of_bounds {b : Nat} (hb : 1 < b) {v : ℚ} (hv : 0 < v) {k : ℤ}
    (hlow : (b : ℚ) ^ k ≤ v) (hhigh : v < (b : ℚ) ^ (k + 1)) : Int.log b v = k := by
  have hle := (Int.zpow_le_iff_le_log hb hv).1 hlow
  have hlt := (Int.lt_zpow_iff_log_lt hb hv).1 hhigh
  omega

namespace Ratio

/-- The rational number that a quotient stands for. -/
def value (r : Ratio) : ℚ := r.num / r.den

variable {r : Ratio} {b : Nat}

/-- A quotient with a positive numerator stands for a positive number. -/
lemma value_pos (hnum : 0 < r.num) (hden : 0 < r.den) : 0 < r.value :=
  div_pos (Nat.cast_pos.2 hnum) (Nat.cast_pos.2 hden)

/-- A quotient that stands for a positive number has a positive numerator and denominator. -/
lemma pos_of_value_pos (h : 0 < r.value) : 0 < r.num ∧ 0 < r.den := by
  refine ⟨Nat.pos_of_ne_zero fun hnum => ?_, Nat.pos_of_ne_zero fun hden => ?_⟩
  · simp [value, hnum] at h
  · simp [value, hden] at h

/-- A scaled quotient has a positive denominator if the quotient has. -/
lemma den_scale_pos (hb : 0 < b) (hden : 0 < r.den) (e : Int) : 0 < (r.scale b e).den := by
  cases e with
  | ofNat n => exact hden
  | negSucc n => exact Nat.mul_pos hden (Nat.pow_pos hb)

/-- A scaled quotient has a positive numerator if the quotient has. -/
lemma num_scale_pos (hb : 0 < b) (hnum : 0 < r.num) (e : Int) : 0 < (r.scale b e).num := by
  cases e with
  | ofNat n => exact Nat.mul_pos hnum (Nat.pow_pos hb)
  | negSucc n => exact hnum

/-- Scaling a quotient multiplies it by a power. -/
lemma value_scale (r : Ratio) (b : Nat) (e : Int) :
    (r.scale b e).value = r.value * (b : ℚ) ^ e := by
  cases e with
  | ofNat n =>
    simp only [scale, value, Nat.pow_eq, Nat.cast_mul, Nat.cast_pow, Int.ofNat_eq_natCast,
      zpow_natCast]
    ring
  | negSucc n =>
    simp only [scale, value, Nat.pow_eq, Nat.cast_mul, Nat.cast_pow, zpow_negSucc]
    rw [div_mul_eq_div_div, div_eq_mul_inv]

/-- Quotients are multiplied as the numbers they stand for. -/
lemma value_mul (r s : Ratio) : (r.mul s).value = r.value * s.value := by
  rw [mul, value, value, value, Nat.cast_mul, Nat.cast_mul, div_mul_div_comm]

/-- Quotients are divided as the numbers they stand for. -/
lemma value_div (r s : Ratio) : (r.div s).value = r.value / s.value := by
  rw [div, value, value, value, Nat.cast_mul, Nat.cast_mul, div_div_div_eq]

/-- Whether a power is at most a quotient. -/
lemma atLeastPow_iff (hb : 0 < b) (hden : 0 < r.den) {e : Int} :
    r.atLeastPow b e = true ↔ (b : ℚ) ^ e ≤ r.value := by
  have hpow : (0 : ℚ) < (b : ℚ) ^ e := zpow_pos (Nat.cast_pos.2 hb) e
  have hscaled := den_scale_pos hb hden (-e)
  have hvalue := value_scale r b (-e)
  rw [value, zpow_neg, ← div_eq_mul_inv] at hvalue
  rw [atLeastPow, decide_eq_true_eq, ← one_le_div hpow, ← hvalue,
    one_le_div (Nat.cast_pos.2 hscaled), Nat.cast_le]

/-- The logarithms of numerator and denominator give that of a quotient, up to one. -/
lemma bounds_of_log2 (hnum : 0 < r.num) (hden : 0 < r.den) :
    (2 : ℚ) ^ ((r.num.log2 : ℤ) - r.den.log2 - 1) ≤ r.value ∧
      r.value < (2 : ℚ) ^ ((r.num.log2 : ℤ) - r.den.log2 + 1) := by
  have hden' : (0 : ℚ) < r.den := Nat.cast_pos.2 hden
  have hpow : ∀ e : ℤ, (0 : ℚ) < 2 ^ e := fun e => zpow_pos (by norm_num) e
  have hnumLow : (2 : ℚ) ^ (r.num.log2 : ℤ) ≤ r.num := by
    exact_mod_cast Nat.log2_self_le (Nat.pos_iff_ne_zero.1 hnum)
  have hnumHigh : (r.num : ℚ) < 2 ^ ((r.num.log2 : ℤ) + 1) := by
    exact_mod_cast Nat.lt_log2_self
  have hdenLow : (2 : ℚ) ^ (r.den.log2 : ℤ) ≤ r.den := by
    exact_mod_cast Nat.log2_self_le (Nat.pos_iff_ne_zero.1 hden)
  have hdenHigh : (r.den : ℚ) < 2 ^ ((r.den.log2 : ℤ) + 1) := by
    exact_mod_cast Nat.lt_log2_self
  have hlow : (r.num.log2 : ℤ) - r.den.log2 - 1 = r.num.log2 - (r.den.log2 + 1) := by ring
  have hhigh : (r.num.log2 : ℤ) - r.den.log2 + 1 = r.num.log2 + 1 - r.den.log2 := by ring
  rw [value, hlow, hhigh, zpow_sub₀ two_ne_zero, zpow_sub₀ two_ne_zero]
  exact ⟨div_le_div₀ (Nat.cast_nonneg _) hnumLow hden' hdenHigh.le,
    div_lt_div₀ hnumHigh hdenLow (hpow _).le (hpow _)⟩

/-- **The exponent of the largest power of two that is at most a quotient** is the logarithm of the
number it stands for. -/
theorem floorLog2_eq_log (hnum : 0 < r.num) (hden : 0 < r.den) :
    r.floorLog2 = Int.log 2 r.value := by
  obtain ⟨hlow, hhigh⟩ := bounds_of_log2 hnum hden
  have hpos := value_pos hnum hden
  have hiff := atLeastPow_iff (b := 2) two_pos hden (e := (r.num.log2 : ℤ) - r.den.log2)
  rw [floorLog2]
  split_ifs with h
  · exact (log_eq_of_bounds one_lt_two hpos (hiff.1 h) (by exact_mod_cast hhigh)).symm
  · refine (log_eq_of_bounds one_lt_two hpos (by exact_mod_cast hlow) ?_).symm
    rw [sub_add_cancel]
    exact lt_of_not_ge fun hle => h (hiff.2 hle)

end Ratio

/-- The natural number nearest to a rational one; of two, the even one. -/
def roundEven (v : ℚ) : Nat :=
  if v - ⌊v⌋₊ < 1 / 2 then ⌊v⌋₊
  else if 1 / 2 < v - ⌊v⌋₊ then ⌊v⌋₊ + 1
  else if ⌊v⌋₊ % 2 = 0 then ⌊v⌋₊ else ⌊v⌋₊ + 1

/-- A natural number is nearest to itself. -/
lemma roundEven_natCast (n : Nat) : roundEven n = n := by
  rw [roundEven, Nat.floor_natCast, sub_self, if_pos (by norm_num)]

namespace Ratio

variable {r : Ratio}

/-- The integer nearest to a quotient is that nearest to the number it stands for. -/
theorem roundDiv_eq_roundEven (hden : 0 < r.den) : r.roundDiv = roundEven r.value := by
  have hden' : (0 : ℚ) < r.den := Nat.cast_pos.2 hden
  have hfloor : ⌊r.value⌋₊ = r.num / r.den := Nat.floor_div_eq_div _ _
  have hfraction : r.value - (r.num / r.den : Nat) = (r.num % r.den : Nat) / r.den := by
    have hsplit : (r.num : ℚ) = r.den * (r.num / r.den : Nat) + (r.num % r.den : Nat) := by
      exact_mod_cast (Nat.div_add_mod r.num r.den).symm
    rw [value, eq_div_iff hden'.ne', sub_mul, div_mul_cancel₀ _ hden'.ne']
    linarith
  have hbelow : ((r.num % r.den : Nat) : ℚ) / r.den < 1 / 2 ↔ 2 * (r.num % r.den) < r.den := by
    rw [div_lt_div_iff₀ hden' two_pos]
    norm_cast
    rw [one_mul, mul_comm]
  have habove : 1 / 2 < ((r.num % r.den : Nat) : ℚ) / r.den ↔ r.den < 2 * (r.num % r.den) := by
    rw [div_lt_div_iff₀ two_pos hden']
    norm_cast
    rw [one_mul, mul_comm]
  simp only [roundDiv, roundEven, hfloor, hfraction, hbelow, habove]

end Ratio

/-- The magnitude of the binary64 number nearest to a positive rational one. -/
def nearestMagnitudeTo (v : ℚ) : Nat :=
  let q : Int := max (-1074) (Int.log 2 v - 52)
  (q + 1074).toNat * Binary64.fractionCount + roundEven (v * (2 : ℚ) ^ (-q))

/-- **The nearest magnitude depends on the number only that a quotient stands for.** -/
theorem Decimal.nearestMagnitude_eq {r : Ratio} (hnum : 0 < r.num) (hden : 0 < r.den) :
    nearestMagnitude r = nearestMagnitudeTo r.value := by
  have hscaled : ∀ e, 0 < (r.scale 2 e).den := Ratio.den_scale_pos two_pos hden
  simp only [nearestMagnitude, nearestMagnitudeTo, Ratio.floorLog2_eq_log hnum hden,
    Ratio.roundDiv_eq_roundEven (hscaled _), Ratio.value_scale, Nat.cast_ofNat]

end QueryPayload
