import Mathlib.Tactic.Lemma
import QueryPayload.Proofs.Number.Ratio

/-!
# Decimals are read by their value

The binary64 number that a decimal is read as depends on the number only that the decimal stands
for, and on its sign.  A binary64 number is read back from any decimal that stands for it exactly.

## Main definitions

* `Decimal.value` — the rational number that a decimal stands for, without its sign.
* `nearestTo` — the binary64 number nearest to a rational one.
* `Binary64.signedValue` — the rational number that a finite binary64 number stands for.

## Main results

* `Decimal.nearest_eq`, `Decimal.nearest_congr` — a decimal is read by its value.
* `Binary64.nearestTo_value` — a finite number is nearest to itself.
* `Binary64.numericEq_iff` — finite numbers are compared by their values.
-/

set_option relaxedAutoImplicit false
set_option autoImplicit false

namespace QueryPayload

/-- A positive number has one digit more than its logarithm. -/
lemma digitCount_eq {n : Nat} (hn : n ≠ 0) : digitCount n = Nat.log 10 n + 1 := by
  have hten : 1 < 10 := by decide
  refine le_antisymm ?_ (Nat.succ_le_of_lt (Nat.lt_of_not_le fun hle => ?_))
  · exact (Nat.length_toDigits_le_iff hten (Nat.succ_pos _)).2 (Nat.lt_pow_succ_log_self hten n)
  · have hpos : 0 < Nat.log 10 n := Nat.lt_of_lt_of_le Nat.length_toDigits_pos hle
    have hlt := (Nat.length_toDigits_le_iff hten hpos).1 hle
    exact absurd (Nat.pow_log_le_self 10 hn) (Nat.not_le.2 hlt)

/-- The binary64 number nearest to a positive rational one with the given sign, if it is finite. -/
def nearestTo (negative : Bool) (v : ℚ) : Option Binary64 :=
  if 309 < Int.log 10 v + 1 then none
  else if Int.log 10 v + 1 < -330 then some (.zero negative)
  else if nearestMagnitudeTo v < Binary64.infinite then some ⟨negative, nearestMagnitudeTo v⟩
  else none

namespace Decimal

/-- The rational number that a decimal stands for, without its sign. -/
def value (d : Decimal) : ℚ := d.digits * (10 : ℚ) ^ d.exponent

variable {d d' : Decimal}

/-- A decimal stands for zero if its digits do. -/
lemma value_eq_zero_iff : d.value = 0 ↔ d.digits = 0 := by
  simp [value, zpow_ne_zero]

/-- The quotient that is computed with is the value of a decimal. -/
lemma value_ratio (d : Decimal) : d.ratio.value = d.value := by
  rw [ratio, Ratio.value_scale, Ratio.value, value, Nat.cast_one, div_one, Nat.cast_ofNat]

/-- The digits of a decimal and its exponent give the logarithm of its value. -/
lemma size_eq (hd : d.digits ≠ 0) :
    (digitCount d.digits : ℤ) + d.exponent = Int.log 10 d.value + 1 := by
  have hten : (1 : Nat) < 10 := by decide
  have hpow : (0 : ℚ) < (10 : ℚ) ^ d.exponent := zpow_pos (by norm_num) _
  have hpos : 0 < d.value := mul_pos (Nat.cast_pos.2 (Nat.pos_of_ne_zero hd)) hpow
  have hlow : (10 : ℚ) ^ (Nat.log 10 d.digits : ℤ) ≤ d.digits := by
    exact_mod_cast Nat.pow_log_le_self 10 hd
  have hhigh : (d.digits : ℚ) < (10 : ℚ) ^ ((Nat.log 10 d.digits : ℤ) + 1) := by
    exact_mod_cast Nat.lt_pow_succ_log_self hten d.digits
  have hlog : Int.log 10 d.value = Nat.log 10 d.digits + d.exponent := by
    refine log_eq_of_bounds hten hpos ?_ ?_
    · rw [Nat.cast_ofNat, zpow_add₀ (by norm_num), value]
      exact mul_le_mul_of_nonneg_right hlow hpow.le
    · rw [Nat.cast_ofNat, add_right_comm, zpow_add₀ (by norm_num), value]
      exact mul_lt_mul_of_pos_right hhigh hpow
  rw [hlog, digitCount_eq hd, Nat.cast_add, Nat.cast_one]
  ring

/-- **A decimal is read by its value.** -/
theorem nearest_eq (hd : d.digits ≠ 0) : d.nearest = nearestTo d.negative d.value := by
  have hnum : 0 < d.ratio.num := Ratio.num_scale_pos (by decide) (Nat.pos_of_ne_zero hd) _
  have hden : 0 < d.ratio.den := Ratio.den_scale_pos (by decide) one_pos _
  simp only [nearest, if_neg hd, size_eq hd, nearestMagnitude_eq hnum hden, value_ratio, nearestTo]

/-- Decimals with one sign and one value are read alike. -/
lemma nearest_congr (hnegative : d.negative = d'.negative) (hvalue : d.value = d'.value) :
    d.nearest = d'.nearest := by
  by_cases hd : d.digits = 0
  · have hd' : d'.digits = 0 := value_eq_zero_iff.1 (hvalue ▸ value_eq_zero_iff.2 hd)
    rw [nearest, nearest, if_pos hd, if_pos hd', hnegative]
  · have hd' : d'.digits ≠ 0 := fun h => hd (value_eq_zero_iff.1 (hvalue ▸ value_eq_zero_iff.2 h))
    rw [nearest_eq hd, nearest_eq hd', hnegative, hvalue]

/-- The sign of a decimal becomes that of the number it is read as. -/
lemma nearest_sign (negative : Bool) (d : Nat) (e : Int) :
    nearest ⟨negative, d, e⟩ =
      (nearest ⟨false, d, e⟩).map fun x => ⟨negative, x.magnitude⟩ := by
  by_cases hd : d = 0
  · subst hd
    rfl
  · have hvalue : value ⟨negative, d, e⟩ = value ⟨false, d, e⟩ := rfl
    rw [nearest_eq hd, nearest_eq hd, hvalue, nearestTo, nearestTo]
    split_ifs <;> rfl

end Decimal

/-! ## Finite numbers are nearest to themselves -/

namespace Binary64

/-- The rational number that a finite number stands for, without its sign. -/
def value (x : Binary64) : ℚ := x.significand * (2 : ℚ) ^ x.exponent

variable {x : Binary64}

/-- The number of values the fraction field can take is a power of two. -/
lemma fractionCount_eq : fractionCount = 2 ^ 52 := rfl

/-- Where the significand and the exponent of a magnitude lie: the significand fills its 53 bits, or
the exponent is the least one. -/
lemma normal_or_subnormal (x : Binary64) :
    (2 ^ 52 ≤ x.significand ∧ x.significand < 2 ^ 53 ∧ -1074 ≤ x.exponent ∧
        (x.exponent + 1074).toNat * fractionCount + x.significand = x.magnitude) ∨
      (x.significand < 2 ^ 52 ∧ x.exponent = -1074 ∧ x.significand = x.magnitude) := by
  rw [significand, exponent]
  split_ifs with h
  · exact .inr ⟨h, rfl, rfl⟩
  · have hdiv := Nat.div_add_mod x.magnitude fractionCount
    rw [fractionCount_eq] at h hdiv ⊢
    omega

/-- A finite magnitude has a bounded exponent. -/
lemma exponent_le (hx : x.isFinite = true) : x.exponent ≤ 971 := by
  rw [isFinite, decide_eq_true_eq, infinite, fractionCount_eq] at hx
  rw [exponent]
  split_ifs with h
  · decide
  · rw [fractionCount_eq]
    omega

/-- The significand of a number other than zero is positive. -/
lemma significand_pos (h : x.magnitude ≠ 0) : 0 < x.significand := by
  rcases x.normal_or_subnormal with ⟨hlow, -⟩ | ⟨-, -, heq⟩
  · exact Nat.lt_of_lt_of_le (by decide) hlow
  · omega

/-- A number other than zero has a positive value. -/
lemma value_pos (h : x.magnitude ≠ 0) : 0 < x.value :=
  mul_pos (Nat.cast_pos.2 (significand_pos h)) (zpow_pos two_pos _)

/-- A number has the value zero if its magnitude is zero. -/
lemma value_eq_zero_iff : x.value = 0 ↔ x.magnitude = 0 := by
  constructor
  · intro h
    by_contra hne
    exact (value_pos hne).ne' h
  · intro h
    simp [value, significand, h, fractionCount_eq]

/-- The values of finite numbers lie between two powers of two. -/
lemma value_bounds (hx : x.isFinite = true) (h : x.magnitude ≠ 0) :
    (2 : ℚ) ^ (-1074 : ℤ) ≤ x.value ∧ x.value < (2 : ℚ) ^ (1024 : ℤ) := by
  have hexponent : -1074 ≤ x.exponent ∧ x.exponent ≤ 971 := by
    refine ⟨?_, exponent_le hx⟩
    rcases x.normal_or_subnormal with ⟨-, -, hle, -⟩ | ⟨-, heq, -⟩ <;> omega
  have hsignificand : x.significand < 2 ^ 53 := by
    rcases x.normal_or_subnormal with ⟨-, hlt, -⟩ | ⟨hlt, -⟩ <;> omega
  have hone : (1 : ℚ) ≤ x.significand := by exact_mod_cast significand_pos h
  have hpow : (0 : ℚ) < (2 : ℚ) ^ x.exponent := zpow_pos two_pos _
  constructor
  · calc (2 : ℚ) ^ (-1074 : ℤ) ≤ (2 : ℚ) ^ x.exponent :=
          zpow_le_zpow_right₀ one_le_two hexponent.1
      _ ≤ x.significand * (2 : ℚ) ^ x.exponent := le_mul_of_one_le_left hpow.le hone
  · calc x.significand * (2 : ℚ) ^ x.exponent < (2 : ℚ) ^ (53 : ℤ) * (2 : ℚ) ^ x.exponent :=
          mul_lt_mul_of_pos_right (by exact_mod_cast hsignificand) hpow
      _ ≤ (2 : ℚ) ^ (53 : ℤ) * (2 : ℚ) ^ (971 : ℤ) :=
          mul_le_mul_of_nonneg_left (zpow_le_zpow_right₀ one_le_two hexponent.2) (by norm_num)
      _ = (2 : ℚ) ^ (1024 : ℤ) := by rw [← zpow_add₀ two_ne_zero]; norm_num

/-- **The nearest magnitude to a number is its own.**

**Proof sketch.** The spacing of the grid around the value is the exponent of the number, so that
the scaled value is the significand. -/
theorem nearestMagnitudeTo_value (h : x.magnitude ≠ 0) :
    nearestMagnitudeTo x.value = x.magnitude := by
  have hpos := value_pos h
  have hspacing : max (-1074) (Int.log 2 x.value - 52) = x.exponent := by
    rcases x.normal_or_subnormal with ⟨hlow, hhigh, hle, -⟩ | ⟨hlt, heq, -⟩
    · have hlog : Int.log 2 x.value = 52 + x.exponent := by
        have hpow : (0 : ℚ) < (2 : ℚ) ^ x.exponent := zpow_pos two_pos _
        refine log_eq_of_bounds one_lt_two hpos ?_ ?_
        · rw [Nat.cast_ofNat, zpow_add₀ two_ne_zero, value]
          exact mul_le_mul_of_nonneg_right (by exact_mod_cast hlow) hpow.le
        · rw [Nat.cast_ofNat, add_right_comm, zpow_add₀ two_ne_zero, value]
          exact mul_lt_mul_of_pos_right (by exact_mod_cast hhigh) hpow
      omega
    · have hlog : Int.log 2 x.value < 52 + -1074 := by
        refine (Int.lt_zpow_iff_log_lt one_lt_two hpos).1 ?_
        rw [Nat.cast_ofNat, zpow_add₀ two_ne_zero, value, heq]
        exact mul_lt_mul_of_pos_right (by exact_mod_cast hlt) (zpow_pos two_pos _)
      omega
  have hscaled : x.value * (2 : ℚ) ^ (-x.exponent) = x.significand := by
    rw [value, mul_assoc, ← zpow_add₀ two_ne_zero, add_neg_cancel, zpow_zero, mul_one]
  rw [nearestMagnitudeTo]
  simp only [hspacing, hscaled, roundEven_natCast]
  rcases x.normal_or_subnormal with ⟨-, -, -, heq⟩ | ⟨-, hexponent, heq⟩
  · exact heq
  · rw [hexponent, heq]
    exact Nat.zero_add _

/-- **A finite number is nearest to itself**, whichever sign it is given. -/
theorem nearestTo_value (hx : x.isFinite = true) (h : x.magnitude ≠ 0) (negative : Bool) :
    nearestTo negative x.value = some ⟨negative, x.magnitude⟩ := by
  have hpos := value_pos h
  obtain ⟨hlow, hhigh⟩ := value_bounds hx h
  -- the kernel compares the powers, which are too large to be written out
  have hten : (2 : Nat) ^ 1024 < 10 ^ 309 := by decide +kernel
  have hsmall : (2 : Nat) ^ 1074 ≤ 10 ^ 331 := by decide +kernel
  have hbelow : Int.log 10 x.value < 309 :=
    (Int.lt_zpow_iff_log_lt (by decide) hpos).1 (hhigh.trans (by exact_mod_cast hten))
  have habove : -331 ≤ Int.log 10 x.value := by
    refine (Int.zpow_le_iff_le_log (by decide) hpos).1 (le_trans ?_ hlow)
    rw [zpow_neg, zpow_neg]
    exact inv_anti₀ (zpow_pos two_pos _) (by exact_mod_cast hsmall)
  have hfinite : x.magnitude < infinite := of_decide_eq_true hx
  rw [nearestTo, if_neg (by omega), if_neg (by omega), nearestMagnitudeTo_value h, if_pos hfinite]

/-! ## Finite numbers are compared by their values -/

variable {y : Binary64}

/-- The rational number that a finite number stands for. -/
def signedValue (x : Binary64) : ℚ := if x.negative then -x.value else x.value

/-- A number stands for zero if its magnitude is zero. -/
lemma signedValue_eq_zero_iff : x.signedValue = 0 ↔ x.magnitude = 0 := by
  rw [← value_eq_zero_iff, signedValue]
  split_ifs <;> simp

/-- **Finite numbers are compared as numbers.**

**Proof sketch.** The value determines the magnitude, which is the nearest one to it
(`nearestMagnitudeTo_value`), and the sign, unless it is zero. -/
theorem numericEq_iff (hx : x.isFinite = true) (hy : y.isFinite = true) :
    x.numericEq y = true ↔ x.signedValue = y.signedValue := by
  have hnan : ∀ {z : Binary64}, z.isFinite = true → z.isNaN = false := by
    intro z hz
    rw [isFinite, decide_eq_true_eq] at hz
    exact decide_eq_false hz.not_gt
  have hvalue : x.magnitude = y.magnitude → x.value = y.value := fun h => by
    rw [value, value, significand, significand, exponent, exponent, h]
  simp only [numericEq, hnan hx, hnan hy, Bool.not_false, Bool.true_and, Bool.and_eq_true,
    Bool.or_eq_true, beq_iff_eq]
  constructor
  · rintro ⟨hmagnitude, hsign | hzero⟩
    · rw [signedValue, signedValue, hsign, hvalue hmagnitude]
    · rw [signedValue_eq_zero_iff.2 hzero, signedValue_eq_zero_iff.2 (hmagnitude ▸ hzero)]
  · intro h
    by_cases hx0 : x.magnitude = 0
    · have hy0 : y.magnitude = 0 := by
        rw [← signedValue_eq_zero_iff, ← h, signedValue_eq_zero_iff, hx0]
      exact ⟨hx0.trans hy0.symm, .inr hx0⟩
    · have hy0 : y.magnitude ≠ 0 := by
        rwa [Ne, ← signedValue_eq_zero_iff, ← h, signedValue_eq_zero_iff]
      have hxpos := value_pos hx0
      have hypos := value_pos hy0
      obtain ⟨hsign, hvalues⟩ : x.negative = y.negative ∧ x.value = y.value := by
        rw [signedValue, signedValue] at h
        cases hxn : x.negative <;> cases hyn : y.negative <;>
          simp only [hxn, hyn, if_true, Bool.false_eq_true, if_false] at h
        · exact ⟨rfl, h⟩
        · linarith
        · linarith
        · exact ⟨rfl, neg_injective h⟩
      refine ⟨?_, .inl hsign⟩
      rw [← nearestMagnitudeTo_value hx0, hvalues, nearestMagnitudeTo_value hy0]

end Binary64

end QueryPayload
