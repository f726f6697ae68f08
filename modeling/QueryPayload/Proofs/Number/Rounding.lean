import Mathlib.Tactic.Lemma
import QueryPayload.Proofs.Number.Nearest

/-!
# Rounding a quotient

A quotient is rounded to the binary64 number nearest to it.  The rounded number is off by at most
`2 ^ (-53)` of the quotient, unless this is too small or beyond the finite numbers, and it is the
quotient itself if that has no more than 53 bits.

## Main definitions

* `Within` — a number lies between two multiples of another one.
* `Grid` — the spacing of the binary64 numbers around a number.
* `Binary64.largest` — the greatest finite number.

## Main results

* `Binary64.value_nearestMagnitudeTo` — the value of the nearest magnitude.
* `Binary64.isFinite_round`, `Binary64.within_round`, `Binary64.value_round_eq` — rounding once.
-/

set_option relaxedAutoImplicit false
set_option autoImplicit false

namespace QueryPayload

/-! ## Rounding to an integer -/

section

variable {v : ℚ} {n : Nat}

/-- Rounding to an integer is off by one half at most. -/
lemma abs_roundEven_sub_le (hv : 0 ≤ v) : |(roundEven v : ℚ) - v| ≤ 1 / 2 := by
  have hlow := Nat.floor_le hv
  have hhigh := Nat.lt_floor_add_one v
  rw [roundEven, abs_le]
  split_ifs <;> push_cast <;> constructor <;> linarith

/-- Rounding does not pass an integer on the way up. -/
lemma roundEven_le (hv : 0 ≤ v) (h : v ≤ n) : roundEven v ≤ n := by
  have hclose := (abs_le.1 (abs_roundEven_sub_le hv)).2
  have hlt : (roundEven v : ℚ) < (n + 1 : Nat) := by
    push_cast
    linarith
  exact Nat.lt_succ_iff.1 (Nat.cast_lt.1 hlt)

/-- Rounding does not pass an integer on the way down. -/
lemma le_roundEven (h : (n : ℚ) ≤ v) : n ≤ roundEven v := by
  have hclose := (abs_le.1 (abs_roundEven_sub_le ((Nat.cast_nonneg n).trans h))).1
  have hlt : (n : ℚ) < (roundEven v + 1 : Nat) := by
    push_cast
    linarith
  exact Nat.lt_succ_iff.1 (Nat.cast_lt.1 hlt)

end

/-! ## Numbers close to each other -/

/-- A number lies between two multiples of another one. -/
def Within (a b x v : ℚ) : Prop := a * v ≤ x ∧ x ≤ b * v

namespace Within

variable {a b c d x v y w : ℚ}

/-- A number that is off by little from one that is itself off. -/
lemma trans (h : Within a b x v) (h' : Within c d y x) (hc : 0 ≤ c) (hd : 0 ≤ d) :
    Within (c * a) (d * b) y v := by
  constructor
  · calc c * a * v = c * (a * v) := mul_assoc c a v
      _ ≤ c * x := mul_le_mul_of_nonneg_left h.1 hc
      _ ≤ y := h'.1
  · calc y ≤ d * x := h'.2
      _ ≤ d * (b * v) := mul_le_mul_of_nonneg_left h.2 hd
      _ = d * b * v := (mul_assoc d b v).symm

/-- Products of numbers that are off. -/
lemma mul (h : Within a b x v) (h' : Within c d y w) (hav : 0 ≤ a * v) (hcw : 0 ≤ c * w) :
    Within (a * c) (b * d) (x * y) (v * w) := by
  have hx : 0 ≤ x := hav.trans h.1
  have hy : 0 ≤ y := hcw.trans h'.1
  constructor
  · calc a * c * (v * w) = a * v * (c * w) := mul_mul_mul_comm a c v w
      _ ≤ x * y := mul_le_mul h.1 h'.1 hcw hx
  · calc x * y ≤ b * v * (d * w) := mul_le_mul h.2 h'.2 hy (hx.trans h.2)
      _ = b * d * (v * w) := mul_mul_mul_comm b v d w

/-- Multiples further apart. -/
lemma mono (h : Within a b x v) (hv : 0 ≤ v) (hca : c ≤ a) (hbd : b ≤ d) : Within c d x v :=
  ⟨(mul_le_mul_of_nonneg_right hca hv).trans h.1, h.2.trans (mul_le_mul_of_nonneg_right hbd hv)⟩

end Within

namespace Binary64

/-- How far rounding may be off, as a part of the number. -/
def roundoff : ℚ := 1 / 2 ^ 53

end Binary64

/-! ## The grid around a number -/

/-- The spacing of the grid of binary64 numbers around a positive number is `2 ^ q`. -/
structure Grid (v : ℚ) (q : ℤ) : Prop where
  least : -1074 ≤ q
  above : v < (2 : ℚ) ^ (q + 53)
  below : q = -1074 ∨ (2 : ℚ) ^ (q + 52) ≤ v

namespace Grid

variable {v : ℚ} {q : ℤ}

/-- The spacing that rounding goes by. -/
lemma of_pos (hv : 0 < v) : Grid v (max (-1074) (Int.log 2 v - 52)) where
  least := le_max_left _ _
  above := by
    refine (Int.lt_zpow_iff_log_lt one_lt_two hv).2 ?_
    omega
  below := by
    rcases le_total (Int.log 2 v - 52) (-1074) with h | h
    · exact .inl (max_eq_left h)
    · rw [max_eq_right h, sub_add_cancel]
      exact .inr (Int.zpow_log_le_self one_lt_two hv)

/-- In units of the spacing, a number lies below `2 ^ 53`, and not below `2 ^ 52` unless the spacing
is the least one. -/
lemma scaled (h : Grid v q) :
    v * (2 : ℚ) ^ (-q) < (2 ^ 53 : Nat) ∧ (q = -1074 ∨ ((2 ^ 52 : Nat) : ℚ) ≤ v * 2 ^ (-q)) := by
  have hpow : (0 : ℚ) < 2 ^ (-q) := zpow_pos two_pos _
  have hunits : ∀ k : ℤ, (2 : ℚ) ^ (q + k) * 2 ^ (-q) = 2 ^ k := fun k => by
    rw [← zpow_add₀ two_ne_zero, add_neg_cancel_comm]
  refine ⟨?_, h.below.imp_right fun hlow => ?_⟩
  · calc v * (2 : ℚ) ^ (-q) < 2 ^ (q + 53) * 2 ^ (-q) := mul_lt_mul_of_pos_right h.above hpow
      _ = (2 ^ 53 : Nat) := by rw [hunits]; norm_cast
  · calc ((2 ^ 52 : Nat) : ℚ) = 2 ^ (q + 52) * 2 ^ (-q) := by rw [hunits]; norm_cast
      _ ≤ v * 2 ^ (-q) := mul_le_mul_of_nonneg_right hlow hpow.le

end Grid

namespace Binary64

/-- A magnitude that is put together from a spacing and a multiple of it has the value of that
multiple.

**Proof sketch.** A multiple `2 ^ 53` belongs to the next spacing, of which it is the multiple
`2 ^ 52`. -/
lemma value_of_grid (negative : Bool) {q : ℤ} {r : Nat} (hq : -1074 ≤ q) (hr : r ≤ 2 ^ 53)
    (hnormal : q = -1074 ∨ 2 ^ 52 ≤ r) :
    value ⟨negative, (q + 1074).toNat * fractionCount + r⟩ = r * (2 : ℚ) ^ q := by
  obtain ⟨k, rfl⟩ : ∃ k : Nat, q = k - 1074 := ⟨(q + 1074).toNat, by omega⟩
  have hspacing : ((k : ℤ) - 1074 + 1074).toNat = k := by omega
  simp only [value, significand, exponent, hspacing, fractionCount_eq]
  rcases Nat.lt_or_ge r (2 ^ 52) with hsmall | hlarge
  -- below the least normal number the magnitude is the multiple
  · obtain rfl : k = 0 := by omega
    rw [Nat.zero_mul, Nat.zero_add, if_pos hsmall, if_pos hsmall]
    rfl
  · have hge : ¬ k * 2 ^ 52 + r < 2 ^ 52 := by omega
    rw [if_neg hge, if_neg hge]
    rcases Nat.lt_or_ge r (2 ^ 53) with hlt | hge
    · have hdiv : (k * 2 ^ 52 + r) / 2 ^ 52 = k + 1 := by omega
      have hmod : 2 ^ 52 + (k * 2 ^ 52 + r) % 2 ^ 52 = r := by omega
      have hexponent : ((k + 1 : Nat) : ℤ) - 1075 = k - 1074 := by omega
      rw [hdiv, hmod, hexponent]
    · obtain rfl : r = 2 ^ 53 := by omega
      have hdiv : (k * 2 ^ 52 + 2 ^ 53) / 2 ^ 52 = k + 2 := by omega
      have hmod : 2 ^ 52 + (k * 2 ^ 52 + 2 ^ 53) % 2 ^ 52 = 2 ^ 52 := by omega
      have hexponent : ((k + 2 : Nat) : ℤ) - 1075 = 1 + (k - 1074) := by omega
      rw [hdiv, hmod, hexponent, zpow_add₀ two_ne_zero, ← mul_assoc]
      norm_num

variable {v : ℚ} {x y : Binary64}

/-- The nearest magnitude has the value of a multiple of the spacing, which is the rounded one. -/
lemma value_nearestMagnitudeTo (negative : Bool) (hv : 0 < v) :
    ∃ q, Grid v q ∧ value ⟨negative, nearestMagnitudeTo v⟩ =
      roundEven (v * (2 : ℚ) ^ (-q)) * 2 ^ q := by
  have hgrid := Grid.of_pos hv
  obtain ⟨habove, hbelow⟩ := hgrid.scaled
  have hpos : 0 ≤ v * (2 : ℚ) ^ (-max (-1074) (Int.log 2 v - 52)) :=
    mul_nonneg hv.le (zpow_pos two_pos _).le
  exact ⟨_, hgrid, value_of_grid negative hgrid.least (roundEven_le hpos habove.le)
    (hbelow.imp_right le_roundEven)⟩

/-! ## The greatest finite number -/

/-- The greatest finite number. -/
def largest : ℚ := (2 ^ 53 - 1 : Nat) * (2 : ℚ) ^ (971 : ℤ)

/-- The greatest finite number is below the next power of two. -/
lemma largest_lt : largest < (2 : ℚ) ^ (1024 : ℤ) := by
  have hlt : ((2 ^ 53 - 1 : Nat) : ℚ) < 2 ^ (53 : ℤ) := by
    rw [show ((2 : ℚ) ^ (53 : ℤ)) = (2 ^ 53 : Nat) by norm_cast]
    exact Nat.cast_lt.2 (by decide)
  calc largest < (2 : ℚ) ^ (53 : ℤ) * 2 ^ (971 : ℤ) :=
        mul_lt_mul_of_pos_right hlt (zpow_pos two_pos _)
    _ = 2 ^ (1024 : ℤ) := by rw [← zpow_add₀ two_ne_zero]; rfl

/-- Finite numbers are not above the greatest one. -/
lemma value_le_largest (hx : x.isFinite = true) : x.value ≤ largest := by
  have hsignificand : x.significand ≤ 2 ^ 53 - 1 := by
    rcases x.normal_or_subnormal with ⟨-, hlt, -⟩ | ⟨hlt, -⟩ <;> omega
  exact mul_le_mul (Nat.cast_le.2 hsignificand)
    (zpow_le_zpow_right₀ one_le_two (exponent_le hx)) (zpow_pos two_pos _).le (Nat.cast_nonneg _)

/-- A number that is not above the greatest finite one has a finite nearest magnitude.

**Proof sketch.** The spacing is at most `2 ^ 971`.  Below that, rounding up reaches a power of two
that is still finite; and there, it stops at the greatest multiple. -/
lemma nearestMagnitudeTo_lt_infinite (hv : 0 < v) (h : v ≤ largest) :
    nearestMagnitudeTo v < infinite := by
  have hgrid := Grid.of_pos hv
  have hlog : Int.log 2 v < 1024 :=
    (Int.lt_zpow_iff_log_lt one_lt_two hv).1 (h.trans_lt largest_lt)
  have hspacing : max (-1074) (Int.log 2 v - 52) ≤ 971 := by omega
  simp only [nearestMagnitudeTo, infinite, fractionCount_eq]
  generalize max (-1074) (Int.log 2 v - 52) = q at hgrid hspacing ⊢
  have hpos : 0 ≤ v * (2 : ℚ) ^ (-q) := mul_nonneg hv.le (zpow_pos two_pos _).le
  rcases hspacing.lt_or_eq with hlt | rfl
  · have hround := roundEven_le hpos hgrid.scaled.1.le
    omega
  · have hscaled : v * (2 : ℚ) ^ (-(971 : ℤ)) ≤ (2 ^ 53 - 1 : Nat) := by
      rw [zpow_neg, ← div_eq_mul_inv, div_le_iff₀ (zpow_pos two_pos _)]
      exact h
    have hround := roundEven_le hpos hscaled
    omega

/-- A number that is not too small is off by little from the value of its nearest magnitude. -/
lemma within_nearestMagnitudeTo (negative : Bool) (h : (2 : ℚ) ^ (-1022 : ℤ) ≤ v) :
    Within (1 - roundoff) (1 + roundoff) (value ⟨negative, nearestMagnitudeTo v⟩) v := by
  have hv : 0 < v := (zpow_pos two_pos _).trans_le h
  obtain ⟨q, hgrid, hvalue⟩ := value_nearestMagnitudeTo negative hv
  have hpow : (0 : ℚ) < 2 ^ q := zpow_pos two_pos _
  have hunits : v * (2 : ℚ) ^ (-q) * 2 ^ q = v := by
    rw [mul_assoc, ← zpow_add₀ two_ne_zero, neg_add_cancel, zpow_zero, mul_one]
  have hspacing : (2 : ℚ) ^ q * 2 ^ 52 ≤ v := by
    have hlow : (2 : ℚ) ^ (q + 52) ≤ v := hgrid.below.elim (fun hq => by rwa [hq]) id
    rwa [zpow_add₀ two_ne_zero] at hlow
  obtain ⟨hlow, hhigh⟩ :=
    abs_le.1 (abs_roundEven_sub_le (mul_nonneg hv.le (zpow_pos two_pos (-q)).le))
  have hbelow : (v * (2 : ℚ) ^ (-q) - 1 / 2) * 2 ^ q ≤
      roundEven (v * (2 : ℚ) ^ (-q)) * 2 ^ q :=
    mul_le_mul_of_nonneg_right (by linarith) hpow.le
  have habove : roundEven (v * (2 : ℚ) ^ (-q)) * 2 ^ q ≤
      (v * (2 : ℚ) ^ (-q) + 1 / 2) * 2 ^ q :=
    mul_le_mul_of_nonneg_right (by linarith) hpow.le
  rw [sub_mul, hunits] at hbelow
  rw [add_mul, hunits] at habove
  rw [hvalue]
  constructor
  · calc (1 - roundoff) * v ≤ v - 1 / 2 * 2 ^ q := by rw [roundoff]; linarith
      _ ≤ _ := hbelow
  · calc _ ≤ v + 1 / 2 * (2 : ℚ) ^ q := habove
      _ ≤ (1 + roundoff) * v := by rw [roundoff]; linarith

/-! ## Rounding a quotient -/

variable {r : Ratio}

/-- The value of a finite number is computed exactly. -/
lemma value_ratio (x : Binary64) : x.ratio.value = x.value := by
  rw [ratio, Ratio.value_scale, Ratio.value, value, Nat.cast_one, div_one, Nat.cast_ofNat]

/-- A positive quotient is rounded to its nearest magnitude, or to infinity. -/
lemma magnitude_round (hr : 0 < r.value) :
    (round r).magnitude = min infinite (nearestMagnitudeTo r.value) := by
  obtain ⟨hnum, hden⟩ := Ratio.pos_of_value_pos hr
  rw [round, if_neg hnum.ne', Decimal.nearestMagnitude_eq hnum hden]

/-- A quotient for zero is rounded to zero. -/
lemma round_eq_zero (h : r.num = 0) : round r = .zero false := by
  rw [round, if_pos h]
  rfl

/-- A quotient that is not above the greatest finite number is rounded to a finite one. -/
lemma isFinite_round (hden : 0 < r.den) (h : r.value ≤ largest) : (round r).isFinite = true := by
  rcases Nat.eq_zero_or_pos r.num with hzero | hnum
  · rw [round_eq_zero hzero]
    rfl
  · have hr := Ratio.value_pos hnum hden
    rw [isFinite, decide_eq_true_eq, magnitude_round hr]
    exact min_lt_of_right_lt (nearestMagnitudeTo_lt_infinite hr h)

/-- A finite number that a positive quotient is rounded to is its nearest magnitude. -/
lemma round_eq_of_isFinite (hr : 0 < r.value) (h : (round r).isFinite = true) :
    round r = ⟨false, nearestMagnitudeTo r.value⟩ := by
  have hmagnitude := magnitude_round hr
  rw [isFinite, decide_eq_true_eq] at h
  have hsame : (round r).magnitude = nearestMagnitudeTo r.value := by omega
  rw [← hsame]
  rfl

/-- **Rounding is off by little**, unless the number is too small or too large. -/
theorem within_round (h : (2 : ℚ) ^ (-1022 : ℤ) ≤ r.value) (hfinite : (round r).isFinite = true) :
    Within (1 - roundoff) (1 + roundoff) (round r).value r.value := by
  rw [round_eq_of_isFinite ((zpow_pos two_pos _).trans_le h) hfinite]
  exact within_nearestMagnitudeTo false h

/-- The quotient of a finite number has a positive denominator. -/
lemma den_ratio_pos (x : Binary64) : 0 < x.ratio.den := Ratio.den_scale_pos two_pos one_pos _

/-- A quotient by a number that is one at least stays finite. -/
lemma isFinite_div (hx : x.isFinite = true) (hy : 1 ≤ y.value) : (x.div y).isFinite = true := by
  have hnum : 0 < y.ratio.num :=
    (Ratio.pos_of_value_pos (by rw [value_ratio]; exact zero_lt_one.trans_le hy)).1
  refine isFinite_round (Nat.mul_pos x.den_ratio_pos hnum) ?_
  rw [Ratio.value_div, value_ratio, value_ratio]
  have hpos : 0 ≤ x.value := mul_nonneg (Nat.cast_nonneg _) (zpow_pos two_pos _).le
  exact (div_le_self hpos hy).trans (value_le_largest hx)

/-- **Numbers of 53 bits are rounded to themselves.** -/
theorem value_round_eq {n : Nat} {j : ℤ} (hn : 0 < n) (hbits : n < 2 ^ 53) (hj : -1074 ≤ j)
    (hr : r.value = n * (2 : ℚ) ^ j) (hfinite : (round r).isFinite = true) :
    (round r).value = r.value := by
  have hpos : 0 < r.value := hr ▸ mul_pos (Nat.cast_pos.2 hn) (zpow_pos two_pos _)
  obtain ⟨q, hgrid, hvalue⟩ := value_nearestMagnitudeTo false hpos
  have hspacing : q ≤ j := by
    rcases hgrid.below with rfl | hbelow
    · exact hj
    · have hlt : (2 : ℚ) ^ (q + 52) < 2 ^ (53 + j) := by
        rw [zpow_add₀ two_ne_zero 53, hr] at *
        refine hbelow.trans_lt (mul_lt_mul_of_pos_right ?_ (zpow_pos two_pos _))
        exact_mod_cast hbits
      have := (zpow_lt_zpow_iff_right₀ one_lt_two).1 hlt
      omega
  obtain ⟨d, rfl⟩ : ∃ d : Nat, j = q + d := ⟨(j - q).toNat, by omega⟩
  have hscaled : r.value * (2 : ℚ) ^ (-q) = (n * 2 ^ d : Nat) := by
    rw [hr, mul_assoc, ← zpow_add₀ two_ne_zero, add_neg_cancel_comm]
    push_cast
    rw [zpow_natCast]
  rw [round_eq_of_isFinite hpos hfinite, hvalue, hscaled, roundEven_natCast, hr,
    zpow_add₀ two_ne_zero]
  push_cast
  rw [zpow_natCast]
  ring

end Binary64

end QueryPayload
