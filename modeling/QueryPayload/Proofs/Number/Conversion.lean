import Mathlib.Tactic.Lemma
import Mathlib.Tactic.Positivity
import QueryPayload.Proofs.Number.Rounding

/-!
# How far the conversion of numerals is off

The conversion of a scaled significand rounds three times: the significand, the power of ten, and
their product or quotient.  What it comes to is always finite and close to the number meant, though
not always the nearest one.

## Main results

* `Scaled.isFinite_of_float?` — what a significand of 64 bits is converted to is finite.
* `Scaled.within_of_float?`, `Scaled.exists_float?` — with a power of ten that is not negative, the
  conversion is close to the number, and is not out of range up to `10 ^ 308`.
* `Scaled.float?_eq_nearest` — with few digits and a small power of ten it is the nearest number.
-/

set_option relaxedAutoImplicit false
set_option autoImplicit false

namespace QueryPayload

namespace Binary64

/-! ## Powers of ten -/

variable {x : Binary64} {k : Nat}

/-- There is room above the powers of ten at hand. -/
lemma ten_pow_mul_le_largest : 3 / 2 * (10 : ℚ) ^ maxPower ≤ largest := by
  -- the kernel compares the powers, which are too large to be written out
  have hnat : 3 * 10 ^ 308 ≤ 2 * ((2 ^ 53 - 1) * 2 ^ 971) := by decide +kernel
  have hcast : 3 * (10 : ℚ) ^ 308 ≤ 2 * ((2 ^ 53 - 1 : Nat) * 2 ^ 971) := by exact_mod_cast hnat
  rw [div_mul_eq_mul_div, div_le_iff₀ two_pos, mul_comm largest]
  exact hcast

/-- The quotient for a natural number. -/
lemma value_natCast (n : Nat) : Ratio.value ⟨n, 1⟩ = n := by
  rw [Ratio.value, Nat.cast_one, div_one]

/-- Natural numbers up to the greatest power of ten at hand are rounded to finite numbers. -/
lemma isFinite_round_natCast {n : Nat} (h : n ≤ 10 ^ maxPower) :
    (round ⟨n, 1⟩).isFinite = true := by
  refine isFinite_round one_pos ?_
  rw [value_natCast]
  have hcast : (n : ℚ) ≤ 10 ^ maxPower := by exact_mod_cast h
  linarith [ten_pow_mul_le_largest]

/-- Natural numbers up to the greatest power of ten at hand are off by little when rounded. -/
lemma within_round_natCast {n : Nat} (hn : 0 < n) (h : n ≤ 10 ^ maxPower) :
    Within (1 - roundoff) (1 + roundoff) (round ⟨n, 1⟩).value n := by
  have hone : (1 : ℚ) ≤ n := Nat.one_le_cast.2 hn
  have hlow : (2 : ℚ) ^ (-1022 : ℤ) ≤ Ratio.value ⟨n, 1⟩ := by
    rw [value_natCast]
    exact (zpow_le_one_of_nonpos₀ one_le_two (by decide)).trans hone
  rw [← value_natCast n]
  exact within_round hlow (isFinite_round_natCast h)

/-- Powers of ten at hand are rounded to finite numbers. -/
lemma isFinite_powTen (hk : k ≤ maxPower) : (powTen k).isFinite = true := by
  have hpower : 10 ^ k ≤ 10 ^ maxPower := Nat.pow_le_pow_right (by decide) hk
  exact isFinite_round_natCast hpower

/-- Powers of ten at hand are off by little when rounded. -/
lemma within_powTen (hk : k ≤ maxPower) :
    Within (1 - roundoff) (1 + roundoff) (powTen k).value (10 ^ k) := by
  have h := within_round_natCast (Nat.pow_pos (by decide : 0 < 10))
    (Nat.pow_le_pow_right (by decide) hk)
  rwa [Nat.cast_pow, Nat.cast_ofNat] at h

/-- Powers of ten other than one are rounded to numbers that are one at least. -/
lemma one_le_powTen (hpos : 0 < k) (hk : k ≤ maxPower) : 1 ≤ (powTen k).value := by
  have hten : (10 : ℚ) ≤ 10 ^ k := le_self_pow₀ (by norm_num) hpos.ne'
  calc (1 : ℚ) ≤ (1 - roundoff) * 10 := by norm_num [roundoff]
    _ ≤ (1 - roundoff) * 10 ^ k := mul_le_mul_of_nonneg_left hten (by norm_num [roundoff])
    _ ≤ (powTen k).value := (within_powTen hk).1

/-- Dividing by powers of ten again and again stays finite. -/
lemma isFinite_shrink (hx : x.isFinite = true) (n : Nat) : (x.shrink n).isFinite = true := by
  induction n generalizing x with
  | zero => exact hx
  | succ n ih =>
    rw [shrink]
    split_ifs with hzero
    · exact hx
    · exact ih (isFinite_div hx (one_le_powTen (by decide) le_rfl))

end Binary64

/-! ## The conversion -/

namespace Scaled

open Binary64

variable {m k : Nat} {x : Binary64}

/-- Significands of 64 bits are below the greatest power of ten at hand. -/
lemma le_ten_pow (hbits : m < 2 ^ 64) : m ≤ 10 ^ maxPower :=
  calc m ≤ 2 ^ 64 := hbits.le
    _ ≤ 10 ^ 20 := by decide
    _ ≤ 10 ^ maxPower := Nat.pow_le_pow_right (by decide) (by decide)

/-- **What a significand of 64 bits is converted to is finite.**

**Proof sketch.** A product is tested for it, and a quotient by a power of ten is not above the
significand. -/
theorem isFinite_of_float? {s : Scaled} (hbits : s.significand < 2 ^ 64) (h : s.float? = some x) :
    x.isFinite = true := by
  obtain ⟨m, e⟩ := s
  cases e with
  | ofNat k =>
    simp only [float?] at h
    split_ifs at h with _ hfinite hzero
    · exact Option.some.inj h ▸ hfinite
    · obtain rfl := Option.some.inj h
      rw [isFinite, hzero]
      rfl
  | negSucc k =>
    obtain rfl := Option.some.inj h
    have hpower : k % maxPower + 1 ≤ maxPower := Nat.mod_lt k (by decide)
    exact isFinite_div (isFinite_shrink (isFinite_round_natCast (le_ten_pow hbits)) _)
      (one_le_powTen (Nat.succ_pos _) hpower)

/-- A significand other than zero is multiplied by a power of ten that is at hand, and the product
is tested. -/
lemma float?_eq_some_iff (hm : 0 < m) (hbits : m < 2 ^ 64) :
    float? ⟨m, k⟩ = some x ↔
      k ≤ maxPower ∧ x.isFinite = true ∧ (Binary64.round ⟨m, 1⟩).mul (powTen k) = x := by
  have hzero : (Binary64.round ⟨m, 1⟩).magnitude ≠ 0 := by
    intro hzero
    have hvalue : (Binary64.round ⟨m, 1⟩).value = 0 := value_eq_zero_iff.2 hzero
    have hlow := (within_round_natCast hm (le_ten_pow hbits)).1
    have hone : (1 : ℚ) ≤ m := Nat.one_le_cast.2 hm
    rw [hvalue, roundoff] at hlow
    linarith
  rw [← Int.ofNat_eq_natCast]
  simp only [float?, if_neg hzero]
  constructor
  · intro h
    split_ifs at h with hk hfinite
    obtain rfl := Option.some.inj h
    exact ⟨hk, hfinite, rfl⟩
  · rintro ⟨hk, hfinite, rfl⟩
    rw [if_pos hk, if_pos hfinite]

/-- The exact product that is rounded last is off by little from the number. -/
lemma within_mul_ratio (hm : 0 < m) (hbits : m < 2 ^ 64) (hk : k ≤ maxPower) :
    Within ((1 - roundoff) * (1 - roundoff)) ((1 + roundoff) * (1 + roundoff))
      ((Binary64.round ⟨m, 1⟩).ratio.mul (powTen k).ratio).value (m * 10 ^ k) := by
  have hlow : (0 : ℚ) ≤ 1 - roundoff := by norm_num [roundoff]
  rw [Ratio.value_mul, value_ratio, value_ratio]
  exact (within_round_natCast hm (le_ten_pow hbits)).mul (within_powTen hk)
    (mul_nonneg hlow (Nat.cast_nonneg m)) (mul_nonneg hlow (by positivity))

/-- **The conversion is close to the number**, if the power of ten is not negative.

**Proof sketch.** The significand and the power of ten are rounded (`within_mul_ratio`), and their
product is rounded once more. -/
theorem within_of_float? (hm : 0 < m) (hbits : m < 2 ^ 64) (h : float? ⟨m, k⟩ = some x) :
    Within (1 - 1 / 2 ^ 51) (1 + 1 / 2 ^ 51) x.value (m * 10 ^ k) := by
  obtain ⟨hk, hfinite, rfl⟩ := (float?_eq_some_iff hm hbits).1 h
  have hone : (1 : ℚ) ≤ m * 10 ^ k :=
    one_le_mul_of_one_le_of_one_le (Nat.one_le_cast.2 hm) (one_le_pow₀ (by norm_num))
  have hexact := within_mul_ratio hm hbits hk
  have hlow : (2 : ℚ) ^ (-1022 : ℤ) ≤
      ((Binary64.round ⟨m, 1⟩).ratio.mul (powTen k).ratio).value := by
    calc (2 : ℚ) ^ (-1022 : ℤ) ≤ 2 ^ (-1 : ℤ) := zpow_le_zpow_right₀ one_le_two (by decide)
      _ ≤ (1 - roundoff) * (1 - roundoff) * 1 := by norm_num [roundoff]
      _ ≤ (1 - roundoff) * (1 - roundoff) * (m * 10 ^ k) :=
        mul_le_mul_of_nonneg_left hone (by norm_num [roundoff])
      _ ≤ _ := hexact.1
  refine (hexact.trans (within_round hlow hfinite) ?_ ?_).mono (zero_le_one.trans hone) ?_ ?_ <;>
    norm_num [roundoff]

/-- **Numbers up to `10 ^ 308` are not out of range.** -/
theorem exists_float? (hm : 0 < m) (hbits : m < 2 ^ 64) (h : m * 10 ^ k ≤ 10 ^ maxPower) :
    ∃ x, float? ⟨m, k⟩ = some x := by
  have hk : k ≤ maxPower :=
    (Nat.pow_le_pow_iff_right (by decide)).1 ((Nat.le_mul_of_pos_left _ hm).trans h)
  have hcast : (m : ℚ) * 10 ^ k ≤ 10 ^ maxPower := by exact_mod_cast h
  have hfinite : ((Binary64.round ⟨m, 1⟩).mul (powTen k)).isFinite = true := by
    refine isFinite_round (Nat.mul_pos (den_ratio_pos _) (den_ratio_pos _)) ?_
    calc ((Binary64.round ⟨m, 1⟩).ratio.mul (powTen k).ratio).value
        ≤ (1 + roundoff) * (1 + roundoff) * (m * 10 ^ k) := (within_mul_ratio hm hbits hk).2
      _ ≤ 3 / 2 * 10 ^ maxPower := mul_le_mul (by norm_num [roundoff]) hcast (by positivity) (by
        norm_num)
      _ ≤ largest := ten_pow_mul_le_largest
  exact ⟨_, (float?_eq_some_iff hm hbits).2 ⟨hk, hfinite, rfl⟩⟩

/-! ## Few digits -/

/-- What is computed from few digits is not beyond the finite numbers, nor nearest to zero. -/
lemma nearestTo_value {r : Ratio} (hden : 0 < r.den) (hlow : (10 : ℚ) ^ (-22 : ℤ) ≤ r.value)
    (hhigh : r.value ≤ 10 ^ maxPower) :
    (Binary64.round r).isFinite = true ∧ nearestTo false r.value = some (Binary64.round r) := by
  have hr : 0 < r.value := (zpow_pos (by norm_num) _).trans_le hlow
  have hlargest : r.value ≤ largest := by linarith [ten_pow_mul_le_largest]
  have hfinite := nearestMagnitudeTo_lt_infinite hr hlargest
  have hround : Binary64.round r = ⟨false, nearestMagnitudeTo r.value⟩ := by
    rw [← min_eq_right hfinite.le, ← magnitude_round hr]
    rfl
  have hbelow : Int.log 10 r.value < 309 := by
    refine (Int.lt_zpow_iff_log_lt (by decide) hr).1 (hhigh.trans_lt ?_)
    rw [Nat.cast_ofNat, show (309 : ℤ) = (309 : Nat) from rfl, zpow_natCast]
    exact pow_lt_pow_right₀ (by norm_num) (by decide)
  have habove : -22 ≤ Int.log 10 r.value :=
    (Int.zpow_le_iff_le_log (by decide) hr).1 hlow
  refine ⟨isFinite_round hden hlargest, ?_⟩
  rw [nearestTo, if_neg (by omega), if_neg (by omega), if_pos hfinite, hround]

/-- Significands of 53 bits are rounded to themselves. -/
lemma value_round_natCast (hm : 0 < m) (hbits : m < 2 ^ 53) :
    (Binary64.round ⟨m, 1⟩).value = m := by
  have hvalue : Ratio.value ⟨m, 1⟩ = m * (2 : ℚ) ^ (0 : ℤ) := by
    rw [value_natCast, zpow_zero, mul_one]
  have hfinite := isFinite_round_natCast (le_ten_pow (hbits.trans (by decide)))
  rw [value_round_eq hm hbits (by decide) hvalue hfinite, value_natCast]

/-- Powers of ten up to 22 are rounded to themselves, since the powers of five have 53 bits. -/
lemma value_powTen (hk : k ≤ 22) : (powTen k).value = 10 ^ k := by
  have hfive : 5 ^ k < 2 ^ 53 :=
    (Nat.pow_le_pow_right (by decide) hk).trans_lt (by decide : 5 ^ 22 < 2 ^ 53)
  have hvalue : Ratio.value ⟨Nat.pow 10 k, 1⟩ = (5 ^ k : Nat) * (2 : ℚ) ^ (k : ℤ) := by
    rw [value_natCast, Nat.pow_eq, Nat.cast_pow, Nat.cast_pow, zpow_natCast, ← mul_pow]
    norm_num
  have hfinite : (powTen k).isFinite = true := isFinite_powTen (hk.trans (by decide))
  rw [powTen, value_round_eq (Nat.pow_pos (by decide)) hfive (by omega) hvalue hfinite,
    value_natCast, Nat.pow_eq, Nat.cast_pow, Nat.cast_ofNat]

/-- Zero times anything is zero, and so is zero divided by anything. -/
lemma float?_zero {e : ℤ} (hlow : -22 ≤ e) (hhigh : e ≤ 22) :
    float? ⟨0, e⟩ = some (.zero false) := by
  have hzero : (Binary64.zero false).ratio.num = 0 := rfl
  have hmul : ∀ y, (Binary64.zero false).mul y = .zero false := fun y =>
    round_eq_zero (mul_eq_zero_of_left hzero _)
  have hdiv : ∀ y, (Binary64.zero false).div y = .zero false := fun y =>
    round_eq_zero (mul_eq_zero_of_left hzero _)
  have hround : Binary64.round ⟨0, 1⟩ = .zero false := rfl
  cases e with
  | ofNat k =>
    have hk : k ≤ maxPower := (Int.ofNat_le.1 hhigh).trans (by decide)
    simp only [float?, hround, hmul, if_pos hk]
    rfl
  | negSucc k =>
    have hk : k / maxPower = 0 := Nat.div_eq_of_lt (by rw [maxPower]; omega)
    simp only [float?, hround, hk, shrink, hdiv]

/-- Few digits and a small power of ten stand for a number of moderate size. -/
lemma value_bounds_of_few (hm : 0 < m) (hbits : m < 2 ^ 53) {e : ℤ} (hlow : -22 ≤ e)
    (hhigh : e ≤ 22) :
    (10 : ℚ) ^ (-22 : ℤ) ≤ Decimal.value ⟨false, m, e⟩ ∧
      Decimal.value ⟨false, m, e⟩ ≤ 10 ^ maxPower := by
  constructor
  · have hone : (1 : ℚ) ≤ m := Nat.one_le_cast.2 hm
    calc (10 : ℚ) ^ (-22 : ℤ) ≤ 10 ^ e := zpow_le_zpow_right₀ (by norm_num) hlow
      _ ≤ m * 10 ^ e := le_mul_of_one_le_left (zpow_pos (by norm_num) _).le hone
  · have hcast : (m : ℚ) ≤ 10 ^ 20 := by exact_mod_cast hbits.le.trans (by decide)
    calc m * (10 : ℚ) ^ e ≤ 10 ^ 20 * 10 ^ (22 : ℤ) :=
          mul_le_mul hcast (zpow_le_zpow_right₀ (by norm_num) hhigh) (zpow_pos (by norm_num) _).le
            (by norm_num)
      _ = 10 ^ 42 := by norm_num
      _ ≤ 10 ^ maxPower := pow_le_pow_right₀ (by norm_num) (by decide)

/-- **With few digits and a small power of ten**, the conversion gives the nearest number: the
significand and the power are not rounded, so that only their product or quotient is. -/
theorem float?_eq_nearest (hbits : m < 2 ^ 53) {e : ℤ} (hlow : -22 ≤ e) (hhigh : e ≤ 22) :
    float? ⟨m, e⟩ = Decimal.nearest ⟨false, m, e⟩ := by
  rcases Nat.eq_zero_or_pos m with rfl | hm
  · rw [float?_zero hlow hhigh]
    rfl
  have hx := value_round_natCast hm hbits
  obtain ⟨hlower, hupper⟩ := value_bounds_of_few hm hbits hlow hhigh
  rw [Decimal.nearest_eq hm.ne']
  cases e with
  | ofNat k =>
    have hk : k ≤ 22 := Int.ofNat_le.1 hhigh
    have hvalue : ((Binary64.round ⟨m, 1⟩).ratio.mul (powTen k).ratio).value =
        Decimal.value ⟨false, m, .ofNat k⟩ := by
      rw [Ratio.value_mul, value_ratio, value_ratio, hx, value_powTen hk, Decimal.value,
        Int.ofNat_eq_natCast, zpow_natCast]
    obtain ⟨hfinite, hnearest⟩ := nearestTo_value
      (Nat.mul_pos (den_ratio_pos _) (den_ratio_pos _)) (hvalue ▸ hlower) (hvalue ▸ hupper)
    rw [hvalue] at hnearest
    rw [hnearest]
    exact (float?_eq_some_iff hm (hbits.trans (by decide))).2
      ⟨hk.trans (by decide), hfinite, rfl⟩
  | negSucc k =>
    have hk : k + 1 ≤ 22 := by omega
    have hpowers : k / maxPower = 0 ∧ k % maxPower + 1 = k + 1 := by
      rw [maxPower]
      omega
    have hpos : (0 : ℚ) < (powTen (k + 1)).value := by
      rw [value_powTen hk]
      positivity
    have hvalue : ((Binary64.round ⟨m, 1⟩).ratio.div (powTen (k + 1)).ratio).value =
        Decimal.value ⟨false, m, .negSucc k⟩ := by
      rw [Ratio.value_div, value_ratio, value_ratio, hx, value_powTen hk, Decimal.value,
        zpow_negSucc, div_eq_mul_inv]
    have hnum : 0 < (powTen (k + 1)).ratio.num :=
      (Ratio.pos_of_value_pos (by rwa [value_ratio])).1
    obtain ⟨-, hnearest⟩ := nearestTo_value
      (Nat.mul_pos (den_ratio_pos _) hnum) (hvalue ▸ hlower) (hvalue ▸ hupper)
    rw [hvalue] at hnearest
    simp only [float?, hpowers.1, hpowers.2, shrink]
    exact hnearest.symm

end Scaled

end QueryPayload
