import Mathlib.Tactic.Lemma
import QueryPayload.Number.Shortest
import QueryPayload.Proofs.Number.Nearest

/-!
# The shortest decimal is read back

Whatever decimal the search for the shortest one comes up with, it is read as the number that it was
searched for.

## Main results

* `Binary64.nearest_shortest` — a finite number is read back from its shortest decimal.
* `Binary64.exponent_shortest` — the shortest decimal of zero has no zeros behind it.
-/

set_option relaxedAutoImplicit false
set_option autoImplicit false

namespace QueryPayload

namespace Binary64

variable {x : Binary64} {tie : Tie}

/-- Zeros at the end of a decimal do not change its value. -/
lemma value_dropZeros (negative : Bool) (n d : Nat) (e : Int) :
    Decimal.value ⟨negative, (dropZeros n d e).1, (dropZeros n d e).2⟩ =
      Decimal.value ⟨negative, d, e⟩ := by
  induction n generalizing d e with
  | zero => rfl
  | succ n ih =>
    rw [dropZeros]
    split_ifs with h
    · have hd : (d : ℚ) = (d / 10 : Nat) * 10 := by
        exact_mod_cast (Nat.div_mul_cancel (Nat.dvd_of_mod_eq_zero h.1)).symm
      rw [ih, Decimal.value, Decimal.value, hd, mul_assoc, zpow_add_one₀ (by norm_num),
        mul_comm (10 : ℚ)]
    · rfl

/-- What the search comes up with is read back. -/
lemma nearest_of_searchShortest {m count d : Nat} {r : Ratio} {start e : Int}
    (h : searchShortest tie m r count start = some (d, e)) :
    (Decimal.nearest ⟨false, d, e⟩).map magnitude = some m := by
  induction count generalizing start with
  | zero => cases h
  | succ count ih =>
    rw [searchShortest] at h
    split at h
    · rename_i found hfind
      have hback := List.find?_some (p := (readsBack m · start)) hfind
      have hsame : Decimal.nearest ⟨false, (dropZeros (digitCount found) found start).1,
          (dropZeros (digitCount found) found start).2⟩ = Decimal.nearest ⟨false, found, start⟩ :=
        Decimal.nearest_congr rfl (value_dropZeros false _ found start)
      rw [Option.some.inj h] at hsame
      rw [hsame]
      exact beq_iff_eq.1 hback
    · exact ih h

/-- The decimal behind the search has the value of the number. -/
lemma value_exactDecimal (negative : Bool) (x : Binary64) :
    Decimal.value ⟨negative, (exactDecimal x.significand x.exponent).1,
      (exactDecimal x.significand x.exponent).2⟩ = x.value := by
  rw [value, Decimal.value]
  cases x.exponent with
  | ofNat n =>
    simp only [exactDecimal, Nat.pow_eq, Nat.cast_mul, Nat.cast_pow, Nat.cast_ofNat,
      Int.ofNat_eq_natCast, zpow_natCast, zpow_zero, mul_one]
  | negSucc n =>
    have hten : (10 : ℚ) ^ (n + 1) = 5 ^ (n + 1) * 2 ^ (n + 1) := by
      rw [← mul_pow]
      norm_num
    simp only [exactDecimal, Nat.pow_eq, Nat.cast_mul, Nat.cast_pow, Nat.cast_ofNat, zpow_negSucc,
      hten]
    field_simp

/-- **A finite number is read back from its shortest decimal.**

**Proof sketch.** The search only takes what is read back, up to zeros at the end
(`nearest_of_searchShortest`), and the decimal behind it is exact (`value_exactDecimal`). -/
theorem nearest_shortest (hx : x.isFinite = true) (tie : Tie) :
    (x.shortest tie).nearest = some x := by
  rw [shortest]
  split_ifs with hm
  · obtain ⟨negative, m⟩ := x
    obtain rfl : m = 0 := hm
    rfl
  · simp only
    cases hsearch : searchShortest tie x.magnitude x.ratio 17 x.ratio.floorLog10 with
    | none =>
      rw [Option.getD_none]
      have hvalue := value_exactDecimal x.negative x
      have hdigits : (exactDecimal x.significand x.exponent).1 ≠ 0 := fun hzero =>
        (value_pos hm).ne' (hvalue ▸ Decimal.value_eq_zero_iff.2 hzero)
      rw [Decimal.nearest_eq hdigits, hvalue]
      exact nearestTo_value hx hm x.negative
    | some p =>
      rw [Option.getD_some, Decimal.nearest_sign]
      obtain ⟨y, hy, hmagnitude⟩ := Option.map_eq_some_iff.1 (nearest_of_searchShortest hsearch)
      rw [hy, Option.map_some, hmagnitude]

/-- Only zero has no digits in its shortest decimal. -/
lemma exponent_shortest (hx : x.isFinite = true) (h : (x.shortest tie).digits = 0) :
    (x.shortest tie).exponent = 0 := by
  have hzero : x.magnitude = 0 := by
    have hback := nearest_shortest hx tie
    rw [Decimal.nearest, if_pos h] at hback
    exact (congrArg magnitude (Option.some.inj hback)).symm
  rw [shortest, if_pos hzero]

end Binary64

end QueryPayload
