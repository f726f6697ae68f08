import Mathlib.Tactic.Lemma
import QueryPayload.Json.Numeral
import QueryPayload.Proofs.Number.Conversion

/-!
# What numerals are converted to

The digits of a numeral are gathered as long as 64 bits have room for the number they make.  What is
dropped is less than a unit of the last digit that is kept, and nothing is dropped from few digits.

## Main definitions

* `Json.Numeral.digitsBehind` — the number that digits stand for behind those of another number.
* `Json.Numeral.Gathered` — what is gathered of some digits.
* `Json.Numeral.decimal` — the exact number a numeral stands for.

## Main results

* `Json.Numeral.gathered` — how far the gathered digits are off.
* `Json.Numeral.isFinite_of_float?` — a numeral is converted to a finite number or to none.
* `Json.Numeral.float?_eq_nearest` — a numeral with few digits and a small power of ten is converted
  to the nearest number.
-/

set_option relaxedAutoImplicit false
set_option autoImplicit false

namespace QueryPayload

namespace Json

namespace Numeral

variable {n : Numeral} {ds : List UInt8} {kept : Nat}

/-! ## Gathering digits -/

/-- The number that digits stand for behind those of another number. -/
def digitsBehind (kept : Nat) (ds : List UInt8) : Nat :=
  ds.foldl (fun n d => n * 10 + (d.toNat - 0x30)) kept

/-- A digit is below ten. -/
lemma digit_lt_ten {d : UInt8} (h : Byte.isDigit d = true) : d.toNat - 0x30 < 10 := by
  rw [Byte.isDigit, Bool.and_eq_true, decide_eq_true_eq, decide_eq_true_eq, UInt8.le_iff_toNat_le,
    UInt8.le_iff_toNat_le] at h
  have hhigh : d.toNat ≤ 0x39 := h.2
  omega

/-- Digits behind a number make it greater. -/
lemma le_digitsBehind (kept : Nat) (ds : List UInt8) : kept ≤ digitsBehind kept ds := by
  induction ds generalizing kept with
  | nil => exact le_rfl
  | cons d ds ih =>
    have hle := ih (kept * 10 + (d.toNat - 0x30))
    rw [digitsBehind, List.foldl_cons, ← digitsBehind]
    omega

/-- Digits behind a number make it less than the next one with zeros in their place. -/
lemma digitsBehind_bounds (hds : ∀ d ∈ ds, Byte.isDigit d = true) (kept : Nat) :
    kept * 10 ^ ds.length ≤ digitsBehind kept ds ∧
      digitsBehind kept ds < (kept + 1) * 10 ^ ds.length := by
  induction ds generalizing kept with
  | nil => simp [digitsBehind]
  | cons d ds ih =>
    obtain ⟨hd, hrest⟩ := List.forall_mem_cons.1 hds
    have hten := digit_lt_ten hd
    obtain ⟨hlow, hhigh⟩ := ih hrest (kept * 10 + (d.toNat - 0x30))
    rw [digitsBehind, List.foldl_cons, ← digitsBehind, List.length_cons, pow_succ']
    constructor
    · calc kept * (10 * 10 ^ ds.length) = kept * 10 * 10 ^ ds.length := (Nat.mul_assoc ..).symm
        _ ≤ (kept * 10 + (d.toNat - 0x30)) * 10 ^ ds.length := Nat.mul_le_mul_right _ (by omega)
        _ ≤ _ := hlow
    · calc _ < (kept * 10 + (d.toNat - 0x30) + 1) * 10 ^ ds.length := hhigh
        _ ≤ (kept + 1) * 10 * 10 ^ ds.length := Nat.mul_le_mul_right _ (by omega)
        _ = (kept + 1) * (10 * 10 ^ ds.length) := Nat.mul_assoc ..

/-- What is gathered of some digits: a number and the digits that are left over. -/
structure Gathered (kept : Nat) (ds : List UInt8) (out : Nat × List UInt8) : Prop where
  low : out.1 * 10 ^ out.2.length ≤ digitsBehind kept ds
  high : digitsBehind kept ds < (out.1 + 1) * 10 ^ out.2.length
  /-- Digits are left over only when the number has become large. -/
  full : out.2 = [] ∨ 2 ^ 60 ≤ out.1

/-- **Digits are gathered** until 64 bits are nearly full, so that little is lost. -/
theorem gathered (hds : ∀ d ∈ ds, Byte.isDigit d = true) (kept : Nat) :
    Gathered kept ds (gather ds kept) := by
  induction ds generalizing kept with
  | nil => exact ⟨by simp [gather, digitsBehind], by simp [gather, digitsBehind], .inl rfl⟩
  | cons d ds ih =>
    obtain ⟨hd, hrest⟩ := List.forall_mem_cons.1 hds
    simp only [gather]
    split_ifs with hroom
    · obtain ⟨hlow, hhigh, hfull⟩ := ih hrest (kept * 10 + (d.toNat - 0x30))
      exact ⟨hlow, hhigh, hfull⟩
    · obtain ⟨hlow, hhigh⟩ := digitsBehind_bounds hds kept
      have hten := digit_lt_ten hd
      have hmax : maxPositive = 2 ^ 64 - 1 := rfl
      exact ⟨hlow, hhigh, .inr (by omega)⟩

namespace Gathered

variable {out : Nat × List UInt8}

/-- Something is gathered of digits that do not stand for zero. -/
lemma pos (h : Gathered kept ds out) (hpos : 0 < digitsBehind kept ds) : 0 < out.1 := by
  obtain ⟨s, left⟩ := out
  have hhigh := h.high
  rcases h.full with rfl | hfull
  · simp only [List.length_nil, pow_zero, Nat.mul_one] at hhigh
    exact Nat.pos_of_ne_zero fun hzero => by omega
  · exact Nat.lt_of_lt_of_le (by decide) hfull

/-- What is gathered, with zeros in place of what is left over, is little less than the number. -/
lemma within (h : Gathered kept ds out) :
    Within (1 - 1 / 2 ^ 60) 1 (out.1 * 10 ^ out.2.length) (digitsBehind kept ds) := by
  have hlow : ((out.1 * 10 ^ out.2.length : Nat) : ℚ) ≤ digitsBehind kept ds := Nat.cast_le.2 h.low
  have hhigh : (digitsBehind kept ds : ℚ) < ((out.1 + 1) * 10 ^ out.2.length : Nat) :=
    Nat.cast_lt.2 h.high
  push_cast at hlow hhigh
  refine ⟨?_, by rwa [one_mul]⟩
  rcases h.full with hnone | hfull
  · have hle : digitsBehind kept ds ≤ out.1 := by
      have hlt := h.high
      rw [hnone, List.length_nil, pow_zero, Nat.mul_one] at hlt
      exact Nat.lt_succ_iff.1 hlt
    rw [hnone, List.length_nil, pow_zero, mul_one]
    calc (1 - 1 / 2 ^ 60) * (digitsBehind kept ds : ℚ) ≤ 1 * digitsBehind kept ds :=
          mul_le_mul_of_nonneg_right (by norm_num) (Nat.cast_nonneg _)
      _ ≤ out.1 := by rw [one_mul]; exact Nat.cast_le.2 hle
  -- one unit of what is gathered is a small part of it
  · have hunit : (2 : ℚ) ^ 60 ≤ out.1 := by exact_mod_cast hfull
    calc (1 - 1 / 2 ^ 60) * (digitsBehind kept ds : ℚ)
        ≤ (1 - 1 / 2 ^ 60) * ((out.1 + 1) * 10 ^ out.2.length) :=
          mul_le_mul_of_nonneg_left hhigh.le (by norm_num)
      _ = (1 - 1 / 2 ^ 60) * (out.1 + 1) * 10 ^ out.2.length := (mul_assoc _ _ _).symm
      _ ≤ out.1 * 10 ^ out.2.length :=
          mul_le_mul_of_nonneg_right (by linarith) (by positivity)

end Gathered

/-- What is gathered fits 64 bits. -/
lemma gather_le (ds : List UInt8) (h : kept ≤ maxPositive) : (gather ds kept).1 ≤ maxPositive := by
  induction ds generalizing kept with
  | nil => exact h
  | cons d ds ih =>
    simp only [gather]
    split_ifs with hroom
    · exact ih hroom
    · exact h

/-- No digits are left over if 64 bits have room for all of them. -/
lemma gather_eq (h : digitsBehind kept ds ≤ maxPositive) :
    gather ds kept = (digitsBehind kept ds, []) := by
  induction ds generalizing kept with
  | nil => rfl
  | cons d ds ih =>
    rw [digitsBehind, List.foldl_cons, ← digitsBehind] at h
    rw [gather, if_pos ((le_digitsBehind _ ds).trans h), ih h]
    rfl

/-! ## Finite numbers -/

/-- The significand of a numeral fits 64 bits. -/
lemma significand_scaled_lt (n : Numeral) : n.scaled.significand < 2 ^ 64 := by
  have hle : n.scaled.significand ≤ maxPositive := gather_le _ (gather_le _ (Nat.zero_le _))
  exact Nat.lt_of_le_pred (by decide) hle

/-- **A numeral is converted to a finite number**, or to none. -/
theorem isFinite_of_float? {x : Binary64} (h : n.float? = some x) : x.isFinite = true := by
  obtain ⟨y, hy, rfl⟩ := Option.map_eq_some_iff.1 h
  change y.isFinite = true
  have hbits := n.significand_scaled_lt
  cases hexponent : n.exponent with
  | none =>
    rw [hexponent] at hy
    exact Scaled.isFinite_of_float? hbits hy
  | some e =>
    rw [hexponent] at hy
    simp only [Exponent.float?] at hy
    split at hy
    · refine Scaled.isFinite_of_float? ?_ hy
      exact hbits
    · split_ifs at hy
      obtain rfl := Option.some.inj hy
      rfl

/-! ## Few digits -/

/-- The exact number a numeral stands for. -/
def decimal (n : Numeral) : Decimal :=
  let part := n.fraction.getD []
  ⟨n.negative, digitsValue (n.whole ++ part),
    (n.exponent.map Exponent.power).getD 0 - part.length⟩

/-- Few digits are all kept. -/
lemma scaled_eq (h : n.decimal.digits ≤ maxPositive) :
    n.scaled = ⟨n.decimal.digits, -((n.fraction.getD []).length : Int)⟩ := by
  have hdigits : n.decimal.digits =
      digitsBehind (digitsBehind 0 n.whole) (n.fraction.getD []) := List.foldl_append
  rw [hdigits] at h ⊢
  have hwhole := gather_eq ((le_digitsBehind _ _).trans h)
  simp [scaled, hwhole, gather_eq h]

/-- An exponent that is small enough is followed to its last digit. -/
lemma overrun?_eq_none {value : Nat} (h : digitsBehind value ds ≤ maxExponent) (count : Nat) :
    overrun? ds value count = none := by
  induction ds generalizing value count with
  | nil => rfl
  | cons d ds ih =>
    rw [digitsBehind, List.foldl_cons, ← digitsBehind] at h
    simp only [overrun?]
    rw [if_neg (Nat.not_lt.2 ((le_digitsBehind _ ds).trans h)), ih h]

/-- **A numeral with few digits and a small power of ten** is converted to the nearest number. -/
theorem float?_eq_nearest (hdigits : n.decimal.digits < 2 ^ 53)
    (hexponent : ∀ e, n.exponent = some e → digitsValue e.digits ≤ maxExponent)
    (hlow : -22 ≤ n.decimal.exponent) (hhigh : n.decimal.exponent ≤ 22) :
    n.float? = n.decimal.nearest := by
  have hscaled := scaled_eq (hdigits.le.trans (by decide))
  have hsign := Decimal.nearest_sign n.negative n.decimal.digits n.decimal.exponent
  have hnearest := Scaled.float?_eq_nearest hdigits hlow hhigh
  rw [show n.decimal = ⟨n.negative, n.decimal.digits, n.decimal.exponent⟩ from rfl, hsign,
    ← hnearest, float?, hscaled]
  cases he : n.exponent with
  | none =>
    have hpower : n.decimal.exponent = -((n.fraction.getD []).length : Int) := by
      rw [decimal, he]
      exact Int.zero_sub _
    rw [hpower]
  | some e =>
    have hpower : n.decimal.exponent = -((n.fraction.getD []).length : Int) + e.power := by
      rw [decimal, he, Int.add_comm]
      rfl
    have hrun : overrun? e.digits 0 0 = none := overrun?_eq_none (hexponent e he) 0
    simp only [Exponent.float?, hrun, hpower]

end Numeral

end Json

end QueryPayload
