import Mathlib.Tactic.Lemma
import QueryPayload.Proofs.ArgumentValue.OfJson
import QueryPayload.Proofs.Json.Conversion
import QueryPayload.Proofs.Json.Numbers

/-!
# Integer literals

A sign, if it is a minus sign, and digits: neither a point nor an exponent.  What becomes of such a
literal depends on its value only, apart from minus zero.

## Main definitions

* `Json.IntegerLiteral` — a literal; `text` is its spelling and `value` the integer it stands for.
* `Json.IntegerLiteral.argument?` — the value of an argument that it is taken for, if any.

## Main results

* `Json.IntegerLiteral.eq_numeral_of_scan` — a literal that stands somewhere in a text.
* `Json.IntegerLiteral.value_eq_ok_iff` — what it is taken for.
* `Json.IntegerLiteral.abs_sub_le_of_float?`, `exists_float?` — a literal is converted to a number
  close to its integer, and always to some number up to `10 ^ 308`.

## Implementation notes

Integers of 64 bits are kept, those with a sign and those without one.  The latter are refused as
values of arguments if they have no counterpart with a sign.  All other integers, and minus zero,
are converted to binary64 numbers as if they had a point, unless they are out of range.
-/

set_option relaxedAutoImplicit false
set_option autoImplicit false

namespace QueryPayload

namespace Json

/-- A numeral without point and exponent.  A leading zero stands alone. -/
structure IntegerLiteral where
  negative : Bool
  digits : List UInt8
  nonempty : digits ≠ []
  areDigits : ∀ d ∈ digits, Byte.isDigit d = true
  noLeadingZero : digits.head? = some Byte.zero → digits = [Byte.zero]

namespace IntegerLiteral

/-- The spelling of a literal. -/
def text (l : IntegerLiteral) : List UInt8 := Numeral.signBytes l.negative ++ l.digits

/-- A literal as a numeral. -/
def numeral (l : IntegerLiteral) : Numeral := ⟨l.negative, l.digits, none, none⟩

/-- The integer that a literal stands for. -/
def value (l : IntegerLiteral) : Int :=
  if l.negative then -(Numeral.digitsValue l.digits : Int) else Numeral.digitsValue l.digits

/-- The value of an argument that a literal is taken for: minus zero is no integer, those of 64 bits
with a sign are kept, those of 64 bits without a sign are refused beyond them, and the others are
converted to a binary64 number, if they are not out of range. -/
def argument? (l : IntegerLiteral) : Option ArgumentValue :=
  if l.negative = true ∧ l.value = 0 then some (.float (.zero true))
  else if -2 ^ 63 ≤ l.value ∧ l.value < 2 ^ 63 then some (.int l.value)
  else if 2 ^ 63 ≤ l.value ∧ l.value < 2 ^ 64 then none
  else l.numeral.float?.map .float

variable {l : IntegerLiteral}

/-! ## A literal in a text -/

/-- A minus sign is no digit. -/
lemma ne_minus_of_isDigit {b : UInt8} (h : Byte.isDigit b = true) : b ≠ Byte.minus := by
  rintro rfl
  cases h

/-- What a literal begins with does not begin any other value, and is no blank. -/
lemma first_ne {b : UInt8} (hb : b = Byte.minus ∨ Byte.isDigit b = true) :
    Byte.isBlank b = false ∧ b ≠ Byte.openBracket ∧ b ≠ Byte.openBrace ∧ b ≠ Byte.quote := by
  rcases hb with rfl | hb
  · decide
  · have hne : ∀ x, Byte.isDigit x = false → b ≠ x := by
      rintro x hx rfl
      rw [hb] at hx
      cases hx
    refine ⟨?_, hne _ rfl, hne _ rfl, hne _ rfl⟩
    simp [Byte.isBlank, hne 0x20 rfl, hne 0x0A rfl, hne 0x09 rfl, hne 0x0D rfl]

/-- A sign is told from the digits behind it. -/
lemma signBytes_append_inj {negative negative' : Bool} {ds ds' : List UInt8}
    (hds : ∀ d, ds.head? = some d → Byte.isDigit d = true)
    (hds' : ∀ d, ds'.head? = some d → Byte.isDigit d = true)
    (h : Numeral.signBytes negative ++ ds = Numeral.signBytes negative' ++ ds') :
    negative = negative' ∧ ds = ds' := by
  cases negative with
  | true =>
    cases negative' with
    | true => exact ⟨rfl, List.cons.inj h |>.2⟩
    | false =>
      obtain rfl : Byte.minus :: ds = ds' := h
      exact absurd rfl (ne_minus_of_isDigit (hds' Byte.minus rfl))
  | false =>
    cases negative' with
    | true =>
      obtain rfl : ds = Byte.minus :: ds' := h
      exact absurd rfl (ne_minus_of_isDigit (hds Byte.minus rfl))
    | false => exact ⟨rfl, h⟩

/-- A numeral that is spelled as a literal is that literal.

**Proof sketch.** A numeral that has anything behind its digits is spelled with a byte that is
neither a digit nor a leading minus sign. -/
lemma eq_numeral_of_scan {n : Numeral} {c c' : Cursor} (h : Numeral.scan c = .ok (n, c'))
    (hspelled : c.Passes l.text c') : n = l.numeral := by
  obtain ⟨⟨hne, hwhole⟩, behind, hbehind, hpasses⟩ := Numeral.passes_of_scan h
  have hbytes : Numeral.signBytes n.negative ++ (n.whole ++ behind) =
      Numeral.signBytes l.negative ++ l.digits := by
    rw [← List.append_assoc]
    exact List.append_cancel_right (hpasses.rest.symm.trans hspelled.rest)
  have hfirst : ∀ d, (n.whole ++ behind).head? = some d → Byte.isDigit d = true := by
    intro d hd
    rw [List.head?_append_of_ne_nil _ hne] at hd
    exact hwhole d (List.mem_of_head? hd)
  obtain ⟨hsign, hdigits⟩ := signBytes_append_inj hfirst
    (fun d hd => l.areDigits d (List.mem_of_head? hd)) hbytes
  have hnothing : behind = [] := by
    cases behind with
    | nil => rfl
    | cons b more =>
      have hb : Byte.isDigit b = true := l.areDigits b (by simp [← hdigits])
      rw [show Byte.isDigit b = false from hbehind] at hb
      cases hb
  subst hnothing
  obtain ⟨hfraction, hexponent⟩ : n.fraction = none ∧ n.exponent = none := hbehind
  rw [List.append_nil] at hdigits
  obtain ⟨negative, whole, fraction, exponent⟩ := n
  simp only at hsign hdigits hfraction hexponent
  rw [numeral, hsign, hdigits, hfraction, hexponent]

/-! ## What a literal is taken for -/

/-- The digits of a literal stand for its integer without the sign. -/
lemma digitsValue_eq (l : IntegerLiteral) : Numeral.digitsValue l.digits = l.value.natAbs := by
  rw [value]
  split_ifs <;> omega

/-- What is gathered of a literal. -/
lemma scaled_numeral (l : IntegerLiteral) :
    l.numeral.scaled = ⟨(Numeral.gather l.digits 0).1, (Numeral.gather l.digits 0).2.length⟩ := by
  simp [Numeral.scaled, numeral, Numeral.gather]

/-- A literal for zero is converted to zero with its sign. -/
lemma float?_of_value_eq_zero (h : l.value = 0) :
    l.numeral.float? = some (.zero l.negative) := by
  have hdigits : Numeral.digitsBehind 0 l.digits = 0 := l.digitsValue_eq.trans (by rw [h]; rfl)
  have hgather := Numeral.gather_eq (hdigits.trans_le (Nat.zero_le Numeral.maxPositive))
  have hzero : Scaled.float? ⟨0, 0⟩ = some (.zero false) :=
    Scaled.float?_zero (by decide) (by decide)
  rw [Numeral.float?, scaled_numeral, hgather, hdigits]
  simp only [numeral, List.length_nil, Int.natCast_zero, hzero]
  rfl

/-- The integers that are kept are those of 64 bits, with or without a sign, apart from minus
zero. -/
lemma integer?_numeral (l : IntegerLiteral) :
    l.numeral.integer? =
      if ¬(l.negative = true ∧ l.value = 0) ∧ -2 ^ 63 ≤ l.value ∧ l.value < 2 ^ 64 then
        some l.value
      else none := by
  have hpositive : Numeral.maxPositive = 2 ^ 64 - 1 := rfl
  have hnegative : Numeral.maxNegative = 2 ^ 63 := rfl
  cases hsign : l.negative with
  | true =>
    have hvalue : l.value = -(Numeral.digitsValue l.digits : Int) := by
      rw [value, hsign, if_pos rfl]
    simp only [Numeral.integer?, numeral, hsign, hvalue, hnegative, if_true, true_and]
    exact if_congr (by omega) rfl rfl
  | false =>
    have hvalue : l.value = (Numeral.digitsValue l.digits : Int) := by
      rw [value, hsign, if_neg Bool.false_ne_true]
    simp only [Numeral.integer?, numeral, hsign, hvalue, hpositive, Bool.false_eq_true, if_false,
      false_and, not_false_iff, true_and]
    exact if_congr (by omega) rfl rfl

/-- **An integer literal is taken for** the value of an argument that its integer determines.

**Proof sketch.** What fits is kept as an integer, and refused afterwards if it fits without a sign
only.  All else goes the way of numerals with a point, which are converted to finite numbers. -/
theorem value_eq_ok_iff (stop : Nat) {a : ArgumentValue} :
    (∃ n, l.numeral.value stop = .ok n ∧ ArgumentValue.ofNumber? n = .ok a) ↔
      l.argument? = some a := by
  by_cases hkept : ¬(l.negative = true ∧ l.value = 0) ∧ -2 ^ 63 ≤ l.value ∧ l.value < 2 ^ 64
  · obtain ⟨hzero, hlow, hhigh⟩ := hkept
    have hvalue : l.numeral.value stop = .ok (.int l.value) := by
      rw [Numeral.value, integer?_numeral, if_pos ⟨hzero, hlow, hhigh⟩]
    rw [argument?, if_neg hzero, hvalue]
    by_cases hfits : -2 ^ 63 ≤ l.value ∧ l.value < 2 ^ 63
    · rw [if_pos hfits]
      simp [ArgumentValue.ofNumber?, ArgumentValue.fits_iff.2 hfits]
    · have hbeyond : 2 ^ 63 ≤ l.value ∧ l.value < 2 ^ 64 := by omega
      have hrefused : ArgumentValue.fits l.value = false :=
        Bool.eq_false_iff.2 fun h => hfits (ArgumentValue.fits_iff.1 h)
      rw [if_neg hfits, if_pos hbeyond]
      simp [ArgumentValue.ofNumber?, hrefused]
  · have hinteger : l.numeral.integer? = none := by rw [integer?_numeral, if_neg hkept]
    have hconverted : l.argument? = l.numeral.float?.map .float := by
      rw [argument?]
      by_cases hzero : l.negative = true ∧ l.value = 0
      · rw [if_pos hzero, float?_of_value_eq_zero hzero.2, hzero.1, Option.map_some]
      · have hbeyond : ¬(-2 ^ 63 ≤ l.value ∧ l.value < 2 ^ 64) := fun h => hkept ⟨hzero, h⟩
        rw [if_neg hzero, if_neg (by omega), if_neg (by omega)]
    rw [Numeral.value, hinteger, hconverted]
    cases hx : l.numeral.float? with
    | none => simp
    | some x => simp [ArgumentValue.ofNumber?, Numeral.isFinite_of_float? hx]

/-! ## How close a literal and its conversion are -/

/-- The digits of a literal other than zero are gathered in a significand of 64 bits. -/
lemma gather_spec (h : l.value ≠ 0) :
    Numeral.Gathered 0 l.digits (Numeral.gather l.digits 0) ∧
      0 < (Numeral.gather l.digits 0).1 ∧ (Numeral.gather l.digits 0).1 < 2 ^ 64 := by
  have hgathered := Numeral.gathered l.areDigits 0
  have hpos : 0 < Numeral.digitsValue l.digits := by
    rw [digitsValue_eq]
    exact Int.natAbs_pos.2 h
  have hbits := Numeral.gather_le l.digits (Nat.zero_le Numeral.maxPositive)
  exact ⟨hgathered, hgathered.pos hpos, Nat.lt_of_le_pred (by decide) hbits⟩

/-- **A literal and its conversion are close.**

**Proof sketch.** Little is lost when the digits are gathered (`Numeral.Gathered.within`), and
little when what is gathered is converted (`Scaled.within_of_float?`).  The sign is kept. -/
theorem abs_sub_le_of_float? {x : Binary64} (h : l.numeral.float? = some x) :
    |x.signedValue - l.value| ≤ |(l.value : ℚ)| / 2 ^ 50 := by
  by_cases hzero : l.value = 0
  · rw [float?_of_value_eq_zero hzero] at h
    have hx : x.signedValue = 0 :=
      Binary64.signedValue_eq_zero_iff.2 (Option.some.inj h ▸ rfl)
    simp [hx, hzero]
  · obtain ⟨y, hy, rfl⟩ := Option.map_eq_some_iff.1 h
    obtain ⟨hgathered, hpos, hbits⟩ := gather_spec hzero
    have hconverted : Within (1 - 1 / 2 ^ 50) (1 + 1 / 2 ^ 50) y.value
        (Numeral.digitsValue l.digits) := by
      have hy : l.numeral.scaled.float? = some y := hy
      rw [scaled_numeral] at hy
      have hscaled := Scaled.within_of_float? hpos hbits hy
      exact (hgathered.within.trans hscaled (by norm_num) (by norm_num)).mono (Nat.cast_nonneg _)
        (by norm_num) (by norm_num)
    have hclose : |y.value - Numeral.digitsValue l.digits| ≤
        (Numeral.digitsValue l.digits : ℚ) / 2 ^ 50 := by
      obtain ⟨hlow, hhigh⟩ := hconverted
      rw [abs_le]
      constructor <;> linarith
    have hsigned : Binary64.signedValue ⟨l.numeral.negative, y.magnitude⟩ =
        if l.negative then -y.value else y.value := rfl
    have habs : |(l.value : ℚ)| = Numeral.digitsValue l.digits := by
      rw [digitsValue_eq, Nat.cast_natAbs, Int.cast_abs]
    rw [hsigned, habs, value]
    split_ifs
    · rw [Int.cast_neg, Int.cast_natCast, neg_sub_neg, abs_sub_comm]
      exact hclose
    · exact hclose

/-- **Literals up to `10 ^ 308` are not out of range.** -/
theorem exists_float? (h : l.value.natAbs ≤ 10 ^ Binary64.maxPower) :
    ∃ x, l.numeral.float? = some x := by
  by_cases hzero : l.value = 0
  · exact ⟨_, float?_of_value_eq_zero hzero⟩
  · obtain ⟨hgathered, hpos, hbits⟩ := gather_spec hzero
    have hbound := hgathered.low.trans (l.digitsValue_eq.trans_le h)
    obtain ⟨y, hy⟩ := Scaled.exists_float? hpos hbits hbound
    rw [← scaled_numeral] at hy
    exact ⟨_, Option.map_eq_some_iff.2 ⟨y, hy, rfl⟩⟩

/-- A literal that is taken for a binary64 number is taken for a finite one, close to its
integer. -/
lemma close_of_argument? {x : Binary64} (h : l.argument? = some (.float x)) :
    x.isFinite = true ∧ |x.signedValue - l.value| ≤ |(l.value : ℚ)| / 2 ^ 50 := by
  have hfloat : l.numeral.float? = some x := by
    rw [argument?] at h
    split_ifs at h with hzero
    · obtain rfl := ArgumentValue.float.inj (Option.some.inj h)
      rw [float?_of_value_eq_zero hzero.2, hzero.1]
    · cases h
    · obtain ⟨y, hy, hyx⟩ := Option.map_eq_some_iff.1 h
      rwa [← ArgumentValue.float.inj hyx]
  exact ⟨Numeral.isFinite_of_float? hfloat, abs_sub_le_of_float? hfloat⟩

/-- A literal beyond 64 bits is taken for a binary64 number, if it is not beyond `10 ^ 308`. -/
lemma exists_argument?_of_beyond (hbeyond : l.value < -2 ^ 63 ∨ 2 ^ 64 ≤ l.value)
    (h : l.value.natAbs ≤ 10 ^ Binary64.maxPower) : ∃ x, l.argument? = some (.float x) := by
  obtain ⟨x, hx⟩ := exists_float? h
  refine ⟨x, ?_⟩
  rw [argument?, if_neg (by omega), if_neg (by omega), if_neg (by omega), hx]
  rfl

end IntegerLiteral

end Json

end QueryPayload
