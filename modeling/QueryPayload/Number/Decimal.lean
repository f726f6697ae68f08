import QueryPayload.Number.Binary64

/-!
# Decimal numbers and their nearest binary64

This module finds the binary64 number nearest to a decimal number, with a tie going to the even
neighbour.  Numbers are written with decimals that it takes back to them; the numerals of a text
are converted less exactly.

## Main definitions

* `Decimal` — a sign, an integer, and a power of ten to multiply it by.
* `Ratio` — an exact nonnegative quotient; `Ratio.floorLog2`, `Ratio.roundDiv`.
* `Binary64.ratio` — the value of a finite number.
* `Decimal.nearest` — the nearest binary64 number, `none` beyond the finite range.

## Design

The computation is exact: the value is a quotient of natural numbers, the grid of representable
numbers around it has spacing `2 ^ q` for a computed `q`, and one division with remainder finds
the neighbour.  Rounding up to the next power of two needs no case of its own, since magnitudes
of successive binades are consecutive (`Binary64.magnitude`).

Two guards keep the numbers small.  A value of at least `10 ^ 309` is beyond every finite number,
and one below `10 ^ (-330)` is nearest to zero, whatever its digits are.
-/

set_option relaxedAutoImplicit false
set_option autoImplicit false

namespace QueryPayload

/-- The number of decimal digits of `n`, which is one for zero. -/
def digitCount (n : Nat) : Nat := (Nat.toDigits 10 n).length

/-- An exact nonnegative quotient. -/
structure Ratio where
  num : Nat
  den : Nat
  deriving DecidableEq, Repr

namespace Ratio

/-- `r · b ^ e`. -/
def scale (r : Ratio) (b : Nat) (e : Int) : Ratio :=
  match e with
  | .ofNat n => ⟨r.num * Nat.pow b n, r.den⟩
  | .negSucc n => ⟨r.num, r.den * Nat.pow b (n + 1)⟩

/-- `b ^ e ≤ r`. -/
def atLeastPow (r : Ratio) (b : Nat) (e : Int) : Bool :=
  let s := r.scale b (-e)
  s.den ≤ s.num

/-- The exponent of the largest power of two that is at most `r`, for positive `r`. -/
def floorLog2 (r : Ratio) : Int :=
  let k : Int := (r.num.log2 : Int) - r.den.log2
  if r.atLeastPow 2 k then k else k - 1

/-- The exponent of the largest power of ten that is at most `r`, for positive `r`. -/
def floorLog10 (r : Ratio) : Int :=
  let k : Int := (digitCount r.num : Int) - digitCount r.den
  if r.atLeastPow 10 k then k else k - 1

/-- The integer nearest to `r`; of two, the even one. -/
def roundDiv (r : Ratio) : Nat :=
  let q := r.num / r.den
  let twice := 2 * (r.num % r.den)
  if twice < r.den then q
  else if r.den < twice then q + 1
  else if q % 2 = 0 then q else q + 1

end Ratio

/-- The value of a finite number without its sign. -/
def Binary64.ratio (x : Binary64) : Ratio := Ratio.scale ⟨x.significand, 1⟩ 2 x.exponent

/-- The number `± digits · 10 ^ exponent`. -/
structure Decimal where
  negative : Bool
  digits : Nat
  exponent : Int
  deriving DecidableEq, Repr

namespace Decimal

/-- The number without its sign. -/
def ratio (d : Decimal) : Ratio := Ratio.scale ⟨d.digits, 1⟩ 10 d.exponent

/-- The magnitude of the binary64 number nearest to the positive value `r`.  It reaches
`Binary64.infinite` when `r` is beyond the finite numbers. -/
def nearestMagnitude (r : Ratio) : Nat :=
  let q : Int := max (-1074) (r.floorLog2 - 52)
  (q + 1074).toNat * Binary64.fractionCount + (r.scale 2 (-q)).roundDiv

/-- The binary64 number nearest to `d`, with ties to even; `none` if that is infinite. -/
def nearest (d : Decimal) : Option Binary64 :=
  if d.digits = 0 then some (.zero d.negative)
  else
    let size : Int := digitCount d.digits + d.exponent
    if 309 < size then none
    else if size < -330 then some (.zero d.negative)
    else
      let m := nearestMagnitude d.ratio
      if m < Binary64.infinite then some ⟨d.negative, m⟩ else none

end Decimal

end QueryPayload
