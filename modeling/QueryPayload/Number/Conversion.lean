import QueryPayload.Number.Decimal

/-!
# The conversion of numerals

The numerals of a JSON text are converted fast rather than exactly.  As many of their digits as an
integer of 64 bits holds make up a significand, the others are dropped, and the significand is
multiplied or divided by a power of ten.

## Main definitions

* `Binary64.round` — the binary64 number nearest to a quotient.
* `Binary64.mul`, `Binary64.div` — products and quotients, rounded.
* `Scaled` — a significand and a power of ten.
* `Scaled.float?` — the number that it is converted to.

## Design

Every step rounds: the significand, the power of ten, and their product or quotient.  What comes out
need not be the nearest number (`Decimal.nearest`), though it is close to it, and a product may
leave the finite numbers where the number meant is still among them.

Powers of ten are at hand up to `10 ^ 308`.  A greater one is too large to multiply by, unless the
significand is zero, and dividing by it takes several steps.
-/

set_option relaxedAutoImplicit false
set_option autoImplicit false

namespace QueryPayload

namespace Ratio

/-- The product of two quotients. -/
def mul (r s : Ratio) : Ratio := ⟨r.num * s.num, r.den * s.den⟩

/-- The quotient of two quotients. -/
def div (r s : Ratio) : Ratio := ⟨r.num * s.den, r.den * s.num⟩

end Ratio

namespace Binary64

/-- The number nearest to `r`, with ties to even; infinity beyond the finite numbers. -/
def round (r : Ratio) : Binary64 :=
  ⟨false, if r.num = 0 then 0 else min infinite (Decimal.nearestMagnitude r)⟩

/-- The product of two finite numbers, rounded.  Signs are left out. -/
def mul (x y : Binary64) : Binary64 := round (x.ratio.mul y.ratio)

/-- The quotient of two finite numbers, rounded.  Signs are left out. -/
def div (x y : Binary64) : Binary64 := round (x.ratio.div y.ratio)

/-- The greatest power of ten at hand. -/
def maxPower : Nat := 308

/-- The number nearest to `10 ^ k`. -/
def powTen (k : Nat) : Binary64 := round ⟨Nat.pow 10 k, 1⟩

/-- Divides by the greatest power of ten at hand so many times, or until zero is reached. -/
def shrink : Nat → Binary64 → Binary64
  | 0, x => x
  | n + 1, x => if x.magnitude = 0 then x else shrink n (x.div (powTen maxPower))

end Binary64

/-- The number `significand · 10 ^ exponent`. -/
structure Scaled where
  significand : Nat
  exponent : Int
  deriving DecidableEq, Repr

/-- The binary64 number that a scaled significand is converted to, if it is not out of range. -/
def Scaled.float? (s : Scaled) : Option Binary64 :=
  let x := Binary64.round ⟨s.significand, 1⟩
  match s.exponent with
  | .ofNat k =>
    if k ≤ Binary64.maxPower then
      let y := x.mul (.powTen k)
      if y.isFinite then some y else none
    else if x.magnitude = 0 then some x else none
  | .negSucc k =>
    -- the power is `k + 1`, of which the last step divides by what is left
    some ((x.shrink (k / Binary64.maxPower)).div (.powTen (k % Binary64.maxPower + 1)))

end QueryPayload
