/-!
# Binary64 numbers

The floating-point numbers of a payload, as exact data: a sign and a magnitude.

## Main definitions

* `Binary64` — a sign together with the 63 bits that remain, read as one number.
* `Binary64.isFinite`, `Binary64.isNaN` — the classes of magnitudes.
* `Binary64.significand`, `Binary64.exponent` — a finite magnitude is
  `significand · 2 ^ exponent`.
* `Binary64.numericEq` — equality of the numbers meant, under which the two zeros agree.

## Design

The magnitude joins the exponent field and the fraction field.  Read as a natural number it grows
with the number it stands for, so that the neighbour of a number is its magnitude plus or minus
one, and "too large" is a comparison with the magnitude of infinity.
-/

set_option relaxedAutoImplicit false
set_option autoImplicit false

namespace QueryPayload

/-- A binary64 number: its sign, and its exponent and fraction fields read as one number. -/
structure Binary64 where
  negative : Bool
  magnitude : Nat
  deriving DecidableEq, Repr

namespace Binary64

/-- The number of values the fraction field can take. -/
def fractionCount : Nat := Nat.pow 2 52

/-- The magnitude of infinity, which is just above all finite ones. -/
def infinite : Nat := 0x7FF * fractionCount

/-- Zero or minus zero. -/
def zero (negative : Bool) : Binary64 := ⟨negative, 0⟩

/-- Infinity or minus infinity. -/
def infinity (negative : Bool) : Binary64 := ⟨negative, infinite⟩

/-- Not a number, in its usual spelling. -/
def nan (negative : Bool) : Binary64 := ⟨negative, infinite + fractionCount / 2⟩

/-- Neither infinite nor not a number. -/
def isFinite (x : Binary64) : Bool := x.magnitude < infinite

/-- Not a number. -/
def isNaN (x : Binary64) : Bool := infinite < x.magnitude

/-- The integer that a finite magnitude is a multiple of a power of two of. -/
def significand (x : Binary64) : Nat :=
  if x.magnitude < fractionCount then x.magnitude
  else fractionCount + x.magnitude % fractionCount

/-- The power of two that a finite magnitude is a multiple of. -/
def exponent (x : Binary64) : Int :=
  if x.magnitude < fractionCount then -1074
  else (x.magnitude / fractionCount : Nat) - 1075

/-- Whether two numbers are equal as numbers: nothing equals what is not a number, and the sign
of zero is not seen. -/
def numericEq (x y : Binary64) : Bool :=
  !x.isNaN && !y.isNaN && x.magnitude == y.magnitude &&
    (x.negative == y.negative || x.magnitude == 0)

end Binary64

end QueryPayload
