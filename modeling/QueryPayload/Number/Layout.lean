import QueryPayload.Number.Shortest

/-!
# How numbers are written

Two layouts of a binary64 number are in use: the one of JSON texts, which may use an exponent and
always shows that the number is not an integer, and the plain one of messages to people, which
writes all digits out.

## Main definitions

* `Binary64.jsonText` — `1.0`, `0.00001`, `1e-6`, `1e+17`.
* `Binary64.plainText` — `1`, `0.00001`, `0.000001`, `100000000000000000`.
-/

set_option relaxedAutoImplicit false
set_option autoImplicit false

namespace QueryPayload

namespace Decimal

/-- The digits of a decimal, most significant first. -/
def digitChars (d : Decimal) : List Char := Nat.toDigits 10 d.digits

/-- The sign of a decimal, as written. -/
def signChars (d : Decimal) : List Char := if d.negative then ['-'] else []

/-- The decimal without an exponent: the digits before the point, and those after it. -/
def positional (d : Decimal) : List Char × List Char :=
  match d.exponent with
  | .ofNat n => (d.digitChars ++ List.replicate n '0', [])
  | .negSucc n =>
    let padded := List.replicate (n + 2 - d.digitChars.length) '0' ++ d.digitChars
    padded.splitAt (padded.length - (n + 1))

/-- The power of ten of the first digit. -/
def leading (d : Decimal) : Int := d.exponent + d.digitChars.length - 1

/-- The decimal with an exponent: one digit, the others behind a point, and the exponent with
its sign. -/
def scientific (d : Decimal) : List Char :=
  let tail := d.digitChars.drop 1
  d.digitChars.take 1 ++ (if tail.isEmpty then [] else '.' :: tail) ++
    ('e' :: (if d.leading < 0 then '-' else '+') :: Nat.toDigits 10 d.leading.natAbs)

end Decimal

namespace Binary64

/-- The least and the greatest power of ten of a first digit that JSON texts write without an
exponent. -/
def jsonPlainRange : Int × Int := (-5, 15)

/-- A finite number in a JSON text: shortest digits, always with a point or an exponent. -/
def jsonText (x : Binary64) : List Char :=
  let d := x.shortest .toEven
  d.signChars ++
    if jsonPlainRange.1 ≤ d.leading ∧ d.leading ≤ jsonPlainRange.2 then
      let (whole, part) := d.positional
      whole ++ '.' :: (if part.isEmpty then ['0'] else part)
    else d.scientific

/-- A number in a message: shortest digits, all of them written out, without a point when there
is nothing behind it. -/
def plainText (x : Binary64) : String :=
  if x.isNaN then "NaN"
  else if x.isFinite then
    let d := x.shortest .up
    let (whole, part) := d.positional
    String.ofList (d.signChars ++ whole ++ if part.isEmpty then [] else '.' :: part)
  else if x.negative then "-inf" else "inf"

end Binary64

end QueryPayload
