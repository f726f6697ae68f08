import QueryPayload.Number.Decimal

/-!
# The shortest decimal of a binary64 number

Among all decimal numbers that a reader takes back to a given binary64 number there are some with
the fewest digits; this module finds the one of them nearest to the number itself.

## Main definitions

* `Tie` — which of two equally near decimals is taken.
* `Binary64.shortest` — the shortest decimal that reads back.

## Design

For one digit, two digits, and so on, the two neighbours of the value on the grid of decimals
with that many digits are tried.  If any point of that grid reads back then one of the two
neighbours does, since the numbers that read back form an interval around the value.  Seventeen
digits always suffice; the exact value stands behind the search so that the function is total
without an appeal to that fact.
-/

set_option relaxedAutoImplicit false
set_option autoImplicit false

namespace QueryPayload

/-- Which of two equally near candidates is taken. -/
inductive Tie where
  /-- The one with an even last digit. -/
  | toEven
  /-- The larger one. -/
  | up
  deriving DecidableEq, Repr

namespace Binary64

/-- Whether the positive decimal `d · 10 ^ e` is read as the magnitude `m`. -/
def readsBack (m : Nat) (d : Nat) (e : Int) : Bool :=
  (Decimal.nearest ⟨false, d, e⟩).map magnitude == some m

/-- The decimals `d` and `d + 1` around `r` in units of `10 ^ e`, the preferred one first. -/
def neighbours (tie : Tie) (r : Ratio) (e : Int) : List Nat :=
  let s := r.scale 10 (-e)
  let d := s.num / s.den
  let twice := 2 * (s.num % s.den)
  let below :=
    if twice < s.den then true
    else if s.den < twice then false
    else match tie with
      | .toEven => d % 2 = 0
      | .up => false
  if below then [d, d + 1] else [d + 1, d]

/-- A decimal without the zeros at its end; the fuel is the number of digits. -/
def dropZeros : Nat → Nat → Int → Nat × Int
  | 0, d, e => (d, e)
  | n + 1, d, e => if d % 10 = 0 ∧ d ≠ 0 then dropZeros n (d / 10) (e + 1) else (d, e)

/-- The first decimal with at most `count` more digits, beginning at unit `10 ^ e`, that reads
back as `m`. -/
def searchShortest (tie : Tie) (m : Nat) (r : Ratio) : Nat → Int → Option (Nat × Int)
  | 0, _ => none
  | count + 1, e =>
    match (neighbours tie r e).find? (readsBack m · e) with
    | some d => some (dropZeros (digitCount d) d e)
    | none => searchShortest tie m r count (e - 1)

/-- The exact decimal value of `m · 2 ^ e`. -/
def exactDecimal (m : Nat) (e : Int) : Nat × Int :=
  match e with
  | .ofNat n => (m * Nat.pow 2 n, 0)
  | .negSucc n => (m * Nat.pow 5 (n + 1), .negSucc n)

/-- The shortest decimal read as the finite number `x`, and of those the nearest.  Its digits do
not end in zero unless the number is zero. -/
def shortest (tie : Tie) (x : Binary64) : Decimal :=
  if x.magnitude = 0 then ⟨x.negative, 0, 0⟩
  else
    let r := x.ratio
    let (d, e) := (searchShortest tie x.magnitude r 17 r.floorLog10).getD
      (exactDecimal x.significand x.exponent)
    ⟨x.negative, d, e⟩

end Binary64

end QueryPayload
