import QueryPayload.Json.Cursor
import QueryPayload.Json.Basic
import QueryPayload.Number.Conversion

/-!
# The numerals of JSON

## Main definitions

* `Json.Numeral` — a numeral as spelled: sign, digits, digits behind the point, exponent.
* `Json.Numeral.scan` — reads one.
* `Json.Numeral.float?` — the binary64 number it is converted to.
* `Json.Numeral.value` — the number it is read as.
* `Json.Numeral.skip`, `Json.Numeral.read` — the two uses: passing over a numeral whose value does
  not matter, and reading one.

## Design

A numeral without point and exponent is an integer when its value fits one of the two 64-bit
integer types, except that `-0` is not.  Every other numeral is converted to a binary64 number
(`Scaled.float?`), which need not be the nearest one, and must not be out of range.  Of its digits,
those that an unsigned 64-bit integer has no room for are dropped.  A numeral that is passed over is
only checked for its form.
-/

set_option relaxedAutoImplicit false
set_option autoImplicit false

namespace QueryPayload

namespace Json

/-- The exponent of a numeral; `offset` is that of its first digit. -/
structure Numeral.Exponent where
  negative : Bool
  offset : Nat
  digits : List UInt8
  deriving DecidableEq, Repr

/-- A numeral as it is spelled. -/
structure Numeral where
  negative : Bool
  whole : List UInt8
  fraction : Option (List UInt8)
  exponent : Option Numeral.Exponent
  deriving DecidableEq, Repr

/-- Why a numeral has no proper form: the text ends in it, or a byte is not the digit wanted. -/
structure Numeral.Misfit where
  ended : Bool
  mark : Mark
  deriving DecidableEq, Repr

namespace Numeral

/-- The digits before the point.  A leading zero stands alone. -/
def scanWhole (c : Cursor) : Except Misfit (List UInt8 × Cursor) :=
  match c.rest with
  | [] => .error ⟨true, .after c.offset⟩
  | b :: rest =>
    if b = Byte.zero then
      match rest with
      | d :: _ =>
        if Byte.isDigit d then .error ⟨false, .blaming (c.offset + 1)⟩
        else .ok ([b], ⟨c.offset + 1, rest⟩)
      | [] => .ok ([b], ⟨c.offset + 1, rest⟩)
    else if Byte.isDigit b then .ok c.takeDigits
    else .error ⟨false, .after (c.offset + 1)⟩

/-- The digits behind the point, if there is one. -/
def scanFraction (c : Cursor) : Except Misfit (Option (List UInt8) × Cursor) :=
  match c.rest with
  | [] => .ok (none, c)
  | b :: rest =>
    if b = Byte.point then
      let (digits, c) := Cursor.takeDigits ⟨c.offset + 1, rest⟩
      if digits.isEmpty then .error ⟨c.rest.isEmpty, .blaming c.offset⟩
      else .ok (some digits, c)
    else .ok (none, c)

/-- The digits of an exponent. -/
def scanPower (negative : Bool) (c : Cursor) : Except Misfit (Exponent × Cursor) :=
  match c.rest with
  | [] => .error ⟨true, .after c.offset⟩
  | b :: _ =>
    if Byte.isDigit b then
      let (digits, after) := c.takeDigits
      .ok (⟨negative, c.offset, digits⟩, after)
    else .error ⟨false, .after (c.offset + 1)⟩

/-- The exponent, if there is one. -/
def scanExponent (c : Cursor) : Except Misfit (Option Exponent × Cursor) :=
  match c.rest with
  | [] => .ok (none, c)
  | b :: rest =>
    if Byte.isExponentMark b then
      let (negative, c) : Bool × Cursor :=
        match rest with
        | s :: digits =>
          if s = Byte.plus then (false, ⟨c.offset + 2, digits⟩)
          else if s = Byte.minus then (true, ⟨c.offset + 2, digits⟩)
          else (false, ⟨c.offset + 1, rest⟩)
        | [] => (false, ⟨c.offset + 1, rest⟩)
      (scanPower negative c).map fun (e, c) => (some e, c)
    else .ok (none, c)

/-- The sign, if there is one. -/
def scanSign (c : Cursor) : Bool × Cursor :=
  match c.rest with
  | b :: rest => if b = Byte.minus then (true, ⟨c.offset + 1, rest⟩) else (false, c)
  | [] => (false, c)

/-- Reads the numeral at the cursor. -/
def scan (c : Cursor) : Except Misfit (Numeral × Cursor) := do
  let (negative, c) := scanSign c
  let (whole, c) ← scanWhole c
  let (fraction, c) ← scanFraction c
  let (exponent, c) ← scanExponent c
  return (⟨negative, whole, fraction, exponent⟩, c)

/-- The number a list of digits stands for. -/
def digitsValue (ds : List UInt8) : Nat :=
  ds.foldl (fun n d => n * 10 + (d.toNat - 0x30)) 0

/-- The largest positive integer kept exact. -/
def maxPositive : Nat := Nat.pow 2 64 - 1

/-- The largest magnitude of a negative integer kept exact. -/
def maxNegative : Nat := Nat.pow 2 63

/-- The integer a numeral stands for, if it is kept exact. -/
def integer? (n : Numeral) : Option Int :=
  match n.fraction, n.exponent with
  | none, none =>
    let v := digitsValue n.whole
    if n.negative then
      if v ≠ 0 ∧ v ≤ maxNegative then some (-v) else none
    else if v ≤ maxPositive then some v else none
  | _, _ => none

/-- The power of ten of an exponent. -/
def Exponent.power (e : Exponent) : Int :=
  if e.negative then -(digitsValue e.digits : Int) else digitsValue e.digits

/-- The largest exponent that is followed to its last digit. -/
def maxExponent : Nat := Nat.pow 2 31 - 1

/-- How many digits are consumed until their value exceeds `maxExponent`, if it ever does. -/
def overrun? : List UInt8 → Nat → Nat → Option Nat
  | [], _, _ => none
  | d :: ds, value, count =>
    let value := value * 10 + (d.toNat - 0x30)
    if maxExponent < value then some (count + 1) else overrun? ds value (count + 1)

/-- Where a numeral that is too large is given up: at the digit with which its exponent becomes
hopeless, or behind its end. -/
def rangeMark (n : Numeral) (after : Nat) : Mark :=
  match n.exponent with
  | none => .seeing after
  | some e =>
    match overrun? e.digits 0 0 with
    | some count => .after (e.offset + count)
    | none => .seeing after

/-- Takes digits behind those of `kept` for as long as the number they make fits 64 bits: the
number, and the digits that are left over. -/
def gather : List UInt8 → Nat → Nat × List UInt8
  | [], kept => (kept, [])
  | d :: ds, kept =>
    let next := kept * 10 + (d.toNat - 0x30)
    if next ≤ maxPositive then gather ds next else (kept, d :: ds)

/-- The significand of a numeral and its power of ten, the exponent apart: a dropped digit before
the point counts, and so does a digit behind it that is kept. -/
def scaled (n : Numeral) : Scaled :=
  let part := n.fraction.getD []
  let (kept, dropped) := gather n.whole 0
  let (kept, rest) := gather part kept
  ⟨kept, dropped.length - (part.length - rest.length)⟩

/-- The number without its sign that a numeral with a given significand and power of ten is
converted to, when an exponent goes with it. -/
def Exponent.float? (e : Exponent) (s : Scaled) : Option Binary64 :=
  match overrun? e.digits 0 0 with
  | none => Scaled.float? ⟨s.significand, s.exponent + e.power⟩
  | some _ => if s.significand ≠ 0 ∧ e.negative = false then none else some (.zero false)

/-- The binary64 number a numeral is converted to, if it is not out of range. -/
def float? (n : Numeral) : Option Binary64 :=
  let magnitude? := match n.exponent with
    | none => n.scaled.float?
    | some e => e.float? n.scaled
  magnitude?.map fun x => ⟨n.negative, x.magnitude⟩

/-- The number a numeral that ends at offset `after` is read as. -/
def value (n : Numeral) (after : Nat) : Except Fault Number :=
  match n.integer? with
  | some i => .ok (.int i)
  | none =>
    match n.float? with
    | some x => .ok (.float x)
    | none => .error ⟨.numberOutOfRange, n.rangeMark after⟩

/-- Why a numeral cannot be read. -/
def Misfit.fault (m : Misfit) : Fault :=
  ⟨if m.ended then .endInValue else .invalidNumber, m.mark⟩

/-- Why a numeral cannot be passed over: here the end of the text has no wording of its own. -/
def Misfit.skipFault (m : Misfit) : Fault := ⟨.invalidNumber, m.mark⟩

end Numeral

end Json

end QueryPayload
