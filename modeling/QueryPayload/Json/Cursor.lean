import QueryPayload.Json.Fault

/-!
# Reading bytes

What is left of a text, together with the number of bytes already consumed.

## Main definitions

* `Byte` — the bytes that have a meaning in JSON, by name.
* `Json.Cursor` — an offset and the bytes from there on.
* `Json.Cursor.skipBlanks`, `Json.Cursor.takeDigits` — runs of blanks and of digits.
-/

set_option relaxedAutoImplicit false
set_option autoImplicit false

namespace QueryPayload

namespace Byte

/-- A double quote. -/
abbrev quote : UInt8 := 0x22
/-- A backslash. -/
abbrev backslash : UInt8 := 0x5C
/-- A comma. -/
abbrev comma : UInt8 := 0x2C
/-- A colon. -/
abbrev colon : UInt8 := 0x3A
/-- An opening square bracket. -/
abbrev openBracket : UInt8 := 0x5B
/-- A closing square bracket. -/
abbrev closeBracket : UInt8 := 0x5D
/-- An opening curly brace. -/
abbrev openBrace : UInt8 := 0x7B
/-- A closing curly brace. -/
abbrev closeBrace : UInt8 := 0x7D
/-- A minus sign. -/
abbrev minus : UInt8 := 0x2D
/-- A plus sign. -/
abbrev plus : UInt8 := 0x2B
/-- A decimal point. -/
abbrev point : UInt8 := 0x2E
/-- The digit zero. -/
abbrev zero : UInt8 := 0x30

/-- Whether a byte is a digit. -/
def isDigit (b : UInt8) : Bool := 0x30 ≤ b && b ≤ 0x39

/-- Whether a byte begins the exponent of a number. -/
def isExponentMark (b : UInt8) : Bool := b == 0x65 || b == 0x45

/-- Whether a byte may stand between the parts of a JSON text. -/
def isBlank (b : UInt8) : Bool := b == 0x20 || b == 0x0A || b == 0x09 || b == 0x0D

/-- Whether a byte is a control character, which strings must not contain. -/
def isControl (b : UInt8) : Bool := b < 0x20

/-- The number a hexadecimal digit stands for. -/
def hexValue? (b : UInt8) : Option Nat :=
  if 0x30 ≤ b ∧ b ≤ 0x39 then some (b.toNat - 0x30)
  else if 0x41 ≤ b ∧ b ≤ 0x46 then some (b.toNat - 0x41 + 10)
  else if 0x61 ≤ b ∧ b ≤ 0x66 then some (b.toNat - 0x61 + 10)
  else none

end Byte

namespace Json

/-- A place in a text: how many bytes precede it, and the bytes from there on. -/
structure Cursor where
  offset : Nat
  rest : List UInt8
  deriving DecidableEq, Repr

namespace Cursor

/-- The start of a text. -/
def start (text : List UInt8) : Cursor := ⟨0, text⟩

/-- The run of blanks at the cursor is passed over. -/
def skipBlanks (c : Cursor) : Cursor :=
  ⟨c.offset + (c.rest.takeWhile Byte.isBlank).length, c.rest.dropWhile Byte.isBlank⟩

/-- The run of digits at the cursor, and the cursor behind it. -/
def takeDigits (c : Cursor) : List UInt8 × Cursor :=
  (c.rest.takeWhile Byte.isDigit,
    ⟨c.offset + (c.rest.takeWhile Byte.isDigit).length, c.rest.dropWhile Byte.isDigit⟩)

/-- Where a reader stands that gave up here and tried to close what it was reading: behind the
closing byte if that comes next, and otherwise looking at what comes next. -/
def leave (close : UInt8) (c : Cursor) : Mark :=
  let c := c.skipBlanks
  match c.rest with
  | b :: _ => if b = close then .after (c.offset + 1) else .seeing c.offset
  | [] => .seeing c.offset

/-- Where a reader stands that gave up behind an item of an array and tried to close the array: a
comma is passed over on the way. -/
def leaveItem (c : Cursor) : Mark :=
  let c := c.skipBlanks
  match c.rest with
  | b :: rest =>
    if b = Byte.comma then .seeing (Cursor.skipBlanks ⟨c.offset + 1, rest⟩).offset
    else c.leave Byte.closeBracket
  | [] => .seeing c.offset

end Cursor

end Json

end QueryPayload
