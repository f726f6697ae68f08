import QueryPayload.Text.Position

/-!
# Where a text stops being JSON

## Main definitions

* `Json.Fault.Cause` — the ways in which a text can fail to be JSON.
* `Json.Fault` — a cause, and the mark where it was met.

## Design

A cause is a constructor and its wording is one function, so that a reader decides on causes and
never on texts.  Some causes are that the text ended too soon; `Cause.isEnd` tells these apart.
-/

set_option relaxedAutoImplicit false
set_option autoImplicit false

namespace QueryPayload

namespace Json

/-- What is wrong with a text that is not JSON. -/
inductive Fault.Cause where
  /-- The text ends where a value is wanted. -/
  | endInValue
  /-- The text ends inside an array. -/
  | endInList
  /-- The text ends inside an object. -/
  | endInObject
  /-- The text ends inside a string. -/
  | endInString
  /-- No value begins with the byte found. -/
  | expectedValue
  /-- The letters of `null`, `true` or `false` are not followed through. -/
  | expectedIdent
  /-- A key is not followed by a colon. -/
  | expectedColon
  /-- An item is followed neither by a comma nor by the end of the array. -/
  | expectedListCommaOrEnd
  /-- An entry is followed neither by a comma nor by the end of the object. -/
  | expectedObjectCommaOrEnd
  /-- An entry does not begin with a string. -/
  | keyMustBeString
  /-- A comma is followed by a closing bracket. -/
  | trailingComma
  /-- Something follows the value. -/
  | trailingCharacters
  /-- The digits of a number are not where they must be. -/
  | invalidNumber
  /-- A number is too large for a binary64 number. -/
  | numberOutOfRange
  /-- A backslash is followed by something that is no escape. -/
  | invalidEscape
  /-- A string contains a raw control character. -/
  | controlCharacter
  /-- A surrogate escape stands alone. -/
  | loneSurrogate
  /-- A leading surrogate escape is not followed by an escape. -/
  | endOfHexEscape
  /-- The bytes of a string are not UTF-8. -/
  | invalidUnicode
  /-- Arrays and objects are nested too deeply. -/
  | tooDeep
  deriving DecidableEq, Repr

namespace Fault.Cause

/-- Whether the text ended too soon. -/
def isEnd : Fault.Cause → Bool
  | .endInValue | .endInList | .endInObject | .endInString => true
  | _ => false

/-- The wording of a cause. -/
def message : Fault.Cause → String
  | .endInValue => "EOF while parsing a value"
  | .endInList => "EOF while parsing a list"
  | .endInObject => "EOF while parsing an object"
  | .endInString => "EOF while parsing a string"
  | .expectedValue => "expected value"
  | .expectedIdent => "expected ident"
  | .expectedColon => "expected `:`"
  | .expectedListCommaOrEnd => "expected `,` or `]`"
  | .expectedObjectCommaOrEnd => "expected `,` or `\x7d`"
  | .keyMustBeString => "key must be a string"
  | .trailingComma => "trailing comma"
  | .trailingCharacters => "trailing characters"
  | .invalidNumber => "invalid number"
  | .numberOutOfRange => "number out of range"
  | .invalidEscape => "invalid escape"
  | .controlCharacter => "control character (\\u0000-\\u001F) found while parsing a string"
  | .loneSurrogate => "lone leading surrogate in hex escape"
  | .endOfHexEscape => "unexpected end of hex escape"
  | .invalidUnicode => "invalid unicode code point"
  | .tooDeep => "recursion limit exceeded"

end Fault.Cause

/-- Something that makes a text not JSON, and where. -/
structure Fault where
  cause : Fault.Cause
  mark : Mark
  deriving DecidableEq, Repr

end Json

end QueryPayload
