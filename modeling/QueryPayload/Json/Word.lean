import QueryPayload.Json.Cursor

/-!
# The words of JSON

## Main definitions

* `Json.Word` — `null`, `true` and `false`.
* `Json.Word.scan` — reads one, whose first letter has been seen.
-/

set_option relaxedAutoImplicit false
set_option autoImplicit false

namespace QueryPayload

namespace Json

/-- The values that are spelled as a word. -/
inductive Word where
  | null
  | bool (b : Bool)
  deriving DecidableEq, Repr

namespace Word

/-- The spelling of a word. -/
def letters : Word → List UInt8
  | .null => [0x6E, 0x75, 0x6C, 0x6C]
  | .bool true => [0x74, 0x72, 0x75, 0x65]
  | .bool false => [0x66, 0x61, 0x6C, 0x73, 0x65]

/-- The word that a byte begins. -/
def ofFirst? (b : UInt8) : Option Word :=
  if b = 0x6E then some .null
  else if b = 0x74 then some (.bool true)
  else if b = 0x66 then some (.bool false)
  else none

/-- Passes over the given letters.  A letter that differs has been consumed when that is
noticed. -/
def expect : List UInt8 → Nat → List UInt8 → Except Fault Cursor
  | [], offset, rest => .ok ⟨offset, rest⟩
  | _ :: _, offset, [] => .error ⟨.endInValue, .after offset⟩
  | l :: ls, offset, b :: rest =>
    if b = l then expect ls (offset + 1) rest
    else .error ⟨.expectedIdent, .after (offset + 1)⟩

/-- Reads the word. -/
def scan (w : Word) (c : Cursor) : Except Fault Cursor := expect w.letters c.offset c.rest

end Word

end Json

end QueryPayload
