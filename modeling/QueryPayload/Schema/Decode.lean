import QueryPayload.Schema.OfSource

/-!
# Decoding whole texts

## Main definitions

* `Shape.decode` — reads a text that holds one value of a shape and nothing else.
* `Json.ofText` — the tree of a text that holds one value and nothing else.
-/

set_option relaxedAutoImplicit false
set_option autoImplicit false

namespace QueryPayload

/-- A value that has been read, unless something is wrong behind it. -/
def concludeText {α : Type} (value : Except Failure α) (trailing : Option Json.Fault) :
    Except Failure α :=
  match value with
  | .error e => .error e
  | .ok v =>
    match trailing with
    | some fault => .error (.ofFault fault)
    | none => .ok v

/-- Reads a text that holds one value of the shape, with nothing but blanks around it. -/
def Shape.decode (s : Shape) (text : List UInt8) : Except Failure s.Val :=
  let (source, trailing) := Json.Source.scan text
  concludeText (source.read s) trailing

/-- The tree of a text, with nothing but blanks around it.  Of the values under a repeated key the
last one counts. -/
def Json.ofText (text : List UInt8) : Except Failure Json :=
  let (source, trailing) := Json.Source.scan text
  concludeText (source.tree .lastWins) trailing

end QueryPayload
