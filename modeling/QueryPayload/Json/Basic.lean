import QueryPayload.Number.Layout

/-!
# JSON trees

A JSON text without its spelling: the tree of values, with the entries of an object in the order
in which they were written.

## Main definitions

* `Json.Number` — an exact integer or a binary64 number.
* `Json` — the tree.
* `Json.compact` — its text without any blanks.

## Design

Integers are kept exact and apart from floating-point numbers, so that no reader of a tree can
mistake one for the other.  Nothing in the type forbids an object to repeat a key; the readers
that build trees state what they do with a repeated key.
-/

set_option relaxedAutoImplicit false
set_option autoImplicit false

namespace QueryPayload

/-- A number of a JSON tree. -/
inductive Json.Number where
  | int (n : Int)
  | float (x : Binary64)
  deriving DecidableEq, Repr

/-- A JSON tree. -/
inductive Json where
  | null
  | bool (b : Bool)
  | num (n : Json.Number)
  | str (s : String)
  | arr (items : List Json)
  | obj (entries : List (String × Json))
  deriving Repr

namespace Json

/-- A number in a JSON text. -/
def Number.chars : Number → List Char
  | .int n => (toString n).toList
  | .float x => x.jsonText

/-- The two lower-case hexadecimal digits of a number below 256. -/
def hexPair (n : Nat) : List Char := [Nat.digitChar (n / 16), Nat.digitChar (n % 16)]

/-- A character inside a quoted string: quote and backslash behind a backslash, control
characters by their short escape or their number, all others as they are. -/
def escape (c : Char) : List Char :=
  match c with
  | '"' => ['\\', '"']
  | '\\' => ['\\', '\\']
  | '\n' => ['\\', 'n']
  | '\r' => ['\\', 'r']
  | '\t' => ['\\', 't']
  | '\x08' => ['\\', 'b']
  | '\x0c' => ['\\', 'f']
  | c => if c.toNat < 0x20 then '\\' :: 'u' :: '0' :: '0' :: hexPair c.toNat else [c]

/-- A string between quotes. -/
def quote (s : String) : List Char := '"' :: (s.toList.flatMap escape ++ ['"'])

/-- Parts with a comma between every two of them. -/
def commaSeparated : List (List Char) → List Char
  | [] => []
  | [p] => p
  | p :: q :: ps => p ++ ',' :: commaSeparated (q :: ps)

mutual

/-- The characters of a tree, without blanks. -/
def chars : Json → List Char
  | .null => "null".toList
  | .bool true => "true".toList
  | .bool false => "false".toList
  | .num n => n.chars
  | .str s => quote s
  | .arr items => '[' :: (commaSeparated (itemChars items) ++ [']'])
  | .obj entries => '\x7b' :: (commaSeparated (entryChars entries) ++ ['\x7d'])

/-- The characters of each item. -/
def itemChars : List Json → List (List Char)
  | [] => []
  | v :: vs => v.chars :: itemChars vs

/-- The characters of each entry. -/
def entryChars : List (String × Json) → List (List Char)
  | [] => []
  | (k, v) :: es => (quote k ++ ':' :: v.chars) :: entryChars es

end

/-- The text of a tree, without blanks. -/
def compact (v : Json) : String := String.ofList v.chars

/-- The value under a key: that of its first entry. -/
def lookup (key : String) (entries : List (String × Json)) : Option Json :=
  (entries.find? (·.1 == key)).map (·.2)

end Json

end QueryPayload
