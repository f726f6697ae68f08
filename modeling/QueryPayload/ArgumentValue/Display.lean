import QueryPayload.ArgumentValue.Basic
import QueryPayload.Text.Quoted

/-!
# Argument values in messages

## Main definitions

* `ArgumentValue.display` — a value on one line: strings quoted, keys bare, numbers written out.
-/

set_option relaxedAutoImplicit false
set_option autoImplicit false

namespace QueryPayload

/-- A number in a message. -/
def Json.Number.plainText : Json.Number → String
  | .int n => toString n
  | .float x => x.plainText

namespace ArgumentValue

mutual

/-- A value on one line. -/
def display : ArgumentValue → String
  | .null => "null"
  | .bool true => "true"
  | .bool false => "false"
  | .int n => toString n
  | .float x => x.plainText
  | .string s => Text.quoted s
  | .list items => "[" ++ ", ".intercalate (displayItems items) ++ "]"
  | .object entries => "\x7b" ++ ", ".intercalate (displayEntries entries) ++ "\x7d"

/-- Each item on its own. -/
def displayItems : List ArgumentValue → List String
  | [] => []
  | a :: as => a.display :: displayItems as

/-- Each entry on its own. -/
def displayEntries : List (String × ArgumentValue) → List String
  | [] => []
  | (k, a) :: as => (k ++ ": " ++ a.display) :: displayEntries as

end

end ArgumentValue

end QueryPayload
