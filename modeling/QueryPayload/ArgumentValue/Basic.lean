import QueryPayload.Json.Basic

/-!
# Argument values

The value passed for an argument of a field.

## Main definitions

* `ArgumentValue` — the value, with integers apart from floating-point numbers.
* `ArgumentValue.ofJson?`, `ArgumentValue.toJson` — from and to JSON trees.
* `ArgumentValue.same` — equality of the values meant.

## Design

A literal keeps its shape.  A reference to a variable arrives as an object and stays one; whoever
uses the value gives it a meaning.  Equality is not equality of the trees: the entries of an object
may come in any order, and floating-point numbers are compared as numbers.
-/

set_option relaxedAutoImplicit false
set_option autoImplicit false

namespace QueryPayload

/-- The value of an argument. -/
inductive ArgumentValue where
  | null
  | bool (b : Bool)
  | int (n : Int)
  | float (x : Binary64)
  | string (s : String)
  | list (items : List ArgumentValue)
  | object (entries : List (String × ArgumentValue))
  deriving Repr

namespace ArgumentValue

/-- The integers an argument can have. -/
def fits (n : Int) : Bool := -(Int.pow 2 63) ≤ n && n < Int.pow 2 63

/-- The value of a number, or the number itself if it is too large or no number. -/
def ofNumber? : Json.Number → Except Json.Number ArgumentValue
  | .int n => if fits n then .ok (.int n) else .error (.int n)
  | .float x => if x.isFinite then .ok (.float x) else .error (.float x)

mutual

/-- The value a tree stands for, or the first number in it that has none. -/
def ofJson? : Json → Except Json.Number ArgumentValue
  | .null => .ok .null
  | .bool b => .ok (.bool b)
  | .num n => ofNumber? n
  | .str s => .ok (.string s)
  | .arr items => (ofItems? items).map .list
  | .obj entries => (ofEntries? entries).map .object

/-- The values of a list of trees. -/
def ofItems? : List Json → Except Json.Number (List ArgumentValue)
  | [] => .ok []
  | v :: vs => do
    let a ← ofJson? v
    let as ← ofItems? vs
    return a :: as

/-- The values of a list of entries. -/
def ofEntries? : List (String × Json) → Except Json.Number (List (String × ArgumentValue))
  | [] => .ok []
  | (k, v) :: es => do
    let a ← ofJson? v
    let as ← ofEntries? es
    return (k, a) :: as

end

mutual

/-- The tree a value stands for. -/
def toJson : ArgumentValue → Json
  | .null => .null
  | .bool b => .bool b
  | .int n => .num (.int n)
  | .float x => .num (.float x)
  | .string s => .str s
  | .list items => .arr (itemsToJson items)
  | .object entries => .obj (entriesToJson entries)

/-- The trees of a list of values. -/
def itemsToJson : List ArgumentValue → List Json
  | [] => []
  | a :: as => a.toJson :: itemsToJson as

/-- The trees of a list of entries. -/
def entriesToJson : List (String × ArgumentValue) → List (String × Json)
  | [] => []
  | (k, a) :: as => (k, a.toJson) :: entriesToJson as

end

mutual

/-- Whether two values mean the same. -/
def same : ArgumentValue → ArgumentValue → Bool
  | .null, .null => true
  | .bool a, .bool b => a == b
  | .int a, .int b => a == b
  | .float a, .float b => a.numericEq b
  | .string a, .string b => a == b
  | .list as, .list bs => sameItems as bs
  | .object as, .object bs => as.length == bs.length && sameEntries as bs
  | _, _ => false

/-- Whether two lists mean the same, item by item. -/
def sameItems : List ArgumentValue → List ArgumentValue → Bool
  | [], [] => true
  | a :: as, b :: bs => same a b && sameItems as bs
  | _, _ => false

/-- Whether each entry has one with the same key and the same value among `bs`. -/
def sameEntries : List (String × ArgumentValue) → List (String × ArgumentValue) → Bool
  | [], _ => true
  | (k, a) :: as, bs =>
    (match bs.find? (·.1 == k) with
      | some (_, b) => same a b
      | none => false) && sameEntries as bs

end

instance : BEq ArgumentValue := ⟨same⟩

/-- The truth value of a value that is one. -/
def asBool? : ArgumentValue → Option Bool
  | .bool b => some b
  | _ => none

/-- The integer of a value that is one. -/
def asInt? : ArgumentValue → Option Int
  | .int n => some n
  | _ => none

/-- The text of a value that is one. -/
def asString? : ArgumentValue → Option String
  | .string s => some s
  | _ => none

/-- The items of a value that is a list. -/
def asList? : ArgumentValue → Option (List ArgumentValue)
  | .list items => some items
  | _ => none

/-- The entries of a value that is an object. -/
def asObject? : ArgumentValue → Option (List (String × ArgumentValue))
  | .object entries => some entries
  | _ => none

/-- Whether a value is null. -/
def isNull : ArgumentValue → Bool
  | .null => true
  | _ => false

/-- Whether a value is a floating-point number. -/
def isFloat : ArgumentValue → Bool
  | .float _ => true
  | _ => false

end ArgumentValue

end QueryPayload
