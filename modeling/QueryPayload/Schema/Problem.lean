import QueryPayload.ArgumentValue.Display
import QueryPayload.Json.Source
import QueryPayload.Schema.Kind

/-!
# What can be wrong with a payload node

## Main definitions

* `Segment`, `Path` — the way from the root of a payload to a node.
* `Found` — what stands where something else is wanted.
* `Problem` — everything that can be wrong; `Problem.message` is its wording.
* `Failure` — a problem, the path to it, and its mark if it has one.

## Design

A reader knows only where it is in relation to the node it was called on, so a failure is built
from the inside out: `Failure.within` puts a segment in front of its path, and `Failure.markedAt`
gives it a mark unless it already has one.  Problems of the text have their mark from the start.
-/

set_option relaxedAutoImplicit false
set_option autoImplicit false

namespace QueryPayload

/-- A step from a node to one of its parts. -/
inductive Segment where
  /-- To the value under a key. -/
  | key (k : String)
  /-- To the item with an index. -/
  | index (i : Nat)
  /-- To something that has no key yet. -/
  | unknown
  deriving DecidableEq, Repr

namespace Segment

/-- A step as it is written behind others. -/
def text : Segment → String
  | .key k => "." ++ k
  | .index i => "[" ++ toString i ++ "]"
  | .unknown => ".?"

/-- A step as it is written at the start of a path. -/
def firstText : Segment → String
  | .key k => k
  | .index i => "[" ++ toString i ++ "]"
  | .unknown => "?"

end Segment

/-- A way from a node to a node below it. -/
abbrev Path := List Segment

namespace Path

/-- A path as people read it; the root is a lone point. -/
def text : Path → String
  | [] => "."
  | s :: rest => s.firstText ++ String.join (rest.map Segment.text)

end Path

/-- What stands where something else is wanted. -/
inductive Found where
  | null
  | bool (b : Bool)
  | number (n : Json.Number)
  | string (s : String)
  | sequence
  | map
  deriving DecidableEq, Repr

namespace Found

/-- What was found, in words. -/
def text : Found → String
  | .null => "null"
  | .bool b => "boolean `" ++ (if b then "true" else "false") ++ "`"
  | .number (.int n) => "integer `" ++ toString n ++ "`"
  | .number (.float x) => "floating point `" ++ String.ofList x.jsonText ++ "`"
  | .string s => "string " ++ Text.quoted s
  | .sequence => "sequence"
  | .map => "map"

/-- What a tree is to someone who wants something else. -/
def ofJson : Json → Found
  | .null => .null
  | .bool b => .bool b
  | .num n => .number n
  | .str s => .string s
  | .arr _ => .sequence
  | .obj _ => .map

end Found

/-- What is wrong with a node. -/
inductive Problem where
  /-- The text is not JSON. -/
  | notJson (cause : Json.Fault.Cause)
  /-- A value of another type is wanted. -/
  | wrongType (found : Found) (expected : String)
  /-- A kind is given as an object that has not exactly one key. -/
  | notSingleKey
  /-- A node in the form of an array has too few or too many items. -/
  | wrongLength (count : Nat) (expected : String)
  /-- No kind of the family has the spelling. -/
  | unknownKind (name : String) (family : KindFamily)
  /-- A field is not there. -/
  | missingField (name : String)
  /-- A field is there twice. -/
  | duplicateField (name : String)
  /-- An object that is kept as it is has a key twice. -/
  | repeatedKey (key : String)
  /-- A node lacks a field that its kind needs. -/
  | lacksField (node field : String)
  /-- A type reference is malformed. -/
  | malformedType (m : TypeRef.Malformed)
  /-- A number of an argument value is too large or no number. -/
  | unrepresentable (n : Json.Number)
  /-- A selection of the given kind has the given problem inside. -/
  | inSelection (kind : Selection.Kind) (path : Path) (problem : Problem)
  deriving Repr

namespace Problem

/-- The wording of a problem. -/
def message : Problem → String
  | .notJson cause => cause.message
  | .wrongType found expected => "invalid type: " ++ found.text ++ ", expected " ++ expected
  | .notSingleKey => "invalid value: map, expected map with a single key"
  | .wrongLength count expected =>
    "invalid length " ++ toString count ++ ", expected " ++ expected
  | .unknownKind name family =>
    "unknown variant `" ++ name ++ "`, expected one of " ++ family.listing
  | .missingField name => "missing field `" ++ name ++ "`"
  | .duplicateField name => "duplicate field `" ++ name ++ "`"
  | .repeatedKey key => "object has more than one entry with key `" ++ key ++ "`"
  | .lacksField node field =>
    "`" ++ node ++ "` node is missing required field `" ++ field ++ "`"
  | .malformedType m => m.message
  | .unrepresentable n =>
    "number `" ++ n.plainText ++
      "` cannot be represented as an integer or float without losing precision"
  | .inSelection kind path problem =>
    "invalid `" ++ kind.spelling ++ "` selection at `" ++ path.text ++ "`: " ++ problem.message

end Problem

/-- A problem, the path to it, and where in the text it was met if that is known. -/
structure Failure where
  path : Path
  problem : Problem
  mark : Option Mark
  deriving Repr

namespace Failure

/-- A problem at the node itself. -/
def of (problem : Problem) : Failure := ⟨[], problem, none⟩

/-- A problem at the node itself, met at the given mark. -/
def marked (problem : Problem) (mark : Mark) : Failure := ⟨[], problem, some mark⟩

/-- A problem of the text. -/
def ofFault (fault : Json.Fault) : Failure := ⟨[], .notJson fault.cause, some fault.mark⟩

/-- The failure of a part, seen from the node it is a part of. -/
def within (segment : Segment) (f : Failure) : Failure := ⟨segment :: f.path, f.problem, f.mark⟩

/-- The failure with the given mark, unless it has one. -/
def markedAt (mark : Mark) (f : Failure) : Failure := ⟨f.path, f.problem, some (f.mark.getD mark)⟩

/-- Where in the text the problem was met. -/
def position? (supply : Supply) (text : List UInt8) (f : Failure) : Option Position :=
  f.mark.map (Mark.position supply text)

end Failure

end QueryPayload
