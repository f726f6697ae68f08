import QueryPayload.Document.Closure
import QueryPayload.Schema.Decode

/-!
# Decoding documents

## Main definitions

* `DecodeError` — why a payload is no document; `DecodeError.message` is its wording.
* `Document.ofParts` — registers the fragments of a payload.
* `Document.ofText`, `Document.ofJson` — the document of a text, and of a tree.

## Design

Decoding is all or nothing.  The three lists are decoded first, then the fragments are registered,
and only then is it checked that nothing follows in the text; so a fragment that is defined twice
is reported rather than what follows.
-/

set_option relaxedAutoImplicit false
set_option autoImplicit false

namespace QueryPayload

/-- Why a payload is no document. -/
inductive DecodeError where
  /-- Two fragments have one name. -/
  | duplicateFragment (clash : DuplicateFragment)
  /-- The node at the path is not what it should be.  The position is known for texts, and then
  not for every problem. -/
  | invalidPayload (path : Path) (problem : Problem) (position : Option Position)
  deriving Repr

namespace DecodeError

/-- The error of a failure met in a text. -/
def ofFailure (supply : Supply) (text : List UInt8) (f : Failure) : DecodeError :=
  .invalidPayload f.path f.problem (f.position? supply text)

/-- The wording of an error. -/
def message : DecodeError → String
  | .duplicateFragment clash => clash.message
  | .invalidPayload path problem position =>
    "Invalid AST payload at `" ++ path.text ++ "`: " ++ problem.message ++
      (position.map Position.suffix).getD ""

end DecodeError

namespace Document

/-- The document made of three lists, unless two fragments have one name. -/
def ofParts (parts : DocumentParts) : Except DecodeError Document :=
  match FragmentRegistry.empty.addAll parts.fragments with
  | (_, some clash) => .error (.duplicateFragment clash)
  | (registry, none) => .ok ⟨parts.operations, registry, parts.typesUsed⟩

/-- The three lists of a text, and what is wrong behind them. -/
def readParts (text : List UInt8) : Except Failure DocumentParts × Option Json.Fault :=
  let (source, trailing) := Json.Source.scan text
  (source.read (.record .document), trailing)

/-- The document made of what has been read in a text, unless something is wrong. -/
def conclude (supply : Supply) (text : List UInt8) (parts : Except Failure DocumentParts)
    (trailing : Option Json.Fault) : Except DecodeError Document :=
  match parts with
  | .error e => .error (.ofFailure supply text e)
  | .ok parts =>
    match ofParts parts with
    | .error e => .error e
    | .ok d =>
      match trailing with
      | some fault => .error (.ofFailure supply text (.ofFault fault))
      | none => .ok d

/-- The document of a text. -/
def ofText (supply : Supply) (text : List UInt8) : Except DecodeError Document :=
  let (parts, trailing) := readParts text
  conclude supply text parts trailing

/-- The document of a tree. -/
def ofJson (v : Json) : Except DecodeError Document :=
  match v.read (.record .document) with
  | .error e => .error (.invalidPayload e.path e.problem none)
  | .ok parts => ofParts parts

end Document

end QueryPayload
