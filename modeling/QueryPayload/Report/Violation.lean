import QueryPayload.Document.Basic
import QueryPayload.TypeRef.Render

/-!
# What is wrong inside a document

A document may decode and still not be usable: a type that has no text, a spread of a fragment that
is not there, a condition on a variable that is not declared.

## Main definitions

* `Violation` — one such defect and where it is; `Violation.message` is its wording.
* `Document.violations` — all of them, in the order of the document.

## Design

Selections are checked in pre-order, each before the set it carries.  A fragment does not declare
variables, the operations that spread it do; so conditions are checked in operations only, and
`declared` is absent in a fragment.
-/

set_option relaxedAutoImplicit false
set_option autoImplicit false

namespace QueryPayload

/-- A part of a document that has a type. -/
inductive TypedPart where
  | variable (name : String)
  | field (name : String)
  | argument (name owner : String)
  | typeCondition
  deriving DecidableEq, Repr

/-- A part of a document, in words. -/
def TypedPart.text : TypedPart → String
  | .variable name => "variable `$" ++ name ++ "`"
  | .field name => "field `" ++ name ++ "`"
  | .argument name owner => "argument `" ++ name ++ "` of field `" ++ owner ++ "`"
  | .typeCondition => "inline fragment type condition"

/-- The definitions that a document consists of. -/
inductive Definition where
  | operation (name : String)
  | fragment (name : String)
  | usedType (name : String)
  deriving DecidableEq, Repr

/-- A definition, in words. -/
def Definition.text : Definition → String
  | .operation name => "operation `" ++ name ++ "`"
  | .fragment name => "fragment `" ++ name ++ "`"
  | .usedType name => "type `" ++ name ++ "`"

/-- What can be wrong inside a definition. -/
inductive Defect where
  /-- A type has no text. -/
  | malformedType (part : TypedPart) (type : TypeRef) (error : TypeRef.Malformed)
  /-- The fragment spread is not defined. -/
  | danglingSpread (reference : DanglingReference)
  /-- The variable of a condition is not declared. -/
  | danglingCondition (reference : DanglingReference)
  deriving DecidableEq, Repr

/-- The wording of a defect. -/
def Defect.message : Defect → String
  | .malformedType part type error =>
    "type of " ++ part.text ++ " (`" ++ type.sdl ++ "`): " ++ error.message
  | .danglingSpread reference => "spread of `" ++ reference.name ++ "`: " ++ reference.message
  | .danglingCondition reference =>
    "condition on `$" ++ reference.name ++ "`: " ++ reference.message

/-- A defect and the definition it is in. -/
structure Violation where
  definition : Definition
  defect : Defect
  deriving DecidableEq, Repr

/-- The wording of a violation. -/
def Violation.message (v : Violation) : String := v.definition.text ++ ": " ++ v.defect.message

/-- What is wrong with the type of a part. -/
def TypeRef.defects (part : TypedPart) (t : TypeRef) : List Defect :=
  match t.render with
  | .ok _ => []
  | .error e => [.malformedType part t e]

namespace Selection

/-- What is wrong with the types of a field and of its arguments. -/
def Field.defects (f : Field) : List Defect :=
  f.type.defects (.field f.selectedName) ++
    (f.args.getD []).flatMap fun a => a.type.defects (.argument a.name f.selectedName)

/-- What is wrong with what a selection says of itself. -/
def Head.defects (registry : FragmentRegistry) (declared : Option (List Variable)) :
    Head → List Defect
  | .field f => f.defects
  | .fragmentSpread fragment _ =>
    match fragment.deref registry with
    | .ok _ => []
    | .error e => [.danglingSpread e]
  | .typeCondition type => type.defects .typeCondition
  | .booleanCondition variableRef _ =>
    match declared.map variableRef.deref with
    | some (.error e) => [.danglingCondition e]
    | _ => []

mutual

/-- What is wrong with a selection and with the set it carries. -/
def defects (registry : FragmentRegistry) (declared : Option (List Variable)) :
    Selection → List Defect
  | .leaf head => head.defects registry declared
  | .nested head _ selections =>
    head.defects registry declared ++ defectsAll registry declared selections

/-- What is wrong with some selections, one after the other. -/
def defectsAll (registry : FragmentRegistry) (declared : Option (List Variable)) :
    List Selection → List Defect
  | [] => []
  | s :: ss => defects registry declared s ++ defectsAll registry declared ss

end

end Selection

/-- What is wrong inside an operation. -/
def Operation.defects (registry : FragmentRegistry) (op : Operation) : List Defect :=
  (op.declared.flatMap fun v => v.type.defects (.variable v.name)) ++
    Selection.defectsAll registry (some op.declared) op.selectionSet.selections

/-- What is wrong inside a fragment. -/
def Fragment.defects (registry : FragmentRegistry) (f : Fragment) : List Defect :=
  Selection.defectsAll registry none f.selectionSet.selections

/-- What is wrong inside a type. -/
def UsedType.defects (t : UsedType) : List Defect :=
  (t.fields?.getD []).flatMap fun f => f.type.defects (.field f.name)

/-- Everything that is wrong inside a document. -/
def Document.violations (d : Document) : List Violation :=
  (d.operations.flatMap fun op =>
      (op.defects d.registry).map (Violation.mk (.operation op.name))) ++
    (d.registry.fragments.flatMap fun f =>
      (f.defects d.registry).map (Violation.mk (.fragment f.name))) ++
    d.typesUsed.flatMap fun t => t.defects.map (Violation.mk (.usedType t.name))

end QueryPayload
