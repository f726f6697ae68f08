import QueryPayload.ArgumentValue.Display
import QueryPayload.Document.Basic
import QueryPayload.Report.Outline
import QueryPayload.TypeRef.Render

/-!
# The outline of a document

## Main definitions

* `TypeRef.rendered` — the text of a type, or the reason in angle brackets why it has none.
* `Selection.Head.label` and its like — what the line of a node says.
* `Outline.document` — adds the lines of a document.

## Design

Every node has one line.  What belongs to a node follows one level deeper: the variables and
selections of an operation, the selections of a fragment, the selections beneath a selection, the
fields or values of a type.
-/

set_option relaxedAutoImplicit false
set_option autoImplicit false

namespace QueryPayload

/-! ## Labels -/

/-- The text of a type, or why it has none. -/
def TypeRef.rendered (t : TypeRef) : String :=
  match t.render with
  | .ok text => text
  | .error e => "<" ++ e.message ++ ">"

/-- The line of a variable. -/
def Variable.label (v : Variable) : String := "$" ++ v.name ++ ": " ++ v.type.rendered

/-- An argument within the line of its field. -/
def Argument.label (a : Argument) : String := a.name ++ ": " ++ a.value.display

/-- The arguments of a field, in brackets if there are any. -/
def Argument.listing : List Argument → String
  | [] => ""
  | args => "(" ++ ", ".intercalate (args.map Argument.label) ++ ")"

namespace Selection

/-- The line of a field: its alias if it has one other than its name, then its name, its arguments
and its type. -/
def Field.label (f : Field) : String :=
  (if f.selectedName = f.name then "" else f.selectedName ++ ": ") ++ f.name ++
    Argument.listing (f.args.getD []) ++ ": " ++ f.type.rendered

/-- The line of a selection. -/
def Head.label : Head → String
  | .field f => f.label
  | .fragmentSpread fragment _ => "..." ++ fragment.name
  | .typeCondition type => "... on " ++ type.innermostName?.getD "<unnamed>"
  | .booleanCondition variableRef inverted =>
    "@" ++ (if inverted then "skip" else "include") ++ "(if: $" ++ variableRef.name ++ ")"

end Selection

/-- The line of an operation. -/
def Operation.label (op : Operation) : String :=
  op.kind.spelling ++ " " ++ op.name ++ " (root: " ++ op.rootType ++ ")"

/-- The line of a fragment. -/
def Fragment.label (f : Fragment) : String := "fragment " ++ f.name ++ " (" ++ f.filePath ++ ")"

/-- The line of a field of a type. -/
def SchemaField.label (f : SchemaField) : String := f.name ++ ": " ++ f.type.rendered

/-- The line of a type. -/
def UsedType.label (t : UsedType) : String := t.kind.spelling ++ " " ++ t.name

/-! ## Lines -/

namespace Outline

mutual

/-- Adds the line of a selection and, one level deeper, those of the set it carries. -/
def selection (o : Outline) : Selection → Outline
  | .leaf head => o.line head.label
  | .nested head _ selections => (o.line head.label).nested fun o => selectionList o selections

/-- Adds the lines of some selections. -/
def selectionList (o : Outline) : List Selection → Outline
  | [] => o
  | s :: ss => selectionList (selection o s) ss

end

/-- Adds the lines of an operation. -/
def operation (o : Outline) (op : Operation) : Outline :=
  (o.line op.label).nested fun o =>
    (o.lines Variable.label op.declared).selectionList op.selectionSet.selections

/-- Adds the lines of a fragment. -/
def fragment (o : Outline) (f : Fragment) : Outline :=
  (o.line f.label).nested fun o => o.selectionList f.selectionSet.selections

/-- Adds the lines of a type. -/
def usedType (o : Outline) (t : UsedType) : Outline :=
  (o.line t.label).nested fun o =>
    (o.lines SchemaField.label (t.fields?.getD [])).lines SchemaEnumValue.name
      (t.values?.getD [])

/-- Adds the lines of a document: its operations, its fragments and the types it uses. -/
def document (o : Outline) (d : Document) : Outline :=
  let o := d.operations.foldl operation o
  let o := d.registry.fragments.foldl fragment o
  d.typesUsed.foldl usedType o

end Outline

end QueryPayload
