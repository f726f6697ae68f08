import Mathlib.Tactic.Lemma
import QueryPayload.Command.Inspect
import QueryPayload.Selection.Preorder

/-!
# The nodes of an outline

An outline is written by functions that hand the text so far from one to the next.  What they write
is one line for each node of the document, and the nodes form a list that can be given without
writing anything: the operations with their variables and selections, the fragments with theirs,
and the types with their fields or values, each node at its depth.

## Main definitions

* `Node` — what has a line of its own; `Node.label` is what the line says.
* `Document.nodes` — the nodes of a document in the order of their lines, each with its depth.
* `Outline.write` — an outline with the lines of some nodes.
* `Node.properLabel?` — the line of a node, provided that the types in it have texts.

## Main results

* `Outline.document_eq_write` — the outline of a document consists of the lines of its nodes.
-/

set_option relaxedAutoImplicit false
set_option autoImplicit false

namespace QueryPayload

/-! ## Nodes -/

/-- What has a line of its own in an outline. -/
inductive Node where
  | operation (op : Operation)
  | variable (v : Variable)
  | selection (head : Selection.Head)
  | fragment (f : Fragment)
  | usedType (t : UsedType)
  | field (f : SchemaField)
  | value (v : SchemaEnumValue)
  deriving Repr

namespace Node

/-- What the line of a node says. -/
def label : Node → String
  | .operation op => op.label
  | .variable v => v.label
  | .selection head => head.label
  | .fragment f => f.label
  | .usedType t => t.label
  | .field f => f.label
  | .value v => v.name

/-- What the line of a node says if the type in it has a text, or the type in it has a name where
only that is shown.  There is nothing in place of the text or name that a type lacks. -/
def properLabel? : Node → Option String
  | .variable v => v.type.render.toOption.map fun text => "$" ++ v.name ++ ": " ++ text
  | .selection (.field f) => f.type.render.toOption.map fun text =>
    (if f.selectedName = f.name then "" else f.selectedName ++ ": ") ++ f.name ++
      Argument.listing (f.args.getD []) ++ ": " ++ text
  | .selection (.typeCondition type) => type.innermostName?.map fun name => "... on " ++ name
  | .field f => f.type.render.toOption.map fun text => f.name ++ ": " ++ text
  | node => some node.label

end Node

mutual

/-- The nodes of a selection at the given depth, those of the set it carries one level deeper. -/
def Selection.nodes (depth : Nat) : Selection → List (Nat × Node)
  | .leaf head => [(depth, .selection head)]
  | .nested head _ selections =>
    (depth, .selection head) :: Selection.nodesAll (depth + 1) selections

/-- The nodes of some selections. -/
def Selection.nodesAll (depth : Nat) : List Selection → List (Nat × Node)
  | [] => []
  | s :: ss => Selection.nodes depth s ++ Selection.nodesAll depth ss

end

/-- The nodes of an operation: its own and, one level deeper, its variables and selections. -/
def Operation.nodes (depth : Nat) (op : Operation) : List (Nat × Node) :=
  (depth, .operation op) ::
    ((op.declared.map fun v => (depth + 1, .variable v)) ++
      Selection.nodesAll (depth + 1) op.selectionSet.selections)

/-- The nodes of a fragment: its own and, one level deeper, its selections. -/
def Fragment.nodes (depth : Nat) (f : Fragment) : List (Nat × Node) :=
  (depth, .fragment f) :: Selection.nodesAll (depth + 1) f.selectionSet.selections

/-- The nodes of the members of a type: its fields or values, if it has some. -/
def UsedType.Members.nodes (depth : Nat) : UsedType.Members → List (Nat × Node)
  | .fields fs => fs.map fun f => (depth, .field f)
  | .values vs => vs.map fun v => (depth, .value v)
  | .neither => []

/-- The nodes of a type: its own and, one level deeper, those of its members. -/
def UsedType.nodes (depth : Nat) (t : UsedType) : List (Nat × Node) :=
  (depth, .usedType t) :: t.members.nodes (depth + 1)

/-- The nodes of the members of a type are those of its fields and those of its values: of one of
the two there are none. -/
lemma UsedType.nodes_members (depth : Nat) (t : UsedType) :
    t.members.nodes depth = ((t.fields?.getD []).map fun f => (depth, .field f)) ++
      (t.values?.getD []).map fun v => (depth, .value v) := by
  obtain ⟨name, kind, description, fs | vs | _⟩ := t <;> simp [Members.nodes, fields?, values?]

/-- The nodes of a document: those of its operations, its fragments and the types it uses. -/
def Document.nodes (depth : Nat) (d : Document) : List (Nat × Node) :=
  d.operations.flatMap (Operation.nodes depth) ++
    d.registry.fragments.flatMap (Fragment.nodes depth) ++
    d.typesUsed.flatMap (UsedType.nodes depth)

mutual

/-- The nodes of a selection are its heads in pre-order. -/
theorem Selection.map_snd_nodes (depth : Nat) :
    (s : Selection) → (s.nodes depth).map (·.2) = s.heads.map .selection
  | .leaf head => rfl
  | .nested head _ selections => by
    rw [nodes, heads, List.map_cons, List.map_cons, map_snd_nodesAll]

/-- The nodes of some selections are their heads in pre-order. -/
theorem Selection.map_snd_nodesAll (depth : Nat) :
    (ss : List Selection) → (nodesAll depth ss).map (·.2) = (headsAll ss).map .selection
  | [] => rfl
  | s :: ss => by
    rw [nodesAll, headsAll, List.map_append, List.map_append, map_snd_nodes, map_snd_nodesAll]

end

/-! ## Writing nodes -/

namespace Outline

variable {o : Outline}

/-- The line of a node at its depth. -/
def nodeLine (node : Nat × Node) : String := indentation node.1 ++ node.2.label ++ "\n"

/-- An outline with the lines of some nodes. -/
def write (o : Outline) (nodes : List (Nat × Node)) : Outline :=
  ⟨o.depth, o.text ++ String.join (nodes.map nodeLine)⟩

/-- Writing lines does not change the depth. -/
@[simp] lemma depth_write (o : Outline) (nodes : List (Nat × Node)) :
    (o.write nodes).depth = o.depth := rfl

/-- Without nodes nothing is written. -/
@[simp] lemma write_nil (o : Outline) : o.write [] = o := by
  rw [write, List.map_nil, String.join_nil, String.append_empty]

/-- Nodes are written one after the other. -/
lemma write_append (o : Outline) (nodes more : List (Nat × Node)) :
    o.write (nodes ++ more) = (o.write nodes).write more := by
  simp only [write, List.map_append, String.join_append, String.append_assoc]

/-- The line of a node is added at the current depth. -/
lemma line_eq_write (o : Outline) (node : Node) :
    o.line node.label = o.write [(o.depth, node)] := by
  simp [line, write, nodeLine, String.append_assoc]

/-- The line of a node, and the lines of other nodes one level deeper. -/
lemma line_nested_eq_write (node : Node) {body : Outline → Outline} {nodes : List (Nat × Node)}
    (h : ∀ text, body ⟨o.depth + 1, text⟩ = (⟨o.depth + 1, text⟩ : Outline).write nodes) :
    (o.line node.label).nested body = o.write ((o.depth, node) :: nodes) := by
  rw [← List.singleton_append, write_append, ← line_eq_write, nested, line, h]
  rfl

/-- Items that are each written as some nodes are written one after the other. -/
lemma foldl_eq_write {α : Type} {step : Outline → α → Outline} (nodes : Nat → α → List (Nat × Node))
    (h : ∀ o a, step o a = o.write (nodes o.depth a)) (as : List α) (o : Outline) :
    as.foldl step o = o.write (as.flatMap (nodes o.depth)) := by
  induction as generalizing o with
  | nil => simp
  | cons a as ih => rw [List.foldl_cons, h, ih, List.flatMap_cons, write_append, depth_write]

/-- Lines of nodes are added one after the other. -/
lemma lines_eq_write {α : Type} (label : α → String) (node : α → Node)
    (h : ∀ a, (node a).label = label a) (as : List α) (o : Outline) :
    o.lines label as = o.write (as.map fun a => (o.depth, node a)) := by
  rw [lines, List.map_eq_flatMap]
  refine foldl_eq_write (fun depth a => [(depth, node a)]) (fun o a => ?_) as o
  rw [← h, line_eq_write]

/-! ## The outline of a document -/

mutual

/-- A selection is written as its nodes. -/
theorem selection_eq_write (o : Outline) :
    (s : Selection) → o.selection s = o.write (s.nodes o.depth)
  | .leaf head => line_eq_write o (.selection head)
  | .nested head _ selections => by
    rw [selection, Selection.nodes]
    exact line_nested_eq_write (.selection head) fun _ => selectionList_eq_write _ selections

/-- Selections are written as their nodes. -/
theorem selectionList_eq_write (o : Outline) :
    (ss : List Selection) → o.selectionList ss = o.write (Selection.nodesAll o.depth ss)
  | [] => (write_nil o).symm
  | s :: ss => by
    rw [selectionList, selection_eq_write o s, selectionList_eq_write _ ss, Selection.nodesAll,
      write_append, depth_write]

end

/-- An operation is written as its nodes. -/
lemma operation_eq_write (o : Outline) (op : Operation) :
    o.operation op = o.write (op.nodes o.depth) := by
  refine line_nested_eq_write (.operation op) fun text => ?_
  have hvars := lines_eq_write Variable.label .variable fun _ => rfl
  rw [hvars, selectionList_eq_write, write_append, depth_write]

/-- A fragment is written as its nodes. -/
lemma fragment_eq_write (o : Outline) (f : Fragment) :
    o.fragment f = o.write (f.nodes o.depth) :=
  line_nested_eq_write (.fragment f) fun _ => selectionList_eq_write _ f.selectionSet.selections

/-- A type is written as its nodes. -/
lemma usedType_eq_write (o : Outline) (t : UsedType) :
    o.usedType t = o.write (t.nodes o.depth) := by
  refine line_nested_eq_write (.usedType t) fun text => ?_
  have hfields := lines_eq_write SchemaField.label .field fun _ => rfl
  have hvalues := lines_eq_write SchemaEnumValue.name .value fun _ => rfl
  rw [hfields, hvalues, UsedType.nodes_members, write_append, depth_write]

/-- **The outline of a document** consists of one line for each of its nodes.

**Proof sketch.** Each function that writes a part of a document writes the nodes of that part at
the depth it is called at, and gives the depth back as it was (`depth_write`): for selections by
induction, for the others by the lemmas on what they are made of. -/
theorem document_eq_write (o : Outline) (d : Document) :
    o.document d = o.write (d.nodes o.depth) := by
  rw [document, foldl_eq_write Operation.nodes operation_eq_write,
    foldl_eq_write Fragment.nodes fragment_eq_write,
    foldl_eq_write UsedType.nodes usedType_eq_write, Document.nodes, write_append, write_append]
  rfl

end Outline

end QueryPayload
