import QueryPayload.ArgumentValue.Basic
import QueryPayload.TypeRef.Basic

/-!
# Selections

What an operation or a fragment asks for: a tree of selections, each of which says something of its
own and may carry the set of selections made beneath it.

## Main definitions

* `Argument`, `FragmentRef`, `VariableRef` — the parts of selections.
* `Selection.Head` — what a selection says of itself, in one of four kinds.
* `Selection`, `SelectionSet` — the tree.
* `Selection.same`, `SelectionSet.same` — equality of what is meant.
* `Selection.head`, `Selection.set?` and the accessors that answer for every kind.

## Design

All four kinds of selection may carry a nested set.  The set is therefore kept beside the head and
not inside it, and a recursion over a tree of selections has one case for each of the two shapes
rather than one for each kind.
-/

set_option relaxedAutoImplicit false
set_option autoImplicit false

namespace QueryPayload

/-- An argument passed to a field, with the type the schema declares for it. -/
structure Argument where
  name : String
  value : ArgumentValue
  type : TypeRef
  deriving Repr

/-- Whether two arguments mean the same. -/
def Argument.same (a b : Argument) : Bool :=
  a.name == b.name && a.value.same b.value && a.type == b.type

/-- A fragment, by its name. -/
structure FragmentRef where
  name : String
  deriving DecidableEq, Repr

/-- A variable of an operation, by its name. -/
structure VariableRef where
  name : String
  deriving DecidableEq, Repr

/-- The kinds of selection. -/
inductive Selection.Kind where
  | booleanCondition
  | field
  | fragmentSpread
  | typeCondition
  deriving DecidableEq, Repr

namespace Selection

/-- The spelling of a kind. -/
def Kind.spelling : Kind → String
  | .booleanCondition => "BooleanCondition"
  | .field => "Field"
  | .fragmentSpread => "FragmentSpread"
  | .typeCondition => "TypeCondition"

/-- All kinds, in the order in which they are listed to people. -/
def Kind.all : List Kind := [.booleanCondition, .field, .fragmentSpread, .typeCondition]

/-- A selected field, without what is selected beneath it. -/
structure Field where
  name : String
  type : TypeRef
  responseKey : Option String
  description : Option String
  isDeprecated : Option Bool
  args : Option (List Argument)
  deriving Repr

/-- The key under which the value of a field is returned: its alias, or else its name. -/
def Field.selectedName (f : Field) : String := f.responseKey.getD f.name

/-- What a selection says of itself. -/
inductive Head where
  /-- A field. -/
  | field (f : Field)
  /-- The selections of a fragment. -/
  | fragmentSpread (fragment : FragmentRef) (isConditional : Option Bool)
  /-- Only if the value has the given type. -/
  | typeCondition (type : TypeRef)
  /-- Only if the variable is true, or false if `inverted`. -/
  | booleanCondition (variableRef : VariableRef) (inverted : Bool)
  deriving Repr

end Selection

/-- A selection: it either stands alone or carries the set selected beneath it. -/
inductive Selection where
  | leaf (head : Selection.Head)
  | nested (head : Selection.Head) (possibleTypes : List String) (selections : List Selection)
  deriving Repr

/-- The selections made on a value, and the names of the types it may have. -/
structure SelectionSet where
  possibleTypes : List String
  selections : List Selection
  deriving Repr

namespace Selection

/-- A selection with the given head, carrying a set or not. -/
def ofHead (head : Head) : Option SelectionSet → Selection
  | none => .leaf head
  | some set => .nested head set.possibleTypes set.selections

/-- What a selection says of itself. -/
def head : Selection → Head
  | .leaf head => head
  | .nested head _ _ => head

/-- The set a selection carries. -/
def set? : Selection → Option SelectionSet
  | .leaf _ => none
  | .nested _ possibleTypes selections => some ⟨possibleTypes, selections⟩

@[simp] theorem head_ofHead (head : Head) (set : Option SelectionSet) :
    (ofHead head set).head = head := by
  cases set <;> rfl

@[simp] theorem set?_ofHead (head : Head) (set : Option SelectionSet) :
    (ofHead head set).set? = set := by
  cases set <;> rfl

/-! ## Accessors for every kind -/

/-- The kind of a head. -/
def Head.kind : Head → Kind
  | .field _ => .field
  | .fragmentSpread .. => .fragmentSpread
  | .typeCondition _ => .typeCondition
  | .booleanCondition .. => .booleanCondition

/-- The field of a head that is one. -/
def Head.field? : Head → Option Field
  | .field f => some f
  | _ => none

/-- The fragment that a head spreads. -/
def Head.fragment? : Head → Option FragmentRef
  | .fragmentSpread fragment _ => some fragment
  | _ => none

/-- Whether a spread is conditional, where that is known. -/
def Head.isConditional? : Head → Option Bool
  | .fragmentSpread _ isConditional => isConditional
  | _ => none

/-- The variable that a head depends on. -/
def Head.condition? : Head → Option VariableRef
  | .booleanCondition v _ => some v
  | _ => none

/-- Whether a condition is inverted. -/
def Head.inverted? : Head → Option Bool
  | .booleanCondition _ inverted => some inverted
  | _ => none

/-- The type of a field, or the type that a condition asks for. -/
def Head.type? : Head → Option TypeRef
  | .field f => some f.type
  | .typeCondition type => some type
  | _ => none

/-! ## Equality of what is meant -/

/-- Whether two lists agree item by item. -/
def sameList {α : Type} (same : α → α → Bool) : List α → List α → Bool
  | [], [] => true
  | a :: as, b :: bs => same a b && sameList same as bs
  | _, _ => false

/-- Whether two optional values agree. -/
def sameOption {α : Type} (same : α → α → Bool) : Option α → Option α → Bool
  | none, none => true
  | some a, some b => same a b
  | _, _ => false

/-- Whether two fields mean the same. -/
def Field.same (a b : Field) : Bool :=
  a.name == b.name && a.type == b.type && a.responseKey == b.responseKey &&
    a.description == b.description && a.isDeprecated == b.isDeprecated &&
    sameOption (sameList Argument.same) a.args b.args

/-- Whether two heads mean the same. -/
def Head.same : Head → Head → Bool
  | .field a, .field b => a.same b
  | .fragmentSpread a c, .fragmentSpread b d => a == b && c == d
  | .typeCondition a, .typeCondition b => a == b
  | .booleanCondition a c, .booleanCondition b d => a == b && c == d
  | _, _ => false

mutual

/-- Whether two selections mean the same. -/
def same : Selection → Selection → Bool
  | .leaf a, .leaf b => a.same b
  | .nested a types as, .nested b types' bs => a.same b && types == types' && sameAll as bs
  | _, _ => false

/-- Whether two lists of selections mean the same, one by one. -/
def sameAll : List Selection → List Selection → Bool
  | [], [] => true
  | a :: as, b :: bs => same a b && sameAll as bs
  | _, _ => false

end

instance : BEq Selection := ⟨same⟩

end Selection

/-- Whether two selection sets mean the same.  The order of the possible types counts. -/
def SelectionSet.same (a b : SelectionSet) : Bool :=
  a.possibleTypes == b.possibleTypes && Selection.sameAll a.selections b.selections

end QueryPayload
