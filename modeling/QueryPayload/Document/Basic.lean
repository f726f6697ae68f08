import QueryPayload.Selection.Basic

/-!
# Documents

What a payload holds: operations, the fragments they may spread, and the schema types they use.

## Main definitions

* `Variable`, `Operation`, `Fragment` — the executable parts.
* `SchemaField`, `SchemaEnumValue`, `UsedType` — the types.
* `FragmentRegistry` — fragments under their names, in the order of the payload.
* `Document` — all of them; `Document.same` is equality of what is meant.

## Design

The registry is a list of entries, so that its order is that of the payload.  `FragmentRegistry.add`
is the only operation that extends one, and it refuses a name that is already taken.  Two registries
mean the same when they bind the same names to the same fragments, in whatever order; everything
else in a document is compared in order.
-/

set_option relaxedAutoImplicit false
set_option autoImplicit false

namespace QueryPayload

/-- A variable that an operation declares. -/
structure Variable where
  name : String
  type : TypeRef
  deriving DecidableEq, Repr

/-- The kinds of operation. -/
inductive Operation.Kind where
  | mutation
  | query
  | subscription
  deriving DecidableEq, Repr

/-- A query, a mutation or a subscription. -/
structure Operation where
  name : String
  kind : Operation.Kind
  rootType : String
  filePath : String
  source : String
  /-- The variables it declares, in order. -/
  declared : List Variable
  selectionSet : SelectionSet
  deriving Repr

namespace Operation

/-- The spelling of a kind. -/
def Kind.spelling : Kind → String
  | .mutation => "mutation"
  | .query => "query"
  | .subscription => "subscription"

/-- All kinds, in the order in which they are listed to people. -/
def Kind.all : List Kind := [.mutation, .query, .subscription]

/-- The first variable declared with the given name. -/
def declared? (op : Operation) (name : String) : Option Variable :=
  op.declared.find? (·.name == name)

/-- Whether two operations mean the same. -/
def same (a b : Operation) : Bool :=
  a.name == b.name && a.kind == b.kind && a.rootType == b.rootType && a.filePath == b.filePath &&
    a.source == b.source && a.declared == b.declared && a.selectionSet.same b.selectionSet

end Operation

/-- A named selection set that can be spread elsewhere. -/
structure Fragment where
  name : String
  filePath : String
  source : String
  selectionSet : SelectionSet
  deriving Repr

/-- Whether two fragments mean the same. -/
def Fragment.same (a b : Fragment) : Bool :=
  a.name == b.name && a.filePath == b.filePath && a.source == b.source &&
    a.selectionSet.same b.selectionSet

/-- A field of an object, interface or input type. -/
structure SchemaField where
  name : String
  type : TypeRef
  description : Option String
  isDeprecated : Bool
  deriving DecidableEq, Repr

/-- A value of an enumeration type. -/
structure SchemaEnumValue where
  name : String
  description : Option String
  isDeprecated : Bool
  deriving DecidableEq, Repr

/-- The kinds of schema type. -/
inductive UsedType.Kind where
  | enumType
  | inputObjectType
  | interfaceType
  | objectType
  | scalarType
  | unionType
  deriving DecidableEq, Repr

/-- What a schema type consists of, as far as its users need to know. -/
inductive UsedType.Members where
  | fields (fields : List SchemaField)
  | values (values : List SchemaEnumValue)
  | neither
  deriving DecidableEq, Repr

/-- A schema type that the document uses. -/
structure UsedType where
  name : String
  kind : UsedType.Kind
  description : Option String
  members : UsedType.Members
  deriving DecidableEq, Repr

namespace UsedType

/-- The spelling of a kind. -/
def Kind.spelling : Kind → String
  | .enumType => "EnumType"
  | .inputObjectType => "InputObjectType"
  | .interfaceType => "InterfaceType"
  | .objectType => "ObjectType"
  | .scalarType => "ScalarType"
  | .unionType => "UnionType"

/-- All kinds, in the order in which they are listed to people. -/
def Kind.all : List Kind :=
  [.enumType, .inputObjectType, .interfaceType, .objectType, .scalarType, .unionType]

/-- The fields of a type that has some. -/
def fields? (t : UsedType) : Option (List SchemaField) :=
  match t.members with
  | .fields fields => some fields
  | _ => none

/-- The values of an enumeration type. -/
def values? (t : UsedType) : Option (List SchemaEnumValue) :=
  match t.members with
  | .values values => some values
  | _ => none

end UsedType

/-- Fragments under their names. -/
structure FragmentRegistry where
  entries : List (String × Fragment)
  deriving Repr

/-- A fragment is defined more than once. -/
structure DuplicateFragment where
  name : String
  firstPath : String
  secondPath : String
  deriving DecidableEq, Repr

namespace FragmentRegistry

/-- The registry without fragments. -/
def empty : FragmentRegistry := ⟨[]⟩

/-- The fragment with the given name. -/
def get? (r : FragmentRegistry) (name : String) : Option Fragment :=
  (r.entries.find? (·.1 == name)).map (·.2)

/-- The names, in the order of the payload. -/
def keys (r : FragmentRegistry) : List String := r.entries.map (·.1)

/-- The fragments, in the order of the payload. -/
def fragments (r : FragmentRegistry) : List Fragment := r.entries.map (·.2)

/-- The number of fragments. -/
def size (r : FragmentRegistry) : Nat := r.entries.length

/-- The registry with one more fragment, unless its name is taken. -/
def add (r : FragmentRegistry) (f : Fragment) : Except DuplicateFragment FragmentRegistry :=
  match r.get? f.name with
  | some first => .error ⟨f.name, first.filePath, f.filePath⟩
  | none => .ok ⟨r.entries ++ [(f.name, f)]⟩

/-- The registry with more fragments, as far as their names are free, and the first clash. -/
def addAll (r : FragmentRegistry) : List Fragment → FragmentRegistry × Option DuplicateFragment
  | [] => (r, none)
  | f :: fs =>
    match r.add f with
    | .ok r => r.addAll fs
    | .error clash => (r, some clash)

/-- Whether two registries bind the same names to the same fragments. -/
def same (a b : FragmentRegistry) : Bool :=
  a.size == b.size &&
    a.entries.all fun (name, f) =>
      match b.get? name with
      | some g => f.same g
      | none => false

end FragmentRegistry

/-- The wording of a clash of names. -/
def DuplicateFragment.message (d : DuplicateFragment) : String :=
  "Fragment `" ++ d.name ++ "` is defined more than once (first in `" ++ d.firstPath ++
    "`, again in `" ++ d.secondPath ++ "`)."

/-- The content of a payload. -/
structure Document where
  operations : List Operation
  registry : FragmentRegistry
  typesUsed : List UsedType
  deriving Repr

namespace Document

/-- The first operation with the given name. -/
def operation? (d : Document) (name : String) : Option Operation :=
  d.operations.find? (·.name == name)

/-- The fragment with the given name. -/
def fragment? (d : Document) (name : String) : Option Fragment := d.registry.get? name

/-- The first used type with the given name. -/
def typeUsed? (d : Document) (name : String) : Option UsedType :=
  d.typesUsed.find? (·.name == name)

/-- Whether two documents mean the same. -/
def same (a b : Document) : Bool :=
  Selection.sameList Operation.same a.operations b.operations && a.registry.same b.registry &&
    a.typesUsed == b.typesUsed

end Document

/-- The three lists of a payload, before the fragments are registered. -/
structure DocumentParts where
  operations : List Operation
  fragments : List Fragment
  typesUsed : List UsedType
  deriving Repr

/-! ## References by name -/

/-- A reference to something that is not there. -/
structure DanglingReference where
  name : String
  deriving DecidableEq, Repr

/-- The wording of a dangling reference. -/
def DanglingReference.message (d : DanglingReference) : String :=
  "No definition named `" ++ d.name ++ "` exists to resolve this reference."

/-- The fragment that a reference means. -/
def FragmentRef.deref (ref : FragmentRef) (r : FragmentRegistry) :
    Except DanglingReference Fragment :=
  match r.get? ref.name with
  | some f => .ok f
  | none => .error ⟨ref.name⟩

/-- The variable that a reference means: the first declared with its name. -/
def VariableRef.deref (ref : VariableRef) (declared : List Variable) :
    Except DanglingReference Variable :=
  match declared.find? (·.name == ref.name) with
  | some v => .ok v
  | none => .error ⟨ref.name⟩

end QueryPayload
