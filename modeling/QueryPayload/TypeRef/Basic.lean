/-!
# Type references

A reference to a type of a GraphQL schema, as it is annotated on variables, arguments and fields:
a name under any number of list and non-null wrappers.

## Main definitions

* `TypeRef` — the tree; `TypeRef.Kind` — which constructor it is built with.
* `TypeRef.named`, `TypeRef.nonNull`, `TypeRef.list`, … — the usual ways to build one.
* `TypeRef.innermostName?`, `TypeRef.nullable`.
* `TypeRef.Malformed` — the ways in which a tree can be no proper reference.

## Design

A bare name is a tree of its own, so that a named type has a child like every other wrapper.  The
type therefore admits trees that mean nothing, such as a named type over a list; readers and
`TypeRef.render` refuse them.
-/

set_option relaxedAutoImplicit false
set_option autoImplicit false

namespace QueryPayload

/-- The constructors of a type reference, by the names they have in payloads. -/
inductive TypeRef.Kind where
  | listType
  | name
  | namedType
  | nonNullType
  deriving DecidableEq, Repr

/-- A reference to a type of the schema. -/
inductive TypeRef where
  /-- A bare name, proper only below `namedType`. -/
  | name (value : String)
  /-- A nullable reference to the type with the name below. -/
  | namedType (child : TypeRef)
  /-- A nullable list. -/
  | listType (item : TypeRef)
  /-- The type below without null. -/
  | nonNullType (inner : TypeRef)
  deriving DecidableEq, Repr

namespace TypeRef

/-- The spelling of a kind. -/
def Kind.spelling : Kind → String
  | .listType => "ListType"
  | .name => "Name"
  | .namedType => "NamedType"
  | .nonNullType => "NonNullType"

/-- All kinds, in the order in which they are listed to people. -/
def Kind.all : List Kind := [.listType, .name, .namedType, .nonNullType]

/-- The constructor a reference is built with. -/
def kind : TypeRef → Kind
  | .name _ => .name
  | .namedType _ => .namedType
  | .listType _ => .listType
  | .nonNullType _ => .nonNullType

/-- A nullable reference to the type with the given name. -/
def named (value : String) : TypeRef := .namedType (.name value)

/-- The given type without null. -/
def nonNull (t : TypeRef) : TypeRef := .nonNullType t

/-- A reference to the type with the given name, without null. -/
def nonNullNamed (value : String) : TypeRef := nonNull (named value)

/-- A nullable list of the given type. -/
def list (t : TypeRef) : TypeRef := .listType t

/-- A list of the given type, without null. -/
def nonNullList (t : TypeRef) : TypeRef := nonNull (list t)

/-- Whether a reference is a bare name. -/
def isName : TypeRef → Bool
  | .name _ => true
  | _ => false

/-- The name at the bottom of a reference; there is none only below a named type whose child is
not a name. -/
def innermostName? : TypeRef → Option String
  | .name value => some value
  | .namedType (.name value) => some value
  | .namedType _ => none
  | .listType item => item.innermostName?
  | .nonNullType inner => inner.innermostName?

/-- Whether a reference admits null at its outermost level. -/
def nullable : TypeRef → Bool
  | .nonNullType _ => false
  | _ => true

/-- Why a tree is no proper reference. -/
inductive Malformed where
  /-- A node of the given kind lacks the child it needs. -/
  | missingRequiredChild (kind : Kind)
  /-- A non-null node wraps something rendered as given, which is not nullable. -/
  | missingNullabilitySuffix (rendered : String)
  deriving DecidableEq, Repr

/-- The wording of a malformation. -/
def Malformed.message : Malformed → String
  | .missingRequiredChild kind =>
    "`" ++ kind.spelling ++ "` type reference is missing its required child node"
  | .missingNullabilitySuffix rendered =>
    "`NonNullType` wraps `" ++ rendered ++ "`, which has no nullable `?` suffix to strip"

end TypeRef

end QueryPayload
