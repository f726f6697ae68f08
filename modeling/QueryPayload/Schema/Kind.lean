import QueryPayload.Document.Basic

/-!
# Families of kinds

Payload nodes say what they are by naming a kind.  There are four families of kinds.

## Main definitions

* `KindFamily` — the families; `KindFamily.Member` — the kinds of a family.
* `KindFamily.find?` — the kind with a given spelling.
-/

set_option relaxedAutoImplicit false
set_option autoImplicit false

namespace QueryPayload

/-- The families of kinds. -/
inductive KindFamily where
  | typeRef
  | selection
  | usedType
  | operation
  deriving DecidableEq, Repr

namespace KindFamily

/-- The kinds of a family. -/
@[reducible] def Member : KindFamily → Type
  | .typeRef => TypeRef.Kind
  | .selection => Selection.Kind
  | .usedType => UsedType.Kind
  | .operation => Operation.Kind

/-- The kinds of a family in the order in which they are listed to people. -/
def all : (f : KindFamily) → List f.Member
  | .typeRef => TypeRef.Kind.all
  | .selection => Selection.Kind.all
  | .usedType => UsedType.Kind.all
  | .operation => Operation.Kind.all

/-- The spelling of a kind. -/
def spelling : (f : KindFamily) → f.Member → String
  | .typeRef => TypeRef.Kind.spelling
  | .selection => Selection.Kind.spelling
  | .usedType => UsedType.Kind.spelling
  | .operation => Operation.Kind.spelling

/-- The kind with the given spelling. -/
def find? (f : KindFamily) (name : String) : Option f.Member :=
  f.all.find? (f.spelling · == name)

/-- The spellings of a family, as they are listed to people. -/
def listing (f : KindFamily) : String :=
  ", ".intercalate (f.all.map fun k => "`" ++ f.spelling k ++ "`")

end KindFamily

end QueryPayload
