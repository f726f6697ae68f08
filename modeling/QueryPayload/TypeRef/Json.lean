import QueryPayload.TypeRef.Basic
import QueryPayload.Json.Basic

/-!
# Type references as JSON

## Main definitions

* `TypeRef.toJson` — the node of a payload that a reference is read from: its kind, and the one
  child or value that the kind carries.
-/

set_option relaxedAutoImplicit false
set_option autoImplicit false

namespace QueryPayload

namespace TypeRef

/-- The payload node of a reference. -/
def toJson : TypeRef → Json
  | .name value => .obj [("kind", .str Kind.name.spelling), ("value", .str value)]
  | .namedType child => .obj [("kind", .str Kind.namedType.spelling), ("name", child.toJson)]
  | .listType item => .obj [("kind", .str Kind.listType.spelling), ("type", item.toJson)]
  | .nonNullType inner => .obj [("kind", .str Kind.nonNullType.spelling), ("type", inner.toJson)]

end TypeRef

end QueryPayload
