import QueryPayload.TypeRef.Basic

/-!
# Texts of type references

## Main definitions

* `TypeRef.render` — the reference in a language where a trailing `?` marks what may be null:
  `Episode`, `[Character?]?`.
* `TypeRef.sdl` — the reference in the schema language, where a trailing `!` marks what may not be
  null: `Episode!`, `[Character]`.

## Design

Rendering writes `?` behind every named type and every list, and a non-null node takes one `?`
away from the end of what it wraps.  If there is none to take, the reference is malformed.  Since
a name may itself end in `?`, what counts is the text and not the tree.
-/

set_option relaxedAutoImplicit false
set_option autoImplicit false

namespace QueryPayload

namespace TypeRef

/-- A text without the `?` at its end, if it has one. -/
def dropNullMark? (s : String) : Option String :=
  if s.toList.getLast? = some '?' then some (String.ofList s.toList.dropLast) else none

/-- The reference with `?` marking what may be null. -/
def render : TypeRef → Except Malformed String
  | .name value => .ok value
  | .namedType (.name value) => .ok (value ++ "?")
  | .namedType _ => .error (.missingRequiredChild .namedType)
  | .listType item =>
    match item.render with
    | .ok rendered => .ok ("[" ++ rendered ++ "]?")
    | .error e => .error e
  | .nonNullType inner =>
    match inner.render with
    | .ok rendered =>
      match dropNullMark? rendered with
      | some bare => .ok bare
      | none => .error (.missingNullabilitySuffix rendered)
    | .error e => .error e

/-- The reference in the schema language. -/
def sdl : TypeRef → String
  | .name value => value
  | .namedType child => child.sdl
  | .listType item => "[" ++ item.sdl ++ "]"
  | .nonNullType inner => inner.sdl ++ "!"

end TypeRef

end QueryPayload
