import QueryPayload.Selection.Basic

/-!
# The fragments that a selection set spreads

## Main definitions

* `SelectionSet.spreadNames` — the names of all fragments spread anywhere in the set, each once, in
  the order in which they first occur.
-/

set_option relaxedAutoImplicit false
set_option autoImplicit false

namespace QueryPayload

/-- A name behind those collected so far, unless it is one of them. -/
def addName (names : List String) (name : String) : List String :=
  if names.contains name then names else names ++ [name]

namespace Selection

/-- The names collected so far and the fragment that a head spreads. -/
def Head.addSpread (names : List String) (head : Head) : List String :=
  match head.fragment? with
  | some fragment => addName names fragment.name
  | none => names

mutual

/-- The names collected so far and those spread in a selection: first its own, then those in the
set it carries. -/
def addSpreads (names : List String) : Selection → List String
  | .leaf head => head.addSpread names
  | .nested head _ selections => addAllSpreads (head.addSpread names) selections

/-- The names collected so far and those spread in some selections. -/
def addAllSpreads (names : List String) : List Selection → List String
  | [] => names
  | s :: ss => addAllSpreads (addSpreads names s) ss

end

end Selection

/-- The names of the fragments spread in a set, at any depth. -/
def SelectionSet.spreadNames (set : SelectionSet) : List String :=
  Selection.addAllSpreads [] set.selections

end QueryPayload
