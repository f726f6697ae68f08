import QueryPayload.Selection.Basic

/-!
# Selections in pre-order

## Main definitions

* `SelectionSet.heads` — what the selections of a set say of themselves, at every depth, each
  before those beneath it.
* `SelectionSet.select?` — the selection that a list of indices leads to.
-/

set_option relaxedAutoImplicit false
set_option autoImplicit false

namespace QueryPayload

namespace Selection

mutual

/-- The heads of a selection and of all selections beneath it. -/
def heads : Selection → List Head
  | .leaf head => [head]
  | .nested head _ selections => head :: headsAll selections

/-- The heads of some selections and of all selections beneath them. -/
def headsAll : List Selection → List Head
  | [] => []
  | s :: ss => heads s ++ headsAll ss

end

end Selection

namespace SelectionSet

/-- The heads of all selections of a set, at every depth. -/
def heads (set : SelectionSet) : List Selection.Head := Selection.headsAll set.selections

/-- The selection that a list of indices leads to, one index for each depth. -/
def select? (set : SelectionSet) : List Nat → Option Selection
  | [] => none
  | [i] => set.selections[i]?
  | i :: is =>
    match set.selections[i]? with
    | some s =>
      match s.set? with
      | some inner => inner.select? is
      | none => none
    | none => none

end SelectionSet

end QueryPayload
