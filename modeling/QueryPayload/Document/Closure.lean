import QueryPayload.Document.Basic
import QueryPayload.Selection.Spreads

/-!
# The fragments that an operation refers to

An operation spreads fragments, which spread others.  The closure lists all fragments reached in
this way, each once, in the order in which a depth-first walk first refers to them.

## Main definitions

* `Document.referencedFragments` — the closure, or the first name on the way that is not defined.
* `Document.sourceWithFragments` — the source text of an operation and of its closure.

## Design

The walk keeps the fragments visited so far, the entries of the registry not yet visited, and the
names still to be followed, nearest first.  A visited fragment is moved from the second list to the
first before the names it spreads are followed, so that a cycle finds it there; every other step
takes a name off the third list.  The walk ends because each step shortens the unvisited entries or
else the names.
-/

set_option relaxedAutoImplicit false
set_option autoImplicit false

namespace QueryPayload

namespace Document

/-- The first entry with the given name, and the other entries in their order. -/
def takeNamed? (name : String) :
    List (String × Fragment) → Option (Fragment × List (String × Fragment))
  | [] => none
  | (key, f) :: es =>
    if key = name then some (f, es)
    else (takeNamed? name es).map fun (g, rest) => (g, (key, f) :: rest)

/-- What is left is one entry shorter. -/
theorem length_of_takeNamed? {name : String} {es rest : List (String × Fragment)} {f : Fragment}
    (h : takeNamed? name es = some (f, rest)) : rest.length < es.length := by
  induction es generalizing f rest with
  | nil => simp [takeNamed?] at h
  | cons e es ih =>
    obtain ⟨key, g⟩ := e
    simp only [takeNamed?] at h
    split at h
    · cases h
      simp
    · obtain ⟨⟨g', rest'⟩, h', hr⟩ := Option.map_eq_some_iff.1 h
      cases hr
      simpa using ih h'

/-- Follows the names, nearest first. -/
def follow (visited unvisited : List (String × Fragment)) :
    List String → Except DanglingReference (List (String × Fragment))
  | [] => .ok visited
  | name :: names =>
    match _h : takeNamed? name unvisited with
    | some (f, unvisited) =>
      follow (visited ++ [(name, f)]) unvisited (f.selectionSet.spreadNames ++ names)
    | none =>
      if visited.any (·.1 == name) then follow visited unvisited names else .error ⟨name⟩
termination_by names => (unvisited.length, names.length)
decreasing_by
  · exact Prod.Lex.left _ _ (length_of_takeNamed? ‹_›)
  · exact Prod.Lex.right _ (Nat.lt_succ_self _)

/-- The fragments that an operation refers to, directly or through other fragments. -/
def referencedFragments (d : Document) (op : Operation) :
    Except DanglingReference (List Fragment) :=
  (follow [] d.registry.entries op.selectionSet.spreadNames).map (·.map (·.2))

/-- The source of an operation, followed by that of each fragment it refers to on a line of its
own. -/
def sourceWithFragments (d : Document) (op : Operation) : Except DanglingReference String :=
  (d.referencedFragments op).map fun fs =>
    fs.foldl (fun text f => text ++ "\n" ++ f.source) op.source

end Document

end QueryPayload
