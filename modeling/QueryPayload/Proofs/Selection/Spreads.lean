import Mathlib.Data.List.Induction
import Mathlib.Tactic.Lemma
import QueryPayload.Selection.Preorder
import QueryPayload.Selection.Spreads

/-!
# Spreads in pre-order

The names of the fragments that a set spreads are collected by a recursion of their own.  It meets
the selections in the order of `SelectionSet.heads`, so that the names are those of the spreads
among the heads.

## Main definitions

* `Selection.Head.spreadName?` — the name that a head spreads.

## Main results

* `SelectionSet.spreadNames_eq_foldl` — collecting names is a fold over the heads.
* `SelectionSet.mem_spreadNames_iff` — a name is spread if a head spreads it.
-/

set_option relaxedAutoImplicit false
set_option autoImplicit false

namespace QueryPayload

namespace Selection

/-- The name of the fragment that a head spreads. -/
def Head.spreadName? : Head → Option String
  | .fragmentSpread fragment _ => some fragment.name
  | .field _ | .typeCondition _ | .booleanCondition _ _ => none

/-- A head adds the name it spreads, if it spreads one. -/
lemma Head.addSpread_eq (names : List String) (head : Head) :
    head.addSpread names = head.spreadName?.toList.foldl addName names := by
  cases head <;> rfl

mutual

/-- Collecting the names spread in a selection is a fold over its heads. -/
theorem addSpreads_eq_foldl (names : List String) :
    (s : Selection) → addSpreads names s = s.heads.foldl (fun names h => h.addSpread names) names
  | .leaf _ => rfl
  | .nested head _ selections => by
    rw [addSpreads, heads, List.foldl_cons, addAllSpreads_eq_foldl]

/-- Collecting the names spread in some selections is a fold over their heads. -/
theorem addAllSpreads_eq_foldl (names : List String) :
    (ss : List Selection) →
      addAllSpreads names ss = (headsAll ss).foldl (fun names h => h.addSpread names) names
  | [] => rfl
  | s :: ss => by
    rw [addAllSpreads, headsAll, List.foldl_append, addSpreads_eq_foldl, addAllSpreads_eq_foldl]

end

end Selection

/-- The members of a list with a name added. -/
lemma mem_addName_iff {names : List String} {name n : String} :
    n ∈ addName names name ↔ n ∈ names ∨ n = name := by
  rw [addName]
  split
  · rename_i hmem
    constructor
    · exact Or.inl
    · rintro (hn | rfl)
      · exact hn
      · exact List.contains_iff_mem.1 hmem
  · simp

/-- The members of a list with several names added. -/
lemma mem_foldl_addName_iff {names more : List String} {n : String} :
    n ∈ more.foldl addName names ↔ n ∈ names ∨ n ∈ more := by
  induction more generalizing names with
  | nil => simp
  | cons name more ih => rw [List.foldl_cons, ih, mem_addName_iff, List.mem_cons, or_assoc]

/-- Adding names one after the other keeps the first occurrence of each. -/
lemma foldl_addName_eq_eraseDups (names : List String) :
    names.foldl addName [] = names.eraseDups := by
  induction names using List.reverseRecOn with
  | nil => rfl
  | append_singleton names name ih =>
    rw [List.foldl_append, ih, List.foldl_cons, List.foldl_nil, addName, List.eraseDups_append]
    by_cases hmem : name ∈ names
    · simp [hmem, List.removeAll]
    · simp [hmem, List.removeAll, List.eraseDups_cons]

namespace SelectionSet

variable {set : SelectionSet} {name : String}

/-- **Collecting the names that a set spreads** is a fold over the names its heads spread, in
pre-order.

**Proof sketch.** The recursion over selections is a fold over the heads
(`addAllSpreads_eq_foldl`); a head adds no name or one. -/
theorem spreadNames_eq_foldl (set : SelectionSet) :
    set.spreadNames = (set.heads.filterMap Selection.Head.spreadName?).foldl addName [] := by
  rw [spreadNames, Selection.addAllSpreads_eq_foldl, ← heads]
  generalize ([] : List String) = names
  induction set.heads generalizing names with
  | nil => rfl
  | cons head heads ih =>
    rw [List.foldl_cons, ih, Selection.Head.addSpread_eq]
    cases hname : head.spreadName? <;> simp [hname]

/-- **A set spreads the names that its heads spread**, at whatever depth they are. -/
theorem mem_spreadNames_iff :
    name ∈ set.spreadNames ↔ ∃ head ∈ set.heads, head.spreadName? = some name := by
  rw [spreadNames_eq_foldl, mem_foldl_addName_iff, List.mem_filterMap]
  simp

end SelectionSet

end QueryPayload
