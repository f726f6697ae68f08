import Mathlib.Tactic.Lemma
import QueryPayload.Document.Basic
import QueryPayload.Selection.Spreads

/-!
# What selections that mean the same have in common

Two selections may mean the same and still not be the same: the entries of an object in the value of
an argument come in any order.  The fragments that they spread are not affected by that.

## Main results

* `Selection.addAllSpreads_eq_of_same` — collecting names finds the same in selections that mean the
  same.
* `Fragment.spreadNames_eq_of_same` — fragments that mean the same spread the same fragments.
-/

set_option relaxedAutoImplicit false
set_option autoImplicit false

namespace QueryPayload

namespace Selection

/-- Heads that mean the same spread the same fragment. -/
lemma Head.fragment?_eq_of_same {a b : Head} (h : a.same b = true) :
    a.fragment? = b.fragment? := by
  cases a with
  | fragmentSpread f c =>
    cases b with
    | fragmentSpread g d =>
      obtain ⟨hname, -⟩ := (Bool.and_eq_true _ _).mp h
      exact congrArg some (beq_iff_eq.1 hname)
    | _ => cases h
  | field f =>
    cases b with
    | field g => rfl
    | _ => cases h
  | typeCondition t =>
    cases b with
    | typeCondition u => rfl
    | _ => cases h
  | booleanCondition v i =>
    cases b with
    | booleanCondition w j => rfl
    | _ => cases h

mutual

/-- Selections that mean the same add the same names. -/
theorem addSpreads_eq_of_same (names : List String) :
    (a b : Selection) → a.same b = true → addSpreads names a = addSpreads names b
  | .leaf a, .leaf b, h => by
    rw [addSpreads, addSpreads, Head.addSpread, Head.addSpread, Head.fragment?_eq_of_same h]
  | .nested a _ as, .nested b _ bs, h => by
    rw [same, Bool.and_eq_true, Bool.and_eq_true] at h
    obtain ⟨⟨hhead, -⟩, hall⟩ := h
    rw [addSpreads, addSpreads, Head.addSpread, Head.addSpread,
      Head.fragment?_eq_of_same hhead, addAllSpreads_eq_of_same _ as bs hall]

/-- Lists of selections that mean the same add the same names. -/
theorem addAllSpreads_eq_of_same (names : List String) :
    (as bs : List Selection) → sameAll as bs = true →
      addAllSpreads names as = addAllSpreads names bs
  | [], [], _ => rfl
  | a :: as, b :: bs, h => by
    rw [sameAll, Bool.and_eq_true] at h
    rw [addAllSpreads, addAllSpreads, addSpreads_eq_of_same names a b h.1,
      addAllSpreads_eq_of_same _ as bs h.2]

end

end Selection

namespace Fragment

variable {f g : Fragment}

/-- Fragments that mean the same have one name. -/
lemma name_eq_of_same (h : f.same g = true) : f.name = g.name := by
  simp only [same, Bool.and_eq_true, beq_iff_eq] at h
  exact h.1.1.1

/-- Fragments that mean the same have one source. -/
lemma source_eq_of_same (h : f.same g = true) : f.source = g.source := by
  simp only [same, Bool.and_eq_true, beq_iff_eq] at h
  exact h.1.2

/-- Fragments that mean the same spread the same fragments. -/
lemma spreadNames_eq_of_same (h : f.same g = true) :
    f.selectionSet.spreadNames = g.selectionSet.spreadNames := by
  simp only [same, SelectionSet.same, Bool.and_eq_true] at h
  exact Selection.addAllSpreads_eq_of_same [] _ _ h.2.2

end Fragment

end QueryPayload
