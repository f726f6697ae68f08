import Mathlib.Data.List.DropRight
import Mathlib.Logic.Function.Iterate
import Mathlib.Tactic.Lemma
import QueryPayload.Proofs.TypeRef.Texts

/-!
# Runs of non-null nodes

A reference is a run of non-null nodes, often an empty one, around a node of another kind.  Each
node of the run takes one `?` off the end of the text of that node, no matter where the `?` comes
from: from a list, from a named type, or from a name.  So the text decides with two numbers, that of
the nodes in the run and that of the `?` at its end.

## Main definitions

* `nullMarks` — the number of `?` at the end of a text; `dropEnd` — a text without its last
  characters.
* `TypeRef.unmarked` — what a run of a given length makes of a text.

## Main results

* `TypeRef.render_iterate` — a run around any reference, by the text of the reference.
* `TypeRef.exists_run` — every reference is a run around a node that admits null.
* `TypeRef.render_run` — the exact result of rendering, for every reference.
-/

set_option relaxedAutoImplicit false
set_option autoImplicit false

namespace QueryPayload

/-! ## The end of a text -/

/-- The number of `?` at the end of a text. -/
def nullMarks (text : String) : ℕ := (text.toList.rtakeWhile (· == '?')).length

/-- A text without its last characters, as many as given. -/
def dropEnd (n : ℕ) (text : String) : String := String.ofList (text.toList.rdrop n)

/-- A text with one more `?` behind has one more at its end. -/
@[simp] lemma nullMarks_append_mark (text : String) :
    nullMarks (text ++ "?") = nullMarks text + 1 := by
  have hmark : (text ++ "?").toList = text.toList ++ ['?'] := by simp
  rw [nullMarks, hmark, List.rtakeWhile_concat_pos _ _ _ (by decide), List.length_append]
  rfl

/-- A text that ends in another character than `?` has none at its end. -/
lemma nullMarks_of_lastChar? {text : String} {c : Char} (h : lastChar? text = some c)
    (hc : c ≠ '?') : nullMarks text = 0 := by
  rw [nullMarks, List.length_eq_zero_iff, List.rtakeWhile_eq_nil_iff]
  intro hne hlast
  rw [lastChar?, List.getLast?_eq_some_getLast hne, Option.some.injEq] at h
  exact hc (h ▸ beq_iff_eq.1 hlast)

/-- Nothing is taken off. -/
@[simp] lemma dropEnd_zero (text : String) : dropEnd 0 text = text := by
  rw [dropEnd, List.rdrop_zero, String.ofList_toList]

/-- The last character taken off is the `?` behind the others. -/
@[simp] lemma dropEnd_append_mark (n : ℕ) (text : String) :
    dropEnd (n + 1) (text ++ "?") = dropEnd n text := by
  have hmark : (text ++ "?").toList = text.toList ++ ['?'] := by simp
  rw [dropEnd, hmark, List.rdrop_concat_succ, dropEnd]

namespace TypeRef

/-- There is no `?` to drop exactly if there is none at the end of the text. -/
lemma dropNullMark?_eq_none_iff {text : String} :
    dropNullMark? text = none ↔ nullMarks text = 0 := by
  cases h : dropNullMark? text with
  | some bare =>
    rw [dropNullMark?_eq_some_iff] at h
    simp [h]
  | none =>
    rw [nullMarks, List.length_eq_zero_iff, List.rtakeWhile_eq_nil_iff]
    refine iff_of_true rfl fun hne hlast => ?_
    rw [dropNullMark?, List.getLast?_eq_some_getLast hne, beq_iff_eq.1 hlast, if_pos rfl] at h
    cases h

/-! ## Runs -/

/-- What a run of `n` non-null nodes makes of the text inside: it takes `n` marks off the end, or
fails for the text without any mark, if there are fewer. -/
def unmarked (n : ℕ) (text : String) : Except Malformed String :=
  if n ≤ nullMarks text then .ok (dropEnd n text)
  else .error (.missingNullabilitySuffix (dropEnd (nullMarks text) text))

/-- An empty run leaves a text as it is. -/
@[simp] lemma unmarked_zero (text : String) : unmarked 0 text = .ok text := by
  rw [unmarked, if_pos (Nat.zero_le _), dropEnd_zero]

/-- The first node of a run takes a mark, if there is one. -/
@[simp] lemma unmarked_succ_append_mark (n : ℕ) (text : String) :
    unmarked (n + 1) (text ++ "?") = unmarked n text := by
  by_cases h : n ≤ nullMarks text
  · rw [unmarked, unmarked, if_pos h, if_pos (by rw [nullMarks_append_mark]; omega),
      dropEnd_append_mark]
  · rw [unmarked, unmarked, if_neg h, if_neg (by rw [nullMarks_append_mark]; omega),
      nullMarks_append_mark, dropEnd_append_mark]

/-- The first node of a run fails if there is no mark. -/
lemma unmarked_succ_of_nullMarks {text : String} (h : nullMarks text = 0) (n : ℕ) :
    unmarked (n + 1) text = .error (.missingNullabilitySuffix text) := by
  rw [unmarked, if_neg (by omega), h, dropEnd_zero]

/-- A run fails exactly if it has more nodes than there are marks. -/
lemma exists_unmarked_eq_error_iff {n : ℕ} {text : String} :
    (∃ e, unmarked n text = .error e) ↔ nullMarks text < n := by
  by_cases h : n ≤ nullMarks text
  · simp [unmarked, h]
  · simp [unmarked, h, Nat.lt_of_not_le h]

/-- **A run of non-null nodes** takes marks off the text of what it is around, or fails as that
does.

**Proof sketch.** Induction on the length of the run.  Its innermost node either finds a mark, and
the others go on with the text without it, or it finds none and fails. -/
theorem render_iterate (n : ℕ) (t : TypeRef) :
    (nonNullType^[n] t).render =
      match t.render with
      | .ok text => unmarked n text
      | .error e => .error e := by
  induction n generalizing t with
  | zero =>
    rw [Function.iterate_zero_apply]
    cases t.render with
    | ok text => exact (unmarked_zero text).symm
    | error e => rfl
  | succ n ih =>
    rw [Function.iterate_succ_apply, ih, render]
    cases t.render with
    | error e => rfl
    | ok text =>
      cases hdrop : dropNullMark? text with
      | some bare =>
        obtain rfl := dropNullMark?_eq_some_iff.1 hdrop
        simp only [hdrop, unmarked_succ_append_mark]
      | none =>
        simp only [hdrop, unmarked_succ_of_nullMarks (dropNullMark?_eq_none_iff.1 hdrop)]

/-- Every reference is a run of non-null nodes around a node that admits null. -/
lemma exists_run (t : TypeRef) :
    ∃ n core, core.nullable = true ∧ t = nonNullType^[n] core := by
  induction t with
  | nonNullType inner ih =>
    obtain ⟨n, core, hcore, rfl⟩ := ih
    exact ⟨n + 1, core, hcore, (Function.iterate_succ_apply' nonNullType n core).symm⟩
  | name value => exact ⟨0, .name value, rfl, rfl⟩
  | namedType child _ => exact ⟨0, .namedType child, rfl, rfl⟩
  | listType item _ => exact ⟨0, .listType item, rfl, rfl⟩

/-- A named type around anything but a name has no text. -/
lemma render_namedType_of_isName {child : TypeRef} (h : child.isName = false) :
    (namedType child).render = .error (.missingRequiredChild .namedType) := by
  cases child with
  | name value => cases h
  | _ => rfl

/-- **The exact result of rendering.**  Every reference is a run of non-null nodes around a core
that admits null.  Around a name, around a named type of a name, and around a list whose item has a
text, the run takes one mark for each of its nodes off the end of `v`, of `v?` and of `[r]?`, or
fails for what is left when all marks are gone.  Around a named type of anything else, and around a
list whose item has no text, the whole fails as the core does.

**Proof sketch.** `exists_run` for the form, and `render_iterate` for each kind of core. -/
theorem render_run :
    (∀ t : TypeRef, ∃ n core, core.nullable = true ∧ t = nonNullType^[n] core) ∧
    ∀ n : ℕ,
      (∀ v, (nonNullType^[n] (name v)).render = unmarked n v) ∧
      (∀ v, (nonNullType^[n] (namedType (name v))).render = unmarked n (v ++ "?")) ∧
      (∀ child : TypeRef, child.isName = false →
        (nonNullType^[n] (namedType child)).render =
          .error (.missingRequiredChild .namedType)) ∧
      (∀ item : TypeRef, ∀ r, item.render = .ok r →
        (nonNullType^[n] (listType item)).render = unmarked n ("[" ++ r ++ "]?")) ∧
      ∀ item : TypeRef, ∀ e, item.render = .error e →
        (nonNullType^[n] (listType item)).render = .error e := by
  refine ⟨exists_run, fun n => ⟨fun v => ?_, fun v => ?_, fun child hchild => ?_,
    fun item r hr => ?_, fun item e he => ?_⟩⟩
  · rw [render_iterate, render]
  · rw [render_iterate, render]
  · rw [render_iterate, render_namedType_of_isName hchild]
  · rw [render_iterate, render, hr]
  · rw [render_iterate, render, he]

/-- `render_run` at names that end in marks themselves: three non-null nodes around a named type
take two of them off the name, one more fails, a list has one mark whatever its item is, and a
named type of a list fails around any item and inside a list. -/
theorem render_run_marks :
    (nonNullType^[3] (named "Q??")).render = .ok "Q" ∧
      (nonNullType^[4] (named "Q??")).render = .error (.missingNullabilitySuffix "Q") ∧
      (nonNullType^[2] (list (named "Q??"))).render =
        .error (.missingNullabilitySuffix "[Q???]") ∧
      (nonNullType^[2] (namedType (list (named "Q")))).render =
        .error (.missingRequiredChild .namedType) ∧
      (nonNullType^[2] (list (namedType (list (named "Q"))))).render =
        .error (.missingRequiredChild .namedType) := by
  obtain ⟨-, hrun⟩ := render_run
  refine ⟨((hrun 3).2.1 "Q??").trans (by decide), ((hrun 4).2.1 "Q??").trans (by decide),
    ((hrun 2).2.2.2.1 (named "Q??") "Q???" (by decide)).trans (by decide),
    (hrun 2).2.2.1 (list (named "Q")) rfl, (hrun 2).2.2.2.2 _ _ rfl⟩

end TypeRef

end QueryPayload
