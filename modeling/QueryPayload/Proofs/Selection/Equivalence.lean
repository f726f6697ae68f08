import Mathlib.Tactic.Lemma
import QueryPayload.Document.Basic
import QueryPayload.Proofs.ArgumentValue.Same
import QueryPayload.Proofs.Schema.Proper

/-!
# Meaning the same, for selections

Selections mean the same if they say the same of themselves and carry sets that mean the same: with
the same possible types and selections, in the same order.  Only the values of arguments may be
written in more than one way.

## Main results

* `Selection.induction` — induction on selections, with a hypothesis for every selection beneath.
* `Selection.same_iff`, `SelectionSet.same_iff`, `Fragment.same_iff`, `Operation.same_iff` — meaning
  the same, part by part.
* `Selection.equivalentAt_same`, `Fragment.equivalentAt_same`, `Operation.equivalentAt_same` —
  meaning the same is an equivalence of what is proper.
-/

set_option relaxedAutoImplicit false
set_option autoImplicit false

namespace QueryPayload

namespace Selection

/-! ## Parts of any kind -/

/-- Lists agree if their items do, one by one. -/
lemma sameList_iff {α : Type} {same : α → α → Bool} {as bs : List α} :
    sameList same as bs = true ↔ List.Forall₂ (fun a b => same a b = true) as bs := by
  induction as generalizing bs with
  | nil => cases bs <;> simp [sameList]
  | cons a as ih => cases bs <;> simp [sameList, ih]

/-- Optional values agree if both are there and agree, or neither is. -/
lemma sameOption_iff {α : Type} {same : α → α → Bool} {a b : Option α} :
    sameOption same a b = true ↔ Option.Rel (fun a b => same a b = true) a b := by
  cases a <;> cases b <;> simp [sameOption]

end Selection

/-! ## Arguments and heads -/

/-- Arguments mean the same if their values do and all the rest is equal. -/
lemma Argument.same_iff {a b : Argument} :
    a.same b = true ↔ (a.name, a.type) = (b.name, b.type) ∧ a.value.same b.value = true := by
  simp only [same, Bool.and_eq_true, beq_iff_eq, Prod.mk.injEq, and_right_comm]

/-- Meaning the same is an equivalence of proper arguments. -/
lemma Argument.equivalentAt_same {a : Argument} (ha : a.Proper) :
    EquivalentAt Argument.Proper (fun a b => a.same b = true) a :=
  .congr ha (fun _ _ _ _ => same_iff) <|
    .and (.eq_of fun a : Argument => (a.name, a.type)) <|
      .comap value (fun _ => And.left) (ArgumentValue.equivalentAt_same ha.1)

namespace Selection

variable {s t : Selection}

/-- Fields mean the same if their arguments do and all the rest is equal. -/
lemma Field.same_iff {f g : Field} :
    f.same g = true ↔ { f with args := none } = { g with args := none } ∧
      Option.Rel (List.Forall₂ fun a b => a.same b = true) f.args g.args := by
  simp only [same, Bool.and_eq_true, beq_iff_eq, sameOption_iff, sameList_iff, mk.injEq, and_true,
    and_assoc]

/-- Heads that are not fields mean the same as nothing but themselves. -/
lemma Head.same_iff_eq {a b : Head} (ha : a.field? = none) : a.same b = true ↔ a = b := by
  cases a with
  | field f => cases ha
  | _ => cases b <;> simp [same]

/-- Meaning the same is an equivalence of heads that are proper. -/
lemma Head.equivalentAt_same {head : Head} (h : head.Proper) :
    EquivalentAt Head.Proper (fun a b => a.same b = true) head := by
  cases head with
  | field f =>
    have hargs := h.2
    refine .of_constructor (T := fun f g => f.same g = true) (fun f b => ?_)
      (.congr h (fun f g _ _ => Field.same_iff) (.and (.eq_of _) ?_))
    · cases b <;> simp [same]
    · refine .comap Field.args (fun g hg => hg.2) (.optional fun args hsome => .forall₂ ?_)
      exact fun a ha => Argument.equivalentAt_same (hargs args hsome a ha)
  | fragmentSpread ref isConditional => exact .of_eq fun b => same_iff_eq rfl
  | typeCondition type => exact .of_eq fun b => same_iff_eq rfl
  | booleanCondition ref inverted => exact .of_eq fun b => same_iff_eq rfl

/-! ## Selections and sets -/

/-- **Induction on selections**, with the hypothesis for each selection beneath. -/
@[elab_as_elim]
theorem induction {motive : Selection → Prop} (leaf : ∀ head, motive (.leaf head))
    (nested : ∀ head possibleTypes selections, (∀ s ∈ selections, motive s) →
      motive (.nested head possibleTypes selections)) (s : Selection) : motive s := by
  refine @Selection.rec motive (fun selections => ∀ s ∈ selections, motive s) leaf nested ?_ ?_ s
  · exact fun _ h => absurd h List.not_mem_nil
  · exact fun _ _ hs hss => List.forall_mem_cons.2 ⟨hs, hss⟩

/-- Selections mean the same, one by one. -/
lemma sameAll_iff {ss ts : List Selection} :
    sameAll ss ts = true ↔ List.Forall₂ (fun s t => s.same t = true) ss ts := by
  induction ss generalizing ts with
  | nil => cases ts <;> simp [sameAll]
  | cons s ss ih => cases ts <;> simp [sameAll, ih]

/-- A selection has its head and its set. -/
lemma ofHead_head_set? (s : Selection) : ofHead s.head s.set? = s := by
  cases s <;> rfl

/-- A selection is proper if its head and its set are. -/
lemma proper_iff {s : Selection} :
    s.Proper ↔ s.head.Proper ∧ ∀ set, s.set? = some set → set.Proper := by
  rw [← proper_ofHead_iff, ofHead_head_set?]

end Selection

namespace SelectionSet

variable {set set' : SelectionSet}

/-- Sets mean the same if they have the same possible types and their selections mean the same, one
by one. -/
lemma same_iff :
    set.same set' = true ↔ set.possibleTypes = set'.possibleTypes ∧
      List.Forall₂ (fun s t => s.same t = true) set.selections set'.selections := by
  rw [same, Bool.and_eq_true, beq_iff_eq, Selection.sameAll_iff]

/-- Meaning the same is an equivalence of proper sets if it is one of their selections. -/
lemma equivalentAt_of_selections (hset : set.Proper)
    (h : ∀ s ∈ set.selections, EquivalentAt Selection.Proper (fun s t => s.same t = true) s) :
    EquivalentAt Proper (fun a b => a.same b = true) set :=
  .congr hset (fun _ _ _ _ => same_iff) <| .and (.eq_of possibleTypes) <|
    .comap selections (fun _ hb => (proper_iff.1 hb).2) (.forall₂ h)

end SelectionSet

/-- Selections mean the same if they say the same of themselves and carry sets that mean the same,
or none. -/
lemma Selection.same_iff {s t : Selection} :
    s.same t = true ↔ s.head.same t.head = true ∧
      Option.Rel (fun a b => a.same b = true) s.set? t.set? := by
  cases s <;> cases t <;> simp [same, head, set?, SelectionSet.same, and_assoc]

/-- **Meaning the same is an equivalence** of proper selections.

**Proof sketch.** Induction on the selection: its head is compared by what it is made of
(`Selection.Head.equivalentAt_same`), and the selections beneath it are compared one by one. -/
theorem Selection.equivalentAt_same {s : Selection} (hs : s.Proper) :
    EquivalentAt Selection.Proper (fun s t => s.same t = true) s := by
  have hparts : ∀ s : Selection, s.Proper →
      (∀ set, s.set? = some set →
        EquivalentAt SelectionSet.Proper (fun a b => a.same b = true) set) →
      EquivalentAt Selection.Proper (fun s t => s.same t = true) s := by
    intro s hs hset
    refine .congr hs (fun t u _ _ => same_iff) (.and (.comap head (fun t ht => (proper_iff.1 ht).1)
      (Head.equivalentAt_same (proper_iff.1 hs).1)) ?_)
    exact .comap set? (fun t ht => (proper_iff.1 ht).2) (.optional hset)
  induction s using Selection.induction with
  | leaf head => exact hparts _ hs fun set hset => by cases hset
  | nested head possibleTypes selections ih =>
    refine hparts _ hs fun set hset => ?_
    obtain rfl := Option.some.inj hset
    have hproper := (proper_iff.1 hs).2 _ rfl
    have hselections := (SelectionSet.proper_iff.1 hproper).2
    exact SelectionSet.equivalentAt_of_selections hproper fun s hmem =>
      ih s hmem (hselections s hmem)

/-- Meaning the same is an equivalence of proper sets. -/
lemma SelectionSet.equivalentAt_same {set : SelectionSet} (hset : set.Proper) :
    EquivalentAt SelectionSet.Proper (fun a b => a.same b = true) set :=
  equivalentAt_of_selections hset fun s hs =>
    Selection.equivalentAt_same ((proper_iff.1 hset).2 s hs)

/-! ## Fragments and operations -/

/-- Fragments mean the same if their sets do and all the rest is equal. -/
lemma Fragment.same_iff {f g : Fragment} :
    f.same g = true ↔
      (f.name, f.filePath, f.source) = (g.name, g.filePath, g.source) ∧
        f.selectionSet.same g.selectionSet = true := by
  simp only [same, Bool.and_eq_true, beq_iff_eq, Prod.mk.injEq, and_assoc]

/-- Meaning the same is an equivalence of fragments with proper sets. -/
lemma Fragment.equivalentAt_same {f : Fragment} (hf : f.selectionSet.Proper) :
    EquivalentAt (fun f : Fragment => f.selectionSet.Proper) (fun f g => f.same g = true) f :=
  .congr hf (fun _ _ _ _ => same_iff) <|
    .and (.eq_of fun f : Fragment => (f.name, f.filePath, f.source)) <|
      .comap selectionSet (fun _ hg => hg) (SelectionSet.equivalentAt_same hf)

/-- Operations mean the same if their sets do and all the rest is equal. -/
lemma Operation.same_iff {a b : Operation} :
    a.same b = true ↔
      (a.name, a.kind, a.rootType, a.filePath, a.source, a.declared) =
          (b.name, b.kind, b.rootType, b.filePath, b.source, b.declared) ∧
        a.selectionSet.same b.selectionSet = true := by
  simp only [same, Bool.and_eq_true, beq_iff_eq, Prod.mk.injEq, and_assoc]

/-- Meaning the same is an equivalence of proper operations. -/
lemma Operation.equivalentAt_same {a : Operation} (ha : a.Proper) :
    EquivalentAt Operation.Proper (fun a b => a.same b = true) a :=
  .congr ha (fun _ _ _ _ => same_iff) <|
    .and (.eq_of fun a : Operation =>
        (a.name, a.kind, a.rootType, a.filePath, a.source, a.declared)) <|
      .comap selectionSet (fun _ hb => hb.2) (SelectionSet.equivalentAt_same ha.2)

end QueryPayload
