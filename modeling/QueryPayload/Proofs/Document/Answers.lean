import Mathlib.Tactic.Lemma
import QueryPayload.Proofs.Document.Same
import QueryPayload.Proofs.Report.Checks

/-!
# Documents that mean the same answer alike

Equality of documents forgets the order of fragments and of the entries of objects.  Nothing that a
document is asked for depends on these: not the closure of an operation nor its full source, not
what is found under a name, and not what the validator reports, but for the order in which it goes
through the fragments.

## Main results

* `Selection.forall₂_heads_of_same` — selections that mean the same say the same at every depth.
* `Document.perm_violations_of_same` — what is wrong with documents that mean the same.
* `Document.answers_alike` — all queries of documents that mean the same.
-/

set_option relaxedAutoImplicit false
set_option autoImplicit false

namespace QueryPayload

/-! ## What is reported of selections -/

namespace Selection

mutual

/-- Selections that mean the same say the same of themselves, at every depth. -/
theorem forall₂_heads_of_same :
    (s t : Selection) → s.same t = true →
      List.Forall₂ (fun a b : Head => a.same b = true) s.heads t.heads
  | .leaf a, .leaf b, h => .cons h .nil
  | .nested a _ ss, .nested b _ ts, h => by
    rw [same, Bool.and_eq_true, Bool.and_eq_true] at h
    obtain ⟨⟨hhead, -⟩, hall⟩ := h
    exact .cons hhead (forall₂_headsAll_of_same ss ts hall)

/-- Lists of selections that mean the same say the same of themselves, at every depth. -/
theorem forall₂_headsAll_of_same :
    (ss ts : List Selection) → sameAll ss ts = true →
      List.Forall₂ (fun a b : Head => a.same b = true) (headsAll ss) (headsAll ts)
  | [], [], _ => .nil
  | s :: ss, t :: ts, h => by
    rw [sameAll, Bool.and_eq_true] at h
    exact List.rel_append (forall₂_heads_of_same s t h.1) (forall₂_headsAll_of_same ss ts h.2)

end

/-- The same is reported of fields that mean the same: the values of arguments are not looked at. -/
lemma Field.defects_eq_of_same {f g : Field} (h : f.same g = true) : f.defects = g.defects := by
  obtain ⟨hrest, hargs⟩ := Field.same_iff.1 h
  have htype : f.type = g.type := (congrArg Field.type hrest :)
  have hname : f.selectedName = g.selectedName := (congrArg Field.selectedName hrest :)
  have hitems : List.Forall₂ (fun a b : Argument => a.same b = true)
      (f.args.getD []) (g.args.getD []) := by
    generalize f.args = args at hargs ⊢
    generalize g.args = args' at hargs ⊢
    cases hargs with
    | none => exact .nil
    | some h => exact h
  rw [defects, defects, htype, hname]
  refine congrArg _ (flatMap_eq_of_forall₂ hitems fun a b hab => ?_)
  obtain ⟨hname, htype⟩ := Prod.mk.inj (Argument.same_iff.1 hab).1
  rw [hname, htype]

variable {r r' : FragmentRegistry}

/-- The same is reported of heads that mean the same, if the same names are bound. -/
lemma Head.defects_eq_of_same (hkeys : ∀ name, name ∈ r.keys ↔ name ∈ r'.keys)
    (declared : Option (List Variable)) {a b : Head} (h : a.same b = true) :
    a.defects r declared = b.defects r' declared := by
  cases a with
  | field f =>
    cases b with
    | field g => exact Field.defects_eq_of_same h
    | _ => cases h
  | fragmentSpread ref isConditional =>
    obtain rfl := (same_iff_eq rfl).1 h
    rw [defects, defects]
    by_cases hkey : ref.name ∈ r.keys
    · obtain ⟨f, hf⟩ := FragmentRef.exists_deref_iff.2 hkey
      obtain ⟨g, hg⟩ := FragmentRef.exists_deref_iff.2 ((hkeys _).1 hkey)
      rw [hf, hg]
    · rw [FragmentRef.deref_eq_error_iff.2 ⟨hkey, rfl⟩,
        FragmentRef.deref_eq_error_iff.2 ⟨mt (hkeys _).2 hkey, rfl⟩]
  | typeCondition type =>
    obtain rfl := (same_iff_eq rfl).1 h
    rfl
  | booleanCondition ref inverted =>
    obtain rfl := (same_iff_eq rfl).1 h
    rfl

/-- The same is reported of sets that mean the same, if the same names are bound. -/
lemma defectsAll_eq_of_same (hkeys : ∀ name, name ∈ r.keys ↔ name ∈ r'.keys)
    (declared : Option (List Variable)) {set set' : SelectionSet} (h : set.same set' = true) :
    defectsAll r declared set.selections = defectsAll r' declared set'.selections := by
  rw [SelectionSet.same, Bool.and_eq_true] at h
  rw [defectsAll_eq_flatMap, defectsAll_eq_flatMap]
  exact flatMap_eq_of_forall₂ (forall₂_headsAll_of_same _ _ h.2) fun a b hab =>
    Head.defects_eq_of_same hkeys declared hab

end Selection

/-! ## Operations -/

namespace Operation

variable {op op' : Operation}

/-- Operations that mean the same have one name. -/
lemma name_eq_of_same (h : op.same op' = true) : op.name = op'.name :=
  congrArg Prod.fst (same_iff.1 h).1

/-- Operations that mean the same have one source. -/
lemma source_eq_of_same (h : op.same op' = true) : op.source = op'.source :=
  congrArg (·.2.2.2.2.1) (same_iff.1 h).1

/-- Operations that mean the same declare the same variables. -/
lemma declared_eq_of_same (h : op.same op' = true) : op.declared = op'.declared :=
  congrArg (·.2.2.2.2.2) (same_iff.1 h).1

/-- Operations that mean the same spread the same fragments. -/
lemma spreadNames_eq_of_same (h : op.same op' = true) :
    op.selectionSet.spreadNames = op'.selectionSet.spreadNames := by
  have hset := (same_iff.1 h).2
  rw [SelectionSet.same, Bool.and_eq_true] at hset
  exact Selection.addAllSpreads_eq_of_same [] _ _ hset.2

end Operation

namespace Document

variable {d d' : Document} {op op' : Operation}

/-- Operations that mean the same have one closure. -/
lemma referencedFragments_eq_of_same (h : op.same op' = true) :
    d.referencedFragments op = d.referencedFragments op' := by
  rw [referencedFragments, referencedFragments, Operation.spreadNames_eq_of_same h]

/-- Operations that mean the same have one full source. -/
lemma sourceWithFragments_eq_of_same (h : op.same op' = true) :
    d.sourceWithFragments op = d.sourceWithFragments op' := by
  rw [sourceWithFragments, sourceWithFragments, referencedFragments_eq_of_same h,
    Operation.source_eq_of_same h]

/-! ## What is reported of documents -/

/-- **The same is wrong with documents that mean the same**, in another order if the fragments are.

**Proof sketch.** The fragments of one registry, put in another order, mean the same as those of the
other, one by one (`FragmentRegistry.same_iff_rearranges`), and the same names are bound; so the
blocks of related definitions are equal. -/
theorem perm_violations_of_same (hr : d.registry.WellFormed) (hr' : d'.registry.WellFormed)
    (h : d.same d' = true) : d.violations.Perm d'.violations := by
  obtain ⟨hoperations, hregistry, htypes⟩ := same_iff.1 h
  have hbound := (FragmentRegistry.same_iff hr hr').1 hregistry
  have hkeys : ∀ name, name ∈ d.registry.keys ↔ name ∈ d'.registry.keys :=
    fun name => BindAlike.mem_keys_iff hbound
  obtain ⟨es, hperm, hes⟩ := (FragmentRegistry.same_iff_rearranges hr hr').1 hregistry
  have hfragments : List.Forall₂ (fun f g : Fragment => f.same g = true) (es.map (·.2))
      d'.registry.fragments := by
    rw [FragmentRegistry.fragments, List.forall₂_map_left_iff, List.forall₂_map_right_iff]
    exact hes.imp fun e e' he => (entryRel_iff.1 he).2
  rw [violations, violations, htypes]
  refine .append_right _ (.append (.of_eq ?_) (((hperm.map _).flatMap_right _).trans (.of_eq ?_)))
  · refine flatMap_eq_of_forall₂ hoperations fun op op' hop => ?_
    rw [Operation.defects, Operation.defects, Operation.name_eq_of_same hop,
      Operation.declared_eq_of_same hop,
      Selection.defectsAll_eq_of_same hkeys _ (Operation.same_iff.1 hop).2]
  · refine flatMap_eq_of_forall₂ hfragments fun f g hfg => ?_
    rw [Fragment.defects, Fragment.defects, Fragment.name_eq_of_same hfg,
      Selection.defectsAll_eq_of_same hkeys _ (Fragment.same_iff.1 hfg).2]

/-! ## All queries -/

/-- **Documents that mean the same answer alike.**  Operations that mean the same have closures in
them that mean the same, fragment by fragment, or that dangle at the same name, and one full source.
What is found under a name means the same, if anything is found.  The validator reports the same
errors, in another order if the fragments are.

**Proof sketch.** The registries bind the same names to fragments that mean the same, so that walks
through them go in step (`referencedFragments_agree`); operations and used types stand in the same
order, so that the first ones of a name do; the violations are those of
`perm_violations_of_same`. -/
theorem answers_alike (d d' : Document) (hd : d.Decoded) (hd' : d'.Decoded)
    (h : d.same d' = true) :
    (∀ op op' : Operation, op.same op' = true →
      Agree (List.Forall₂ fun f g => f.same g = true)
          (d.referencedFragments op) (d'.referencedFragments op') ∧
        d.sourceWithFragments op = d'.sourceWithFragments op') ∧
    (∀ name,
      Option.Rel (fun a b => a.same b = true) (d.operation? name) (d'.operation? name) ∧
        Option.Rel (fun f g => f.same g = true) (d.fragment? name) (d'.fragment? name) ∧
        d.typeUsed? name = d'.typeUsed? name) ∧
    ∀ path, (⟨path, .ok d⟩ : LoadedFile).errors.Perm (⟨path, .ok d'⟩ : LoadedFile).errors := by
  have hr := hd.registry_wellFormed
  have hr' := hd'.registry_wellFormed
  obtain ⟨hoperations, hregistry, htypes⟩ := same_iff.1 h
  have hbound := (FragmentRegistry.same_iff hr hr').1 hregistry
  refine ⟨fun op op' hop => ?_, fun name => ⟨?_, hbound name, ?_⟩, fun path => ?_⟩
  · have hagree : Agree (List.Forall₂ fun f g => f.same g = true)
        (d.referencedFragments op) (d'.referencedFragments op) :=
      referencedFragments_agree Fragment.respects_same hr hr' fun name _ => hbound name
    rw [← referencedFragments_eq_of_same hop, ← sourceWithFragments_eq_of_same hop]
    exact ⟨hagree, sourceWithFragments_eq_of_agree Fragment.respects_same hagree⟩
  · exact rel_find?_of_forall₂ hoperations fun a b hab => by rw [Operation.name_eq_of_same hab]
  · rw [typeUsed?, typeUsed?, htypes]
  · rw [LoadedFile.errors_ok, LoadedFile.errors_ok]
    exact (perm_violations_of_same hr hr' h).map _

/-- `answers_alike` for two payloads in which the fragments, two of which spread fragments that are
not there, stand in opposite orders, as do the entries of an object in one of them. -/
theorem answers_alike_rearranged :
    let xy : List (String × ArgumentValue) := [("x", .int 1), ("y", .null)]
    let yx : List (String × ArgumentValue) := [("y", .null), ("x", .int 1)]
    let d := ofSpread [filtering xy, passing "B" "A", passing "C" "Y", passing "D" "Z"]
    let e := ofSpread [passing "D" "Z", passing "C" "Y", passing "B" "A", filtering yx]
    (d.Decoded ∧ e.Decoded ∧ d.same e = true ∧ cyclicOperation.same cyclicOperation = true) ∧
    (Agree (List.Forall₂ fun f g => f.same g = true)
        (d.referencedFragments cyclicOperation) (e.referencedFragments cyclicOperation) ∧
      d.sourceWithFragments cyclicOperation = e.sourceWithFragments cyclicOperation) ∧
    Option.Rel (fun f g => f.same g = true) (d.fragment? "A") (e.fragment? "A") ∧
    (⟨"p", .ok d⟩ : LoadedFile).errors.length = 2 ∧
    (⟨"p", .ok d⟩ : LoadedFile).errors.Perm (⟨"p", .ok e⟩ : LoadedFile).errors := by
  intro xy yx d e
  have hd : d.Decoded := .ofJson
    (ofSpreadPayload [filteringPayload (ArgumentValue.entriesToJson xy), passingPayload "B" "A",
      passingPayload "C" "Y", passingPayload "D" "Z"]) (by rfl)
  have he : e.Decoded := .ofJson
    (ofSpreadPayload [passingPayload "D" "Z", passingPayload "C" "Y", passingPayload "B" "A",
      filteringPayload (ArgumentValue.entriesToJson yx)]) (by rfl)
  have hde : d.same e = true := by rfl
  have hop : cyclicOperation.same cyclicOperation = true := by rfl
  obtain ⟨hclosure, hlookup, herrors⟩ := answers_alike d e hd he hde
  exact ⟨⟨hd, he, hde, hop⟩, hclosure _ _ hop, (hlookup "A").2.1, by rfl, herrors "p"⟩

end Document

end QueryPayload
