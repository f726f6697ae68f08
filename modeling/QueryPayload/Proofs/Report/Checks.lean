import Mathlib.Data.List.Forall2
import Mathlib.Tactic.Lemma
import QueryPayload.Command.Validate
import QueryPayload.Proofs.Document.Registry
import QueryPayload.Proofs.Selection.Spreads

/-!
# The checks of a document

What a document is checked for, as a list: every type of which a text is wanted, every spread, and
every condition inside an operation, in the order of the document.  A check fails or it does not,
and the violations of a document are the failing checks, each reported once and in their order.

## Main definitions

* `Check` — something that a document is checked for; `Check.Fails` — that it is violated.
* `Check.Reported` — the defect that a failing check is reported as.
* `Document.checks` — the checks of a document, each with the definition it is in.
* `Reports` — a list of outcomes reports the failing ones of a list of checks.

## Main results

* `Document.checks_report` — the violations of a document are its failing checks, in order.
* `Document.violations_eq_nil_iff` — there is no violation exactly if no check fails.
* `Operation.danglingSpread_mem_defects_iff` — the dangling spreads of an operation.
* `LoadedFile.errors_eq_failing_checks` — checking a document reports exactly what is violated.

## Implementation notes

The list of checks is made from the pre-order of a selection set (`SelectionSet.heads`) and asks
nothing; the validator is a recursion over the selections that asks while it walks.  `Reports` ties
a list of checks to a list of outcomes and is closed under appending, so that the two are compared
part by part: the defects of a definition first, and then the violations of a document.
-/

set_option relaxedAutoImplicit false
set_option autoImplicit false

namespace QueryPayload

/-! ## Checks -/

/-- Something that a document is checked for. -/
inductive Check where
  /-- The type of a part has a text. -/
  | type (part : TypedPart) (type : TypeRef)
  /-- A fragment that is spread is defined. -/
  | spread (name : String)
  /-- The variable of a condition is among those declared. -/
  | condition (name : String) (declared : List Variable)
  deriving DecidableEq, Repr

namespace Check

/-- Whether a check is violated in a document with the given registry. -/
def Fails (registry : FragmentRegistry) : Check → Prop
  | .type _ t => ∀ text, t.render ≠ .ok text
  | .spread name => name ∉ registry.keys
  | .condition name declared => ∀ v ∈ declared, v.name ≠ name

/-- A type has no text exactly if rendering it is an error. -/
lemma type_fails_iff {registry : FragmentRegistry} {part : TypedPart} {t : TypeRef} :
    (Check.type part t).Fails registry ↔ t.render.toOption.isNone = true := by
  rw [Fails]
  cases t.render <;> simp [Except.toOption]

instance (registry : FragmentRegistry) : DecidablePred (Fails registry)
  | .type _ _ => decidable_of_iff' _ type_fails_iff
  | .spread name => inferInstanceAs (Decidable (name ∉ registry.keys))
  | .condition name declared => inferInstanceAs (Decidable (∀ v ∈ declared, v.name ≠ name))

/-- The defect that a violated check is reported as. -/
inductive Reported : Check → Defect → Prop where
  | type {part : TypedPart} {t : TypeRef} {e : TypeRef.Malformed} (h : t.render = .error e) :
    Reported (.type part t) (.malformedType part t e)
  | spread (name : String) : Reported (.spread name) (.danglingSpread ⟨name⟩)
  | condition (name : String) (declared : List Variable) :
    Reported (.condition name declared) (.danglingCondition ⟨name⟩)

end Check

/-! ## The checks of a document -/

/-- What a selection is checked for by itself: a field its type and then the types of its
arguments, the others one thing each.  Conditions are checked where variables are declared. -/
def Selection.Head.checks (declared : Option (List Variable)) : Selection.Head → List Check
  | .field f =>
    .type (.field f.selectedName) f.type ::
      (f.args.getD []).map fun a => .type (.argument a.name f.selectedName) a.type
  | .fragmentSpread fragment _ => [.spread fragment.name]
  | .typeCondition type => [.type .typeCondition type]
  | .booleanCondition variableRef _ =>
    declared.toList.map fun vs => .condition variableRef.name vs

/-- What an operation is checked for: its variables, and its selections in pre-order. -/
def Operation.checks (op : Operation) : List Check :=
  (op.declared.map fun v => .type (.variable v.name) v.type) ++
    op.selectionSet.heads.flatMap (Selection.Head.checks (some op.declared))

/-- What a fragment is checked for: its selections in pre-order, without the conditions. -/
def Fragment.checks (f : Fragment) : List Check :=
  f.selectionSet.heads.flatMap (Selection.Head.checks none)

/-- What the members of a type are checked for: fields their types, values nothing. -/
def UsedType.Members.checks : UsedType.Members → List Check
  | .fields fs => fs.map fun f => .type (.field f.name) f.type
  | .values _ | .neither => []

/-- What a used type is checked for: its members. -/
def UsedType.checks (t : UsedType) : List Check := t.members.checks

/-- What a used type is checked for is the types of its fields, if it has some. -/
lemma UsedType.checks_eq_map (t : UsedType) :
    t.checks = (t.fields?.getD []).map fun f => .type (.field f.name) f.type := by
  obtain ⟨name, kind, description, fs | vs | _⟩ := t <;> simp [checks, Members.checks, fields?]

/-- What a document is checked for, each with the definition it is in. -/
def Document.checks (d : Document) : List (Definition × Check) :=
  (d.operations.flatMap fun op => op.checks.map (Prod.mk (.operation op.name))) ++
    (d.registry.fragments.flatMap fun f => f.checks.map (Prod.mk (.fragment f.name))) ++
    d.typesUsed.flatMap fun t => t.checks.map (Prod.mk (.usedType t.name))

/-! ## Reports -/

/-- Some outcomes report some checks: there is one for each check that fails, in order. -/
def Reports {γ δ : Type} (fails : γ → Prop) [DecidablePred fails] (reported : γ → δ → Prop)
    (checks : List γ) (outcomes : List δ) : Prop :=
  List.Forall₂ reported (checks.filter fun c => fails c) outcomes

namespace Reports

variable {γ δ : Type} {fails : γ → Prop} [DecidablePred fails] {reported : γ → δ → Prop}
  {checks more : List γ} {outcomes rest : List δ} {c : γ}

/-- Without checks there is nothing to report. -/
lemma nil : Reports fails reported [] [] := List.Forall₂.nil

/-- A check that passes is not reported. -/
lemma passed (h : ¬ fails c) : Reports fails reported [c] [] := by
  rw [Reports, List.filter_cons_of_neg (by simpa using h)]
  exact List.Forall₂.nil

/-- A check that fails is reported once. -/
lemma failed {outcome : δ} (h : fails c) (hr : reported c outcome) :
    Reports fails reported [c] [outcome] := by
  rw [Reports, List.filter_cons_of_pos (by simpa using h)]
  exact .cons hr .nil

/-- What two lists of checks report, one after the other. -/
lemma append (h : Reports fails reported checks outcomes) (h' : Reports fails reported more rest) :
    Reports fails reported (checks ++ more) (outcomes ++ rest) := by
  rw [Reports, List.filter_append]
  exact List.rel_append h h'

/-- What several lists of checks report, one after the other. -/
lemma flatMap {α : Type} {checks : α → List γ} {outcomes : α → List δ}
    (h : ∀ a, Reports fails reported (checks a) (outcomes a)) (as : List α) :
    Reports fails reported (as.flatMap checks) (as.flatMap outcomes) := by
  induction as with
  | nil => exact nil
  | cons a as ih => exact (h a).append ih

/-- What is reported is a check that fails. -/
lemma exists_of_mem (h : Reports fails reported checks outcomes) {outcome : δ}
    (hmem : outcome ∈ outcomes) : ∃ c ∈ checks, fails c ∧ reported c outcome := by
  obtain ⟨i, hi, rfl⟩ := List.getElem_of_mem hmem
  have hlen := h.length_eq
  have hfilter := List.getElem_mem (l := checks.filter fun c => fails c) (hlen ▸ hi)
  obtain ⟨hc, hf⟩ := List.mem_filter.1 hfilter
  exact ⟨_, hc, by simpa using hf, h.get (hlen ▸ hi) hi⟩

/-- A check that fails is reported. -/
lemma exists_of_fails (h : Reports fails reported checks outcomes) (hc : c ∈ checks)
    (hf : fails c) : ∃ outcome ∈ outcomes, reported c outcome := by
  have hmem : c ∈ checks.filter fun c => fails c := List.mem_filter.2 ⟨hc, by simpa using hf⟩
  obtain ⟨i, hi, rfl⟩ := List.getElem_of_mem hmem
  have hlen := h.length_eq
  exact ⟨_, List.getElem_mem (hlen ▸ hi), h.get hi (hlen ▸ hi)⟩

/-- Nothing is reported exactly if no check fails. -/
lemma eq_nil_iff (h : Reports fails reported checks outcomes) :
    outcomes = [] ↔ ∀ c ∈ checks, ¬ fails c := by
  rw [← List.length_eq_zero_iff, ← h.length_eq, List.length_eq_zero_iff, List.filter_eq_nil_iff]
  simp

end Reports

/-- Some defects report some checks: there is one for each check that fails, in order. -/
def Check.Report (registry : FragmentRegistry) : List Check → List Defect → Prop :=
  Reports (Check.Fails registry) Check.Reported

namespace Check.Report

variable {registry : FragmentRegistry}

/-- A type is reported if it has no text. -/
lemma ofType (part : TypedPart) (t : TypeRef) :
    Report registry [.type part t] (t.defects part) := by
  rw [TypeRef.defects]
  cases h : t.render with
  | ok text => exact Reports.passed fun hf => hf text h
  | error e => exact Reports.failed (fun text hok => by simp [h] at hok) (.type h)

/-- Several types are reported where they have no text. -/
lemma ofTypes {α : Type} (part : α → TypedPart) (type : α → TypeRef) (as : List α) :
    Report registry (as.map fun a => .type (part a) (type a))
      (as.flatMap fun a => (type a).defects (part a)) := by
  rw [List.map_eq_flatMap]
  exact Reports.flatMap (fun a => ofType (part a) (type a)) as

end Check.Report

/-! ## The validator reports the checks that fail -/

namespace Selection

variable {registry : FragmentRegistry} {declared : Option (List Variable)}

/-- What is reported of a selection by itself. -/
lemma Head.checks_report (registry : FragmentRegistry) (declared : Option (List Variable))
    (head : Head) :
    Check.Report registry (head.checks declared) (head.defects registry declared) := by
  cases head with
  | field f =>
    rw [checks, Head.defects, Field.defects, ← List.singleton_append]
    exact (Check.Report.ofType _ _).append (Check.Report.ofTypes _ _ _)
  | fragmentSpread fragment isConditional =>
    rw [checks, Head.defects]
    cases h : fragment.deref registry with
    | ok f => exact .passed fun hf => hf (FragmentRef.exists_deref_iff.1 ⟨f, h⟩)
    | error e =>
      obtain ⟨hkey, rfl⟩ := FragmentRef.deref_eq_error_iff.1 h
      exact .failed hkey (.spread fragment.name)
  | typeCondition type => exact .ofType _ _
  | booleanCondition variableRef inverted =>
    rw [checks, Head.defects]
    cases declared with
    | none => exact .nil
    | some vs =>
      rw [Option.map_some]
      cases h : variableRef.deref vs with
      | ok v =>
        obtain ⟨w, hw, hname⟩ := VariableRef.exists_deref_iff.1 ⟨v, h⟩
        exact .passed fun hf => hf w hw hname
      | error e =>
        obtain ⟨hnone, rfl⟩ := VariableRef.deref_eq_error_iff.1 h
        exact .failed hnone (.condition variableRef.name vs)

mutual

/-- The validator meets the heads of a selection in pre-order. -/
theorem defects_eq_flatMap :
    (s : Selection) → s.defects registry declared =
      s.heads.flatMap (Head.defects registry declared)
  | .leaf head => by rw [defects, heads, List.flatMap_singleton]
  | .nested head _ selections => by
    rw [defects, heads, List.flatMap_cons, defectsAll_eq_flatMap]

/-- The validator meets the heads of some selections in pre-order. -/
theorem defectsAll_eq_flatMap :
    (ss : List Selection) → defectsAll registry declared ss =
      (headsAll ss).flatMap (Head.defects registry declared)
  | [] => rfl
  | s :: ss => by
    rw [defectsAll, headsAll, List.flatMap_append, defects_eq_flatMap, defectsAll_eq_flatMap]

end

/-- What is reported of some selections is what is reported of their heads. -/
lemma defectsAll_report (registry : FragmentRegistry) (declared : Option (List Variable))
    (set : SelectionSet) :
    Check.Report registry (set.heads.flatMap (Head.checks declared))
      (defectsAll registry declared set.selections) := by
  rw [defectsAll_eq_flatMap]
  exact .flatMap (Head.checks_report registry declared) set.heads

end Selection

/-- The block of an operation reports what it is checked for. -/
theorem Operation.checks_report (registry : FragmentRegistry) (op : Operation) :
    Check.Report registry op.checks (op.defects registry) :=
  (Check.Report.ofTypes _ _ _).append
    (Selection.defectsAll_report registry (some op.declared) op.selectionSet)

/-- The block of a fragment reports what it is checked for. -/
theorem Fragment.checks_report (registry : FragmentRegistry) (f : Fragment) :
    Check.Report registry f.checks (f.defects registry) :=
  Selection.defectsAll_report registry none f.selectionSet

/-- The block of a used type reports what it is checked for. -/
theorem UsedType.checks_report (registry : FragmentRegistry) (t : UsedType) :
    Check.Report registry t.checks t.defects := by
  rw [checks_eq_map]
  exact .ofTypes _ _ _

/-- A spread is among the checks of a selection if the selection is one. -/
lemma Selection.Head.spread_mem_checks_iff {declared : Option (List Variable)}
    {head : Selection.Head} {name : String} :
    Check.spread name ∈ head.checks declared ↔ head.spreadName? = some name := by
  cases head <;> simp [checks, spreadName?, eq_comm]

/-- **The dangling spreads of an operation** are reported for the names it spreads that are not
bound, where the names are those that the closure starts from.

**Proof sketch.** The block reports the checks of the operation that fail, and only a spread is
reported as one.  The spreads among the checks are those of the heads, and so are the names that
are collected (`SelectionSet.mem_spreadNames_iff`). -/
theorem Operation.danglingSpread_mem_defects_iff (registry : FragmentRegistry) (op : Operation)
    (name : String) :
    Defect.danglingSpread ⟨name⟩ ∈ op.defects registry ↔
      name ∈ op.selectionSet.spreadNames ∧ name ∉ registry.keys := by
  have hreport := op.checks_report registry
  have hchecks : Check.spread name ∈ op.checks ↔ name ∈ op.selectionSet.spreadNames := by
    rw [SelectionSet.mem_spreadNames_iff, checks, List.mem_append, List.mem_flatMap]
    simp [Selection.Head.spread_mem_checks_iff]
  rw [← hchecks]
  constructor
  · intro hd
    obtain ⟨c, hc, hf, hr⟩ := hreport.exists_of_mem hd
    cases hr
    exact ⟨hc, hf⟩
  · rintro ⟨hc, hf⟩
    obtain ⟨defect, hd, hr⟩ := hreport.exists_of_fails hc hf
    cases hr
    exact hd

/-! ## Documents -/

namespace Document

/-- Some violations report some checks: there is one for each check that fails, in order and in
the definition of the check. -/
def Report (registry : FragmentRegistry) : List (Definition × Check) → List Violation → Prop :=
  Reports (fun p => p.2.Fails registry) fun p v => v.definition = p.1 ∧ p.2.Reported v.defect

/-- The blocks of some definitions report what these are checked for. -/
lemma Report.blocks {α : Type} {registry : FragmentRegistry} {checks : α → List Check}
    {defects : α → List Defect} (h : ∀ a, Check.Report registry (checks a) (defects a))
    (definition : α → Definition) (as : List α) :
    Report registry (as.flatMap fun a => (checks a).map (Prod.mk (definition a)))
      (as.flatMap fun a => (defects a).map (Violation.mk (definition a))) := by
  refine Reports.flatMap (fun a => ?_) as
  rw [Reports, List.filter_map, List.forall₂_map_left_iff, List.forall₂_map_right_iff]
  exact (h a).imp fun c defect hr => ⟨rfl, hr⟩

/-- **The violations of a document are its failing checks**, in order.

**Proof sketch.** The checks and the violations are the same sequence of blocks, one for each
definition, and each block reports its checks.  Inside a block the types are compared one by one,
and the selections by their heads: the validator walks them in pre-order
(`Selection.defectsAll_eq_flatMap`). -/
theorem checks_report (d : Document) : Report d.registry d.checks d.violations :=
  ((Report.blocks (Operation.checks_report d.registry) (.operation ·.name) _).append
    (Report.blocks (Fragment.checks_report d.registry) (.fragment ·.name) _)).append
    (Report.blocks (UsedType.checks_report d.registry) (.usedType ·.name) _)

/-- There is no violation exactly if no check fails. -/
theorem violations_eq_nil_iff (d : Document) :
    d.violations = [] ↔ ∀ p ∈ d.checks, ¬ p.2.Fails d.registry :=
  Reports.eq_nil_iff d.checks_report

end Document

/-- The error that a violation is reported as, in a file with the given path. -/
def Violation.error (path : String) (v : Violation) : ErrorChain :=
  .of (path ++ ": " ++ v.message)

namespace LoadedFile

/-- The errors of a file with a document are its violations. -/
lemma errors_ok (path : String) (d : Document) :
    (⟨path, .ok d⟩ : LoadedFile).errors = d.violations.map (Violation.error path) := rfl

/-- A file with a document has no errors exactly if no check fails. -/
lemma errors_eq_nil_iff (path : String) (d : Document) :
    (⟨path, .ok d⟩ : LoadedFile).errors = [] ↔ ∀ p ∈ d.checks, ¬ p.2.Fails d.registry := by
  rw [errors_ok, List.map_eq_nil_iff, d.violations_eq_nil_iff]

/-- The errors of a document begin with the blocks of its operations. -/
lemma exists_errors_eq_append (path : String) (d : Document) :
    ∃ rest, (⟨path, .ok d⟩ : LoadedFile).errors =
      (d.operations.flatMap fun op =>
        (op.defects d.registry).map fun x => Violation.error path ⟨.operation op.name, x⟩) ++
        rest := by
  rw [errors_ok, Document.violations, List.append_assoc, List.map_append, List.map_flatMap]
  simp only [List.map_map]
  exact ⟨_, rfl⟩

/-- **Checking a document reports exactly what is violated.**  There is one error for each check
of the document that fails, in the order of the checks and worded for the definition of the check
and for the defect that the check is reported as, and there are no other errors; so there is none
exactly if no check fails.  The errors begin with the blocks of the operations, and in the block of
an operation a dangling spread is reported for exactly those of the names it spreads that are not
bound.

**Proof sketch.** `Document.checks_report` for the errors, `Document.violations_eq_nil_iff` for
their absence and `Operation.danglingSpread_mem_defects_iff` for the blocks. -/
theorem errors_eq_failing_checks (path : String) (d : Document) :
    List.Forall₂
      (fun p e => ∃ defect, p.2.Reported defect ∧ e = Violation.error path ⟨p.1, defect⟩)
      (d.checks.filter fun p => p.2.Fails d.registry) (⟨path, .ok d⟩ : LoadedFile).errors ∧
    ((⟨path, .ok d⟩ : LoadedFile).errors = [] ↔ ∀ p ∈ d.checks, ¬ p.2.Fails d.registry) ∧
    (∃ rest, (⟨path, .ok d⟩ : LoadedFile).errors =
      (d.operations.flatMap fun op =>
        (op.defects d.registry).map fun x => Violation.error path ⟨.operation op.name, x⟩) ++
        rest) ∧
    ∀ op : Operation, ∀ name : String,
      Defect.danglingSpread ⟨name⟩ ∈ op.defects d.registry ↔
        name ∈ op.selectionSet.spreadNames ∧ name ∉ d.registry.keys := by
  refine ⟨?_, errors_eq_nil_iff path d, exists_errors_eq_append path d, fun op name =>
    op.danglingSpread_mem_defects_iff d.registry name⟩
  rw [errors_ok, List.forall₂_map_right_iff]
  refine d.checks_report.imp fun p v hv => ⟨v.defect, hv.2, ?_⟩
  rw [← hv.1]

end LoadedFile

end QueryPayload
