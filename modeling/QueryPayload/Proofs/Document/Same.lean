import Mathlib.Tactic.Lemma
import QueryPayload.Proofs.Document.Locality
import QueryPayload.Proofs.Document.WellFormed
import QueryPayload.Proofs.Selection.Equivalence

/-!
# Documents that mean the same

Two documents mean the same if their operations and used types do, in order, and their registries
bind the same names to fragments that do, in whatever order.  Registries are compared from one side:
they are equally large, and every fragment on the left is found on the right.  That this is an
equivalence rests on names and keys that are not repeated, as none is in what has been decoded.

## Main definitions

* `Shape.Decoded`, `Document.FromPayload` — what is decoded from texts, and from trees without
  repeated keys.
* `Document.Proper` — what makes meaning the same an equivalence.

## Main results

* `FragmentRegistry.same_iff`, `FragmentRegistry.same_iff_rearranges` — which registries mean the
  same.
* `Document.same_laws` — what meaning the same says, and that it is an equivalence.
-/

set_option relaxedAutoImplicit false
set_option autoImplicit false

namespace QueryPayload

/-! ## What is decoded -/

/-- A value decoded alone: from a text, or from a tree that repeats no key. -/
inductive Shape.Decoded (s : Shape) (x : s.Val) : Prop where
  | ofText (text : List UInt8) (h : s.decode text = .ok x)
  | ofJson (v : Json) (hkeys : v.distinctKeys = true) (h : v.read s = .ok x)

/-- What is decoded alone is proper. -/
lemma Shape.Decoded.proper {s : Shape} {x : s.Val} (h : s.Decoded x) : s.Proper x := by
  cases h with
  | ofText text h => exact Json.Source.sound_read _ _ _ (Shape.decode_eq_ok_iff.1 h).1
  | ofJson v hkeys h => exact Json.sound_read hkeys _ _ h

/-- A document decoded from a text, in memory or from a stream, or from a tree that repeats no
key. -/
inductive Document.FromPayload (d : Document) : Prop where
  | ofText (supply : Supply) (text : List UInt8) (h : Document.ofText supply text = .ok d)
  | ofJson (v : Json) (hkeys : v.distinctKeys = true) (h : Document.ofJson v = .ok d)

/-! ## Registries -/

namespace FragmentRegistry

variable {r r' : FragmentRegistry}

/-- Registries are compared as their entries are. -/
lemma same_eq_true_iff :
    r.same r' = true ↔ EachFound (fun f g => f.same g = true) r.entries r'.entries := by
  rw [same, Bool.and_eq_true, beq_iff_eq, List.all_eq_true]
  refine and_congr_right fun _ => forall₂_congr fun ⟨name, f⟩ _ => ?_
  have hget : r'.get? name = valueAt? name r'.entries := rfl
  simp only [hget]
  cases valueAt? name r'.entries <;> simp

/-- **Registries mean the same** exactly if they bind every name to fragments that mean the same, or
neither binds it. -/
theorem same_iff (hr : r.WellFormed) (hr' : r'.WellFormed) :
    r.same r' = true ↔ ∀ name, r.BoundAlike (fun f g => f.same g = true) r' name := by
  rw [same_eq_true_iff, ← bindAlike_iff_eachFound hr.nodup_keys hr'.nodup_keys]
  rfl

/-- **Registries mean the same** exactly if the fragments of one, put in another order, mean the
same as those of the other, one by one. -/
theorem same_iff_rearranges (hr : r.WellFormed) (hr' : r'.WellFormed) :
    r.same r' = true ↔ Rearranges (fun f g => f.same g = true) r.entries r'.entries := by
  rw [same_eq_true_iff, rearranges_iff_eachFound hr.nodup_keys hr'.nodup_keys]

end FragmentRegistry

/-! ## Documents -/

namespace Document

variable {d e : Document}

/-- Documents mean the same if their operations, their registries and their used types do. -/
lemma same_iff :
    d.same e = true ↔ List.Forall₂ (fun a b => a.same b = true) d.operations e.operations ∧
      d.registry.same e.registry = true ∧ d.typesUsed = e.typesUsed := by
  rw [same, Bool.and_eq_true, Bool.and_eq_true, Selection.sameList_iff, beq_iff_eq, and_assoc]

/-- The operations and the fragments of a document are proper, and no name is bound twice. -/
structure Proper (d : Document) : Prop where
  operations : ∀ op ∈ d.operations, op.Proper
  fragments : ∀ f ∈ d.registry.fragments, f.selectionSet.Proper
  registry : d.registry.WellFormed

/-- A document from a payload is proper. -/
lemma FromPayload.proper (h : d.FromPayload) : d.Proper := by
  have hdecoded : d.Decoded := by
    cases h with
    | ofText supply text h => exact .ofText supply text h
    | ofJson v hkeys h => exact .ofJson v h
  obtain ⟨parts, hproper, hparts⟩ :
      ∃ parts : DocumentParts, parts.Proper ∧ ofParts parts = .ok d := by
    cases h with
    | ofText supply text h =>
      obtain ⟨parts, hread, -, hparts⟩ := ofText_eq_ok_iff.1 h
      exact ⟨parts, Json.Source.sound_read _ _ _ hread, hparts⟩
    | ofJson v hkeys h =>
      obtain ⟨parts, hread, hparts⟩ := ofJson_eq_ok_iff.1 h
      exact ⟨parts, Json.sound_read hkeys _ _ hread, hparts⟩
  refine ⟨?_, ?_, hdecoded.registry_wellFormed⟩
  · obtain ⟨-, rfl⟩ := ofParts_eq_ok_iff.1 hparts
    exact hproper.operations
  · obtain ⟨-, rfl⟩ := ofParts_eq_ok_iff.1 hparts
    rw [fragments_document]
    exact hproper.fragments

/-- Meaning the same is an equivalence of proper documents. -/
lemma equivalentAt_same (hd : d.Proper) :
    EquivalentAt Proper (fun d e => d.same e = true) d := by
  have hvalue : ∀ name, EquivalentAt Proper (fun d e : Document =>
      d.registry.BoundAlike (fun f g => f.same g = true) e.registry name) d := by
    intro name
    refine .comap (q := fun o => ∀ f, o = some f → f.selectionSet.Proper)
      (fun d : Document => d.registry.get? name) (fun e he f hf => ?_) (.optional fun f hf => ?_)
    · exact he.fragments f (he.registry.get?_eq_some_iff.1 hf).1
    · exact Fragment.equivalentAt_same (hd.fragments f (hd.registry.get?_eq_some_iff.1 hf).1)
  have hoperations : EquivalentAt Proper (fun d e : Document =>
      List.Forall₂ (fun a b => a.same b = true) d.operations e.operations) d :=
    .comap operations (fun e he => he.operations)
      (.forall₂ fun op hop => Operation.equivalentAt_same (hd.operations op hop))
  refine .congr hd (fun d e hd he => ?_)
    (.and hoperations (.and (.forall_index hvalue) (.eq_of typesUsed)))
  rw [same_iff, FragmentRegistry.same_iff hd.registry he.registry]

/-- **What meaning the same says.**  Decoded documents mean the same exactly if their operations do,
one by one, their used types are equal, and they bind every name to fragments that mean the same, or
neither binds it.  Selection sets mean the same exactly if they have the same possible types and
their selections mean the same, one by one.  Values of arguments that repeat no key mean the same
exactly if one is the other with the entries of objects rearranged; finite floating-point numbers
are compared by their values.  Meaning the same is an equivalence of documents from payloads, and of
all proper selections and values of arguments, as those are that are decoded alone.

**Proof sketch.** Registries and objects are compared from one side; as long as no name and no key
is repeated, this says that every name and every key is bound alike (`FragmentRegistry.same_iff`,
`ArgumentValue.same_iff_rearranged`).  The three laws are put together from those of the parts
(`EquivalentAt`). -/
theorem same_laws :
    (∀ d e : Document, d.Decoded → e.Decoded →
      (d.same e = true ↔
        List.Forall₂ (fun a b => a.same b = true) d.operations e.operations ∧
        (∀ name, Option.Rel (fun f g => f.same g = true) (d.fragment? name) (e.fragment? name)) ∧
        d.typesUsed = e.typesUsed)) ∧
    (∀ set set' : SelectionSet, set.same set' = true ↔
      set.possibleTypes = set'.possibleTypes ∧
        List.Forall₂ (fun s t => s.same t = true) set.selections set'.selections) ∧
    (∀ a b : ArgumentValue, a.toJson.distinctKeys = true → b.toJson.distinctKeys = true →
      (a.same b = true ↔ a.Rearranged b)) ∧
    (∀ x y : Binary64, x.isFinite = true → y.isFinite = true →
      (x.numericEq y = true ↔ x.signedValue = y.signedValue)) ∧
    (Equivalence fun d e : {d : Document // d.FromPayload} => d.1.same e.1 = true) ∧
    (Equivalence fun s t : {s : Selection // s.Proper} => s.1.same t.1 = true) ∧
    (Equivalence fun a b : {a : ArgumentValue // a.Proper} => a.1.same b.1 = true) ∧
    (∀ s : Selection, Shape.selection.Decoded s → s.Proper) ∧
    ∀ a : ArgumentValue, Shape.argumentValue.Decoded a → a.Proper := by
  refine ⟨fun d e hd he => ?_, fun _ _ => SelectionSet.same_iff,
    fun a b ha hb => ArgumentValue.same_iff_rearranged ha hb,
    fun x y hx hy => Binary64.numericEq_iff hx hy, ?_, ?_, ?_, fun s hs => hs.proper,
    fun a ha => ha.proper⟩
  · rw [same_iff, FragmentRegistry.same_iff hd.registry_wellFormed he.registry_wellFormed]
    rfl
  · exact equivalence_of_equivalentAt fun d hd => (equivalentAt_same hd.proper).mono fun e he =>
      he.proper
  · exact equivalence_of_equivalentAt fun s hs => Selection.equivalentAt_same hs
  · exact equivalence_of_equivalentAt fun a ha => ArgumentValue.equivalentAt_same ha

/-- `same_laws` for two payloads whose fragments are in another order, as is the object that one of
them filters by; for that object and for a selection decoded alone; and for the two zeros. -/
theorem same_laws_rearranged :
    let xy : List (String × ArgumentValue) := [("x", .int 1), ("y", .null)]
    let yx : List (String × ArgumentValue) := [("y", .null), ("x", .int 1)]
    let v := ofSpreadPayload
      [filteringPayload (ArgumentValue.entriesToJson xy), passingPayload "B" "A"]
    let w := ofSpreadPayload
      [passingPayload "B" "A", filteringPayload (ArgumentValue.entriesToJson yx)]
    let d := ofSpread [filtering xy, passing "B" "A"]
    let e := ofSpread [passing "B" "A", filtering yx]
    let spread : Json := .obj [("kind", .str "FragmentSpread"), ("fragmentName", .str "A")]
    (ofJson v = .ok d ∧ ofJson w = .ok e ∧ d.same e = true ∧ e.same d = true ∧
      ∀ name, Option.Rel (fun f g => f.same g = true) (d.fragment? name) (e.fragment? name)) ∧
    (ArgumentValue.object xy).Rearranged (.object yx) ∧
    (Binary64.zero true).signedValue = (Binary64.zero false).signedValue ∧
    spread.read .selection = .ok (.leaf (.fragmentSpread ⟨"A"⟩ none)) ∧
      (Selection.leaf (.fragmentSpread ⟨"A"⟩ none)).Proper ∧ (ArgumentValue.object xy).Proper := by
  intro xy yx v w d e spread
  have hd : ofJson v = .ok d := by rfl
  have he : ofJson w = .ok e := by rfl
  have hde : d.same e = true := by rfl
  have hread : spread.read .selection = .ok (.leaf (.fragmentSpread ⟨"A"⟩ none)) := by rfl
  have hxy : (ArgumentValue.object xy).toJson.read .argumentValue = .ok (.object xy) := by rfl
  obtain ⟨hdocument, -, hvalue, hnumber, hequivalence, -, -, hselection, hargument⟩ := same_laws
  have hsymm := @hequivalence.symm ⟨d, .ofJson v (by rfl) hd⟩ ⟨e, .ofJson w (by rfl) he⟩ hde
  refine ⟨⟨hd, he, hde, hsymm, ?_⟩, ?_, ?_, hread, ?_, ?_⟩
  · exact ((hdocument d e (.ofJson v hd) (.ofJson w he)).1 hde).2.1
  · exact (hvalue (.object xy) (.object yx) (by rfl) (by rfl)).1 (by rfl)
  · exact (hnumber _ _ (by rfl) (by rfl)).1 (by rfl)
  · exact hselection _ (.ofJson spread (by rfl) hread)
  · exact hargument _ (.ofJson _ (by rfl) hxy)

end Document

end QueryPayload
