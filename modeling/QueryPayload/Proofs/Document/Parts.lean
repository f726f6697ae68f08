import Mathlib.Data.List.Nodup
import Mathlib.Tactic.Lemma
import QueryPayload.Proofs.Document.Registry

/-!
# Documents made of three lists

The lists of a payload make a document exactly if no two fragments have one name, and then the
document is what the lists say.

## Main definitions

* `DocumentParts.document` — the document of three lists, each fragment under its name.

## Main results

* `FragmentRegistry.addAll_eq_iff` — when several fragments can be added to a registry.
* `Document.ofParts_eq_ok_iff` — when three lists make a document.
-/

set_option relaxedAutoImplicit false
set_option autoImplicit false

namespace QueryPayload

/-- The registry of some fragments, each under its name. -/
def FragmentRegistry.ofFragments (fs : List Fragment) : FragmentRegistry :=
  ⟨fs.map fun f => (f.name, f)⟩

/-- The document of three lists. -/
def DocumentParts.document (parts : DocumentParts) : Document :=
  ⟨parts.operations, .ofFragments parts.fragments, parts.typesUsed⟩

namespace FragmentRegistry

variable {r r' : FragmentRegistry} {fs : List Fragment}

/-- The registry of some fragments holds them in their order. -/
@[simp] lemma fragments_ofFragments (fs : List Fragment) : (ofFragments fs).fragments = fs := by
  rw [fragments, ofFragments, List.map_map]
  exact List.map_id fs

/-- **Adding several fragments** meets no clash exactly if their names are free and differ from each
other; then they stand behind the others. -/
theorem addAll_eq_iff :
    r.addAll fs = (r', none) ↔
      (∀ f ∈ fs, f.name ∉ r.keys) ∧ (fs.map Fragment.name).Nodup ∧
        r' = ⟨r.entries ++ fs.map fun f => (f.name, f)⟩ := by
  induction fs generalizing r with
  | nil => simp [addAll, eq_comm]
  | cons f fs ih =>
    rw [addAll]
    cases hadd : r.add f with
    | error clash =>
      have htaken : f.name ∈ r.keys := by
        by_contra hfree
        rw [add_eq_ok_iff.2 ⟨hfree, rfl⟩] at hadd
        cases hadd
      simp [htaken]
    | ok s =>
      obtain ⟨hfree, rfl⟩ := add_eq_ok_iff.1 hadd
      have hkeys : ∀ name, name ∈ (⟨r.entries ++ [(f.name, f)]⟩ : FragmentRegistry).keys ↔
          name ∈ r.keys ∨ name = f.name := fun name => by simp [keys]
      simp only [ih, hkeys, not_or, List.map_cons, List.nodup_cons, List.forall_mem_cons,
        List.append_assoc, List.singleton_append, List.mem_map, not_exists, not_and]
      constructor
      · rintro ⟨hnew, hnodup, rfl⟩
        exact ⟨⟨hfree, fun g hg => (hnew g hg).1⟩, ⟨fun g hg => (hnew g hg).2, hnodup⟩, rfl⟩
      · rintro ⟨⟨-, hnew⟩, ⟨hother, hnodup⟩, rfl⟩
        exact ⟨fun g hg => ⟨hnew g hg, hother g hg⟩, hnodup, rfl⟩

end FragmentRegistry

namespace Document

variable {parts : DocumentParts} {d : Document}

/-- **Three lists make a document** exactly if no two fragments have one name. -/
theorem ofParts_eq_ok_iff :
    ofParts parts = .ok d ↔
      (parts.fragments.map Fragment.name).Nodup ∧ d = parts.document := by
  have hadd : ∀ r, FragmentRegistry.empty.addAll parts.fragments = (r, none) ↔
      (parts.fragments.map Fragment.name).Nodup ∧ r = .ofFragments parts.fragments := by
    intro r
    simp [FragmentRegistry.addAll_eq_iff, FragmentRegistry.empty, FragmentRegistry.keys,
      FragmentRegistry.ofFragments]
  rw [ofParts]
  rcases haddAll : FragmentRegistry.empty.addAll parts.fragments with ⟨r, _ | clash⟩
  · obtain ⟨hnodup, rfl⟩ := (hadd r).1 haddAll
    simp [hnodup, DocumentParts.document, eq_comm]
  · have hclash : ¬ (parts.fragments.map Fragment.name).Nodup := fun hnodup => by
      rw [(hadd _).2 ⟨hnodup, rfl⟩] at haddAll
      cases haddAll
    simp [hclash]

/-- The registry of a document holds the fragments of its three lists, in their order. -/
@[simp] lemma fragments_document (parts : DocumentParts) :
    parts.document.registry.fragments = parts.fragments :=
  FragmentRegistry.fragments_ofFragments _

end Document

end QueryPayload
