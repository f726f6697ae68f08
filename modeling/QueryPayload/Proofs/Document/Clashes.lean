import Mathlib.Data.List.Induction
import Mathlib.Data.List.Nodup
import Mathlib.Order.Nat
import Mathlib.Tactic.Lemma
import QueryPayload.Proofs.Document.EntryPoints
import QueryPayload.Proofs.Document.Parts

/-!
# Fragments registered one after the other

Fragments are added to a registry in their order, up to the first one whose name is taken.  So
either all are there, each found under its name in every way of looking it up, or those before the
clash are, and the two fragments that clash are reported.

## Main definitions

* `FragmentRegistry.FirstClash` — the first fragment whose name is taken, and the one that took it.
* `Document.LooksUp` — what all ways of looking up a name find.

## Main results

* `FragmentRegistry.addAll_of_nodup`, `FragmentRegistry.addAll_of_firstClash` — the two ways in
  which adding fragments ends.
* `FragmentRegistry.exists_firstClash_iff` — which of them it is.
* `Document.ofParts_eq_clash_iff` — the error of three lists that make no document.
* `FragmentRegistry.addAll_faithful` — all of this, for lists of fragments and for payloads.
-/

set_option relaxedAutoImplicit false
set_option autoImplicit false

namespace QueryPayload

namespace FragmentRegistry

variable {r r' : FragmentRegistry} {fs gs : List Fragment} {i j : Nat} {first second : Fragment}
  {clash : DuplicateFragment}

/-! ## The first clash -/

/-- The fragment at index `j` is the first whose name has occurred before, at index `i`. -/
structure FirstClash (fs : List Fragment) (i j : Nat) (first second : Fragment) : Prop where
  lt : i < j
  getElem?_first : fs[i]? = some first
  getElem?_second : fs[j]? = some second
  name_eq : first.name = second.name
  nodup_before : ((fs.take j).map Fragment.name).Nodup

/-- What is reported of two fragments of one name, in their order. -/
def clashOf (first second : Fragment) : DuplicateFragment :=
  ⟨second.name, first.filePath, second.filePath⟩

/-- Fragments behind a first clash do not matter. -/
lemma FirstClash.append (h : FirstClash fs i j first second) (gs : List Fragment) :
    FirstClash (fs ++ gs) i j first second := by
  obtain ⟨hj, -⟩ := List.getElem?_eq_some_iff.1 h.getElem?_second
  have hi : i < fs.length := h.lt.trans hj
  refine ⟨h.lt, ?_, ?_, h.name_eq, ?_⟩
  · rw [List.getElem?_append_left hi, h.getElem?_first]
  · rw [List.getElem?_append_left hj, h.getElem?_second]
  · rw [List.take_append_of_le_length hj.le]
    exact h.nodup_before

/-- Where there is a first clash, a name occurs twice. -/
lemma FirstClash.not_nodup (h : FirstClash fs i j first second) :
    ¬ (fs.map Fragment.name).Nodup := by
  intro hnodup
  obtain ⟨hj, -⟩ := List.getElem?_eq_some_iff.1 h.getElem?_second
  refine List.nodup_iff_getElem?_ne_getElem?.1 hnodup i j h.lt (by rwa [List.length_map]) ?_
  rw [List.getElem?_map, List.getElem?_map, h.getElem?_first, h.getElem?_second, Option.map_some,
    Option.map_some, h.name_eq]

/-- **There is a first clash** exactly if a name occurs twice.

**Proof sketch.** Induction on the fragments from the last one on: either there is a first clash
before it, or its own name is the first that has occurred. -/
theorem exists_firstClash_iff :
    (∃ i j first second, FirstClash fs i j first second) ↔ ¬ (fs.map Fragment.name).Nodup := by
  refine ⟨fun ⟨i, j, first, second, h⟩ => h.not_nodup, fun h => ?_⟩
  induction fs using List.reverseRecOn with
  | nil => exact absurd List.nodup_nil h
  | append_singleton fs f ih =>
    by_cases hfs : (fs.map Fragment.name).Nodup
    · have hmem : f.name ∈ fs.map Fragment.name := by
        by_contra hnew
        refine h ?_
        rw [List.map_append]
        exact List.nodup_append'.2
          ⟨hfs, List.nodup_singleton _, List.disjoint_singleton.2 hnew⟩
      obtain ⟨g, hg, hname⟩ := List.mem_map.1 hmem
      obtain ⟨i, hi, rfl⟩ := List.mem_iff_getElem.1 hg
      refine ⟨i, fs.length, fs[i], f, hi, ?_, ?_, hname, ?_⟩
      · rw [List.getElem?_append_left hi, List.getElem?_eq_getElem hi]
      · rw [List.getElem?_append_right le_rfl, Nat.sub_self]
        rfl
      · rwa [List.take_left]
    · obtain ⟨i, j, first, second, hclash⟩ := ih hfs
      exact ⟨i, j, first, second, hclash.append [f]⟩

/-! ## Adding fragments -/

/-- Fragments that can be added are followed by adding others. -/
lemma addAll_append (h : r.addAll fs = (r', none)) (gs : List Fragment) :
    r.addAll (fs ++ gs) = r'.addAll gs := by
  induction fs generalizing r with
  | nil =>
    obtain rfl := congrArg Prod.fst h
    rfl
  | cons f fs ih =>
    rw [addAll] at h
    rw [List.cons_append, addAll]
    cases hadd : r.add f with
    | error clash => simp [hadd] at h
    | ok s =>
      rw [hadd] at h
      exact ih h

/-- Fragments of different names make a registry. -/
lemma wellFormed_ofFragments (h : (fs.map Fragment.name).Nodup) : (ofFragments fs).WellFormed := by
  refine ⟨fun e he => ?_, ?_⟩
  · obtain ⟨f, -, rfl⟩ := List.mem_map.1 he
    rfl
  · rw [keys, ofFragments, List.map_map]
    exact h

/-- **Fragments of different names** are all added. -/
theorem addAll_of_nodup (h : (fs.map Fragment.name).Nodup) :
    empty.addAll fs = (ofFragments fs, none) :=
  addAll_eq_iff.2 ⟨fun _ _ => List.not_mem_nil, h, rfl⟩

/-- A fragment cannot be added whose name is taken. -/
lemma WellFormed.add_eq_error (h : r.WellFormed) (hfirst : first ∈ r.fragments)
    (hname : first.name = second.name) : r.add second = .error (clashOf first second) := by
  rw [FragmentRegistry.add, h.get?_eq_some_iff.2 ⟨hfirst, hname⟩]
  rfl

/-- **Fragments with a first clash** are added up to there, and the clash is reported.

**Proof sketch.** The fragments before the clash have different names (`addAll_of_nodup`), and the
first of those that clash is among them. -/
theorem addAll_of_firstClash (h : FirstClash fs i j first second) :
    empty.addAll (fs.take j) = (ofFragments (fs.take j), none) ∧
      (ofFragments (fs.take j)).add second = .error (clashOf first second) ∧
      empty.addAll fs = (ofFragments (fs.take j), some (clashOf first second)) := by
  obtain ⟨hj, hsecond⟩ := List.getElem?_eq_some_iff.1 h.getElem?_second
  have htake := addAll_of_nodup h.nodup_before
  have hfirst : first ∈ (ofFragments (fs.take j)).fragments := by
    rw [fragments_ofFragments]
    exact List.mem_of_getElem? ((List.getElem?_take_of_lt h.lt).trans h.getElem?_first)
  have hadd := (wellFormed_ofFragments h.nodup_before).add_eq_error hfirst h.name_eq
  refine ⟨htake, hadd, ?_⟩
  calc empty.addAll fs
      = empty.addAll (fs.take j ++ second :: fs.drop (j + 1)) := by
        rw [← hsecond, ← List.drop_eq_getElem_cons hj, List.take_append_drop]
    _ = (ofFragments (fs.take j)).addAll (second :: fs.drop (j + 1)) := addAll_append htake _
    _ = (ofFragments (fs.take j), some (clashOf first second)) := by rw [addAll, hadd]

/-- The clash that ends the adding of fragments is the first one. -/
lemma addAll_eq_clash_iff :
    (empty.addAll fs).2 = some clash ↔
      ∃ i j first second, FirstClash fs i j first second ∧ clash = clashOf first second := by
  constructor
  · intro h
    obtain ⟨i, j, first, second, hclash⟩ := exists_firstClash_iff.2 fun hnodup => by
      rw [addAll_of_nodup hnodup] at h
      cases h
    rw [(addAll_of_firstClash hclash).2.2] at h
    exact ⟨i, j, first, second, hclash, (Option.some.inj h).symm⟩
  · rintro ⟨i, j, first, second, hclash, rfl⟩
    rw [(addAll_of_firstClash hclash).2.2]

end FragmentRegistry

namespace Document

open FragmentRegistry

variable {d : Document} {name : String} {parts : DocumentParts} {clash : DuplicateFragment}

/-! ## Looking up names -/

/-- What looking up a name finds, in the registry, in the document, by a reference and by the
reference of a selection that spreads the name. -/
structure LooksUp (d : Document) (name : String) (found : Option Fragment) : Prop where
  get? : d.registry.get? name = found
  fragment? : d.fragment? name = found
  deref : FragmentRef.deref ⟨name⟩ d.registry = found.elim (.error ⟨name⟩) .ok
  spread : ∀ (s : Selection) (ref : FragmentRef), s.head.fragment? = some ref → ref.name = name →
    ref.deref d.registry = found.elim (.error ⟨name⟩) .ok

/-- All ways of looking up a name find what is bound to it. -/
lemma looksUp_get? (d : Document) (name : String) : d.LooksUp name (d.registry.get? name) := by
  have hderef : ∀ ref : FragmentRef, ref.name = name →
      ref.deref d.registry = (d.registry.get? name).elim (.error ⟨name⟩) .ok := by
    rintro ref rfl
    rw [FragmentRef.deref]
    cases d.registry.get? ref.name <;> rfl
  exact ⟨rfl, rfl, hderef ⟨name⟩ rfl, fun _ ref _ => hderef ref⟩

/-- Where every fragment is bound to its name, a name finds the one fragment that has it, or
nothing. -/
lemma looksUp_of_wellFormed (h : d.registry.WellFormed) (name : String) :
    (∃ f ∈ d.registry.fragments, f.name = name ∧
      (∀ g ∈ d.registry.fragments, g.name = name → g = f) ∧ d.LooksUp name (some f)) ∨
      ((∀ f ∈ d.registry.fragments, f.name ≠ name) ∧ d.LooksUp name none) := by
  have hlooks := d.looksUp_get? name
  cases hget : d.registry.get? name with
  | none =>
    rw [hget] at hlooks
    refine Or.inr ⟨fun f hf hname => ?_, hlooks⟩
    rw [h.get?_eq_some_iff.2 ⟨hf, hname⟩] at hget
    cases hget
  | some f =>
    rw [hget] at hlooks
    obtain ⟨hf, hname⟩ := h.get?_eq_some_iff.1 hget
    exact Or.inl ⟨f, hf, hname, fun g hg hgname => h.eq_of_name_eq hg hf
      (hgname.trans hname.symm), hlooks⟩

/-! ## Decoding -/

/-- **Three lists make no document** exactly if there is a first clash among the fragments, which
is what is reported. -/
theorem ofParts_eq_clash_iff :
    ofParts parts = .error (.duplicateFragment clash) ↔
      ∃ i j first second, FirstClash parts.fragments i j first second ∧
        clash = clashOf first second := by
  rw [← addAll_eq_clash_iff, ofParts]
  rcases empty.addAll parts.fragments with ⟨r, _ | clash'⟩ <;> simp

end Document

namespace FragmentRegistry

/-- **Registering fragments is faithful.**  Fragments of different names are all there, in their
order, and each way of looking up a name finds the one fragment that has it, or nothing.  Otherwise
the fragments before the first clash are there, and the two that clash are reported, by their name
and the paths of their files.  A payload is refused for a clash exactly if its three lists have been
decoded, and with the first clash among the fragments, whatever follows in its text.

**Proof sketch.** A registry built by adding fragments is that of a prefix of them
(`addAll_of_nodup`, `addAll_of_firstClash`) and well formed, so that looking up a name finds the one
fragment that has it (`Document.looksUp_of_wellFormed`). -/
theorem addAll_faithful :
    (∀ fs : List Fragment, (fs.map Fragment.name).Nodup →
      ∃ r, empty.addAll fs = (r, none) ∧ r.fragments = fs ∧ r.size = fs.length ∧
        ∀ d : Document, d.registry = r → ∀ name,
          (∃ f ∈ fs, f.name = name ∧ (∀ g ∈ fs, g.name = name → g = f) ∧
            d.LooksUp name (some f)) ∨
            ((∀ f ∈ fs, f.name ≠ name) ∧ d.LooksUp name none)) ∧
    (∀ fs : List Fragment, ¬ (fs.map Fragment.name).Nodup →
      ∃ i j first second, FirstClash fs i j first second ∧
        ∃ r, r.fragments = fs.take j ∧ empty.addAll (fs.take j) = (r, none) ∧
          r.add second = .error ⟨second.name, first.filePath, second.filePath⟩ ∧
          empty.addAll fs = (r, some ⟨second.name, first.filePath, second.filePath⟩)) ∧
    ∀ clash,
      (∀ supply text, Document.ofText supply text = .error (.duplicateFragment clash) ↔
        ∃ parts, (Document.readParts text).1 = .ok parts ∧
          ∃ i j first second, FirstClash parts.fragments i j first second ∧
            clash = ⟨second.name, first.filePath, second.filePath⟩) ∧
      ∀ v, Document.ofJson v = .error (.duplicateFragment clash) ↔
        ∃ parts, v.read (.record .document) = .ok parts ∧
          ∃ i j first second, FirstClash parts.fragments i j first second ∧
            clash = ⟨second.name, first.filePath, second.filePath⟩ := by
  refine ⟨fun fs hnodup => ?_, fun fs hclash => ?_,
    fun clash => ⟨fun supply text => ?_, fun v => ?_⟩⟩
  · refine ⟨ofFragments fs, addAll_of_nodup hnodup, fragments_ofFragments fs, List.length_map _,
      fun d hd name => ?_⟩
    have hlooks := Document.looksUp_of_wellFormed (hd ▸ wellFormed_ofFragments hnodup) name
    rwa [hd, fragments_ofFragments] at hlooks
  · obtain ⟨i, j, first, second, h⟩ := exists_firstClash_iff.2 hclash
    exact ⟨i, j, first, second, h, ofFragments (fs.take j), fragments_ofFragments _,
      addAll_of_firstClash h⟩
  · simp only [Document.ofText_eq_clash_iff, Document.ofParts_eq_clash_iff]
    rfl
  · simp only [Document.ofJson_eq_clash_iff, Document.ofParts_eq_clash_iff]
    rfl

/-- A fragment with the given name, defined in the given file. -/
def definedIn (filePath name : String) : Fragment := ⟨name, filePath, "", ⟨[], []⟩⟩

/-- The fragments of two files. -/
def heroFragments : List Fragment :=
  [definedIn "a.graphql" "Hero", definedIn "a.graphql" "Droid", definedIn "b.graphql" "Droid",
    definedIn "b.graphql" "Hero"]

/-- `addAll_faithful` on the fragments of one file, and on those of both, where two names are
defined twice. -/
theorem addAll_heroFragments :
    (((heroFragments.take 2).map Fragment.name).Nodup ∧
      ∃ r, empty.addAll (heroFragments.take 2) = (r, none) ∧
        r.fragments = heroFragments.take 2 ∧ r.size = 2 ∧
        ∀ d : Document, d.registry = r → ∀ name,
          (∃ f ∈ heroFragments.take 2, f.name = name ∧
            (∀ g ∈ heroFragments.take 2, g.name = name → g = f) ∧ d.LooksUp name (some f)) ∨
            ((∀ f ∈ heroFragments.take 2, f.name ≠ name) ∧ d.LooksUp name none)) ∧
    ¬ (heroFragments.map Fragment.name).Nodup ∧
      ∃ i j first second, FirstClash heroFragments i j first second ∧
        ∃ r, r.fragments = heroFragments.take j ∧
          empty.addAll (heroFragments.take j) = (r, none) ∧
          r.add second = .error ⟨second.name, first.filePath, second.filePath⟩ ∧
          empty.addAll heroFragments =
            (r, some ⟨second.name, first.filePath, second.filePath⟩) :=
  ⟨⟨by decide, addAll_faithful.1 _ (by decide)⟩, by decide, addAll_faithful.2.1 _ (by decide)⟩

example :
    let definition (name filePath : String) : Fragment := ⟨name, filePath, "", ⟨[], []⟩⟩
    (empty.addAll [definition "Hero" "a", definition "Droid" "a", definition "Droid" "b",
      definition "Hero" "b"]).2 = some ⟨"Droid", "a", "b"⟩ := by
  decide

end FragmentRegistry

end QueryPayload
