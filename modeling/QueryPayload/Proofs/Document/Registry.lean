import Mathlib.Data.List.Nodup
import Mathlib.Tactic.Lemma
import QueryPayload.Document.Decode

/-!
# Registries of decoded documents

A registry is extended by `FragmentRegistry.add` only, which refuses a name that is taken.  So in
the registry of a decoded document every fragment is bound to its own name and no name is bound
twice, and looking a name up finds *the* fragment of that name.

## Main definitions

* `FragmentRegistry.WellFormed` — every fragment under its own name, no name twice.
* `Document.Decoded` — the documents that some payload decodes to.

## Main results

* `FragmentRegistry.WellFormed.addAll` — adding fragments keeps a registry well formed.
* `FragmentRegistry.WellFormed.get?_eq_some_iff` — what looking up a name finds.
* `FragmentRef.exists_deref_iff`, `VariableRef.exists_deref_iff` — which references find something.
* `Document.Decoded.registry_wellFormed` — the registry of a decoded document is well formed.
-/

set_option relaxedAutoImplicit false
set_option autoImplicit false

namespace QueryPayload

namespace FragmentRegistry

variable {r r' : FragmentRegistry} {f : Fragment} {name : String}

/-- Every fragment is bound to its own name, and no name is bound twice. -/
structure WellFormed (r : FragmentRegistry) : Prop where
  key_eq_name : ∀ e ∈ r.entries, e.1 = e.2.name
  nodup_keys : r.keys.Nodup

/-! ## Looking up names -/

/-- Looking up a name finds nothing exactly if no fragment is bound to it. -/
lemma get?_eq_none_iff : r.get? name = none ↔ name ∉ r.keys := by
  rw [get?, Option.map_eq_none_iff, List.find?_eq_none, keys, List.mem_map]
  constructor
  · rintro h ⟨e, he, hkey⟩
    exact h e he (beq_iff_eq.2 hkey)
  · exact fun h e he hkey => h ⟨e, he, beq_iff_eq.1 hkey⟩

/-- What looking up a name finds is bound to that name. -/
lemma mem_entries_of_get? (h : r.get? name = some f) : (name, f) ∈ r.entries := by
  obtain ⟨⟨key, g⟩, hfind, rfl⟩ := Option.map_eq_some_iff.1 h
  obtain rfl : key = name := by simpa using List.find?_some hfind
  exact List.mem_of_find?_eq_some hfind

/-- The keys of a well-formed registry are the names of its fragments, in order. -/
lemma WellFormed.map_name_fragments (h : r.WellFormed) :
    r.fragments.map Fragment.name = r.keys := by
  rw [fragments, keys, List.map_map]
  exact List.map_congr_left fun e he => (h.key_eq_name e he).symm

/-- In a well-formed registry a name is a key if a fragment has it. -/
lemma WellFormed.mem_keys_iff (h : r.WellFormed) :
    name ∈ r.keys ↔ ∃ f ∈ r.fragments, f.name = name := by
  rw [← h.map_name_fragments, List.mem_map]

/-- A fragment of a well-formed registry is bound to its name. -/
lemma WellFormed.mem_entries_of_mem_fragments (h : r.WellFormed) (hf : f ∈ r.fragments) :
    (f.name, f) ∈ r.entries := by
  obtain ⟨⟨key, g⟩, he, rfl⟩ := List.mem_map.1 hf
  obtain rfl : key = g.name := h.key_eq_name _ he
  exact he

/-- An entry of a well-formed registry is found under its key. -/
lemma WellFormed.get?_of_mem_entries (h : r.WellFormed) (he : (name, f) ∈ r.entries) :
    r.get? name = some f := by
  have hkey : name ∈ r.keys := List.mem_map_of_mem he
  cases hget : r.get? name with
  | none => exact absurd hkey (get?_eq_none_iff.1 hget)
  | some g =>
    have hg := mem_entries_of_get? hget
    exact congrArg (some ·.2) (List.inj_on_of_nodup_map h.nodup_keys hg he rfl)

/-- **Looking up a name in a well-formed registry** finds the one fragment of that name. -/
theorem WellFormed.get?_eq_some_iff (h : r.WellFormed) :
    r.get? name = some f ↔ f ∈ r.fragments ∧ f.name = name := by
  constructor
  · intro hget
    have he := mem_entries_of_get? hget
    exact ⟨List.mem_map_of_mem he, (h.key_eq_name _ he).symm⟩
  · rintro ⟨hf, rfl⟩
    exact h.get?_of_mem_entries (h.mem_entries_of_mem_fragments hf)

/-- A well-formed registry holds one fragment of a name at most. -/
lemma WellFormed.eq_of_name_eq {g : Fragment} (h : r.WellFormed) (hf : f ∈ r.fragments)
    (hg : g ∈ r.fragments) (heq : f.name = g.name) : f = g := by
  have hget : r.get? g.name = some f := h.get?_eq_some_iff.2 ⟨hf, heq⟩
  rw [h.get?_eq_some_iff.2 ⟨hg, rfl⟩] at hget
  exact (Option.some_inj.1 hget).symm

/-! ## Adding fragments -/

/-- The registry without fragments is well formed. -/
lemma wellFormed_empty : empty.WellFormed :=
  ⟨fun _ he => absurd he List.not_mem_nil, List.nodup_nil⟩

/-- What a registry becomes by adding a fragment, and that the name was free. -/
lemma add_eq_ok_iff :
    r.add f = .ok r' ↔ f.name ∉ r.keys ∧ r' = ⟨r.entries ++ [(f.name, f)]⟩ := by
  rw [← get?_eq_none_iff, add]
  cases r.get? f.name with
  | none => simp [eq_comm]
  | some g => simp

/-- Adding a fragment keeps a registry well formed. -/
lemma WellFormed.add (h : r.WellFormed) (ha : r.add f = .ok r') : r'.WellFormed := by
  obtain ⟨hfree, rfl⟩ := add_eq_ok_iff.1 ha
  refine ⟨fun e he => ?_, ?_⟩
  · rcases List.mem_append.1 he with he | he
    · exact h.key_eq_name e he
    · obtain rfl := List.mem_singleton.1 he
      rfl
  · rw [keys, List.map_append]
    exact List.nodup_append'.2 ⟨h.nodup_keys, List.nodup_singleton _,
      List.disjoint_singleton.2 hfree⟩

/-- **Adding fragments keeps a registry well formed**, whether or not a clash ends the adding.

**Proof sketch.** Induction on the fragments; every fragment but the one that clashes is a step
of `WellFormed.add`. -/
theorem WellFormed.addAll (h : r.WellFormed) (fs : List Fragment) :
    (r.addAll fs).1.WellFormed := by
  induction fs generalizing r with
  | nil => exact h
  | cons f fs ih =>
    rw [FragmentRegistry.addAll]
    cases ha : r.add f with
    | error clash => exact h
    | ok r' => exact ih (h.add ha)

end FragmentRegistry

/-! ## References by name -/

/-- A reference to a fragment dangles exactly if its name is not bound. -/
lemma FragmentRef.deref_eq_error_iff {ref : FragmentRef} {r : FragmentRegistry}
    {e : DanglingReference} :
    ref.deref r = .error e ↔ ref.name ∉ r.keys ∧ e = ⟨ref.name⟩ := by
  rw [← FragmentRegistry.get?_eq_none_iff, deref]
  cases r.get? ref.name <;> simp [eq_comm]

/-- A reference to a fragment finds one exactly if its name is bound. -/
lemma FragmentRef.exists_deref_iff {ref : FragmentRef} {r : FragmentRegistry} :
    (∃ f, ref.deref r = .ok f) ↔ ref.name ∈ r.keys := by
  cases h : ref.deref r with
  | ok f => simpa using mt (fun hkey => deref_eq_error_iff.2 ⟨hkey, rfl⟩) (by simp [h])
  | error e => simpa using (deref_eq_error_iff.1 h).1

/-- A reference to a variable dangles exactly if no variable of its name is declared. -/
lemma VariableRef.deref_eq_error_iff {ref : VariableRef} {declared : List Variable}
    {e : DanglingReference} :
    ref.deref declared = .error e ↔ (∀ v ∈ declared, v.name ≠ ref.name) ∧ e = ⟨ref.name⟩ := by
  rw [deref]
  cases h : declared.find? (·.name == ref.name) with
  | none =>
    have hnone : ∀ v ∈ declared, v.name ≠ ref.name := by simpa using h
    simpa [eq_comm] using fun _ => hnone
  | some v =>
    have hv : v.name = ref.name := by simpa using List.find?_some h
    simpa using fun hnone => absurd hv (hnone v (List.mem_of_find?_eq_some h))

/-- A reference to a variable finds one exactly if a variable of its name is declared. -/
lemma VariableRef.exists_deref_iff {ref : VariableRef} {declared : List Variable} :
    (∃ v, ref.deref declared = .ok v) ↔ ∃ v ∈ declared, v.name = ref.name := by
  cases h : ref.deref declared with
  | ok v => simpa using mt (fun hnone => deref_eq_error_iff.2 ⟨hnone, rfl⟩) (by simp [h])
  | error e => simpa using (deref_eq_error_iff.1 h).1

/-! ## Decoded documents -/

namespace Document

variable {d : Document}

/-- A document that some payload decodes to: a text, in memory or from a stream, or a tree. -/
inductive Decoded (d : Document) : Prop where
  | ofText (supply : Supply) (text : List UInt8) (h : Document.ofText supply text = .ok d)
  | ofJson (v : Json) (h : Document.ofJson v = .ok d)

/-- A document made of three lists has the registry that their fragments make. -/
lemma registry_of_ofParts {parts : DocumentParts} (h : ofParts parts = .ok d) :
    d.registry = (FragmentRegistry.empty.addAll parts.fragments).1 := by
  rw [ofParts] at h
  split at h
  · cases h
  · rename_i registry hadd
    cases h
    rw [hadd]

/-- What has been read in a text makes a document only as its three lists do, with nothing wrong
behind them. -/
lemma conclude_eq_ok_iff {supply : Supply} {text : List UInt8}
    {parts : Except Failure DocumentParts} {trailing : Option Json.Fault} :
    conclude supply text parts trailing = .ok d ↔
      ∃ ps, parts = .ok ps ∧ trailing = none ∧ ofParts ps = .ok d := by
  cases parts with
  | error e => simp [conclude]
  | ok ps =>
    cases hps : ofParts ps with
    | error e => simp [conclude, hps]
    | ok d' => cases trailing <;> simp [conclude, hps]

/-- Whatever a document is decoded from, its fragments have been registered one by one. -/
lemma Decoded.exists_ofParts (h : d.Decoded) : ∃ parts, ofParts parts = .ok d := by
  cases h with
  | ofText supply text h =>
    obtain ⟨parts, -, -, hparts⟩ := conclude_eq_ok_iff.1 h
    exact ⟨parts, hparts⟩
  | ofJson v h =>
    rw [Document.ofJson] at h
    split at h
    · cases h
    · exact ⟨_, h⟩

/-- **The registry of a decoded document is well formed.** -/
theorem Decoded.registry_wellFormed (h : d.Decoded) : d.registry.WellFormed := by
  obtain ⟨parts, hparts⟩ := h.exists_ofParts
  rw [registry_of_ofParts hparts]
  exact FragmentRegistry.wellFormed_empty.addAll parts.fragments

end Document

end QueryPayload
