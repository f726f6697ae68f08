import Mathlib.Data.List.Basic
import Mathlib.Tactic.Lemma
import QueryPayload.Proofs.Selection.Spreads

/-!
# The places of selections

A selection stands in a set at a list of indices, one for each depth.  Listed in pre-order, the
places of a set are in lexicographic order: a selection comes before those beneath it, and those
beneath it come before the next selection beside it.

## Main definitions

* `SelectionSet.places` — what the selections of a set say of themselves, each with its place, in
  pre-order.

## Main results

* `SelectionSet.mem_places_iff` — the places of a set are those where a selection is found.
* `SelectionSet.pairwise_places` — they are in lexicographic order, so that none is listed twice.
* `SelectionSet.spreadNames_eq_eraseDups` — the names that a set spreads are the first occurrences
  in that order.
-/

set_option relaxedAutoImplicit false
set_option autoImplicit false

namespace QueryPayload

namespace Selection

mutual

/-- What a selection and all those beneath it say of themselves, each with its place from there
on. -/
def places : Selection → List (List Nat × Head)
  | .leaf head => [([], head)]
  | .nested head _ selections => ([], head) :: placesAll 0 selections

/-- What some selections, of which the first has the given index, and all those beneath them say of
themselves, each with its place. -/
def placesAll (index : Nat) : List Selection → List (List Nat × Head)
  | [] => []
  | s :: ss => (places s).map (fun p => (index :: p.1, p.2)) ++ placesAll (index + 1) ss

end

variable {head : Head} {path : List Nat} {index : Nat} {ss : List Selection}

/-! ## Heads -/

mutual

/-- The places of a selection have its heads. -/
theorem map_snd_places : (s : Selection) → s.places.map (·.2) = s.heads
  | .leaf _ => rfl
  | .nested head _ selections => by rw [places, heads, List.map_cons, map_snd_placesAll]

/-- The places of some selections have their heads. -/
theorem map_snd_placesAll (index : Nat) :
    (ss : List Selection) → (placesAll index ss).map (·.2) = headsAll ss
  | [] => rfl
  | s :: ss => by
    rw [placesAll, headsAll, List.map_append, List.map_map, map_snd_placesAll, ← map_snd_places]
    rfl

end

/-! ## What is found at a place -/

/-- The places beneath some selections: the index of one of them, and a place from there on. -/
lemma mem_placesAll_iff :
    (path, head) ∈ placesAll index ss ↔
      ∃ i s rest, ss[i]? = some s ∧ path = (index + i) :: rest ∧ (rest, head) ∈ s.places := by
  induction ss generalizing index with
  | nil => simp [placesAll]
  | cons s ss ih =>
    rw [placesAll, List.mem_append, ih]
    constructor
    · rintro (hmem | ⟨i, t, rest, hi, rfl, hrest⟩)
      · obtain ⟨⟨rest, head⟩, hrest, heq⟩ := List.mem_map.1 hmem
        obtain ⟨rfl, rfl⟩ := Prod.mk.inj heq
        exact ⟨0, s, rest, rfl, rfl, hrest⟩
      · exact ⟨i + 1, t, rest, hi, by rw [Nat.add_right_comm, Nat.add_assoc], hrest⟩
    · rintro ⟨i, t, rest, hi, rfl, hrest⟩
      cases i with
      | zero =>
        obtain rfl := Option.some.inj hi
        exact Or.inl (List.mem_map.2 ⟨(rest, head), hrest, rfl⟩)
      | succ i => exact Or.inr ⟨i, t, rest, hi, by rw [Nat.add_right_comm, Nat.add_assoc], hrest⟩

/-- The places of a selection: its own, and those of the set it carries. -/
lemma mem_places_iff {s : Selection} :
    (path, head) ∈ s.places ↔
      (path = [] ∧ s.head = head) ∨
        ∃ set, s.set? = some set ∧ (path, head) ∈ placesAll 0 set.selections := by
  cases s with
  | leaf h => simp [places, Selection.head, set?, eq_comm]
  | nested h types selections => simp [places, Selection.head, set?, eq_comm]

/-! ## Order -/

mutual

/-- The places of a selection are in lexicographic order. -/
theorem pairwise_places : (s : Selection) → (s.places.map (·.1)).Pairwise (· < ·)
  | .leaf _ => List.pairwise_singleton _ _
  | .nested head _ selections => by
    rw [places, List.map_cons, List.pairwise_cons]
    refine ⟨fun path hpath => ?_, pairwise_placesAll 0 selections⟩
    obtain ⟨⟨path, head⟩, hmem, rfl⟩ := List.mem_map.1 hpath
    obtain ⟨i, s, rest, -, rfl, -⟩ := mem_placesAll_iff.1 hmem
    exact List.nil_lt_cons _ _

/-- The places of some selections are in lexicographic order. -/
theorem pairwise_placesAll (index : Nat) :
    (ss : List Selection) → ((placesAll index ss).map (·.1)).Pairwise (· < ·)
  | [] => List.Pairwise.nil
  | s :: ss => by
    rw [placesAll, List.map_append, List.map_map, List.pairwise_append]
    refine ⟨?_, pairwise_placesAll (index + 1) ss, fun path hpath later hlater => ?_⟩
    · have hs := List.pairwise_map.1 (pairwise_places s)
      exact List.pairwise_map.2 (hs.imp fun hlt => List.cons_lt_cons_iff.2 (Or.inr ⟨rfl, hlt⟩))
    -- a place beneath a later selection has a larger index in front
    · obtain ⟨p, -, rfl⟩ := List.mem_map.1 hpath
      obtain ⟨⟨later, head⟩, hmem, rfl⟩ := List.mem_map.1 hlater
      obtain ⟨i, t, rest, -, rfl, -⟩ := mem_placesAll_iff.1 hmem
      exact List.cons_lt_cons_iff.2 (Or.inl (by omega))

end

end Selection

namespace SelectionSet

open Selection

/-- What the selections of a set, at every depth, say of themselves, each with its place, in
pre-order. -/
def places (set : SelectionSet) : List (List Nat × Head) := placesAll 0 set.selections

variable {set : SelectionSet} {path : List Nat} {head : Head} {i : Nat}

/-- The first index of a place leads to a selection of the set itself, the others from there on. -/
lemma select?_cons :
    set.select? (i :: path) = set.selections[i]?.bind fun s =>
      if path = [] then some s else s.set?.bind (·.select? path) := by
  cases path with
  | nil => cases hi : set.selections[i]? <;> simp [select?, hi]
  | cons j path =>
    cases hi : set.selections[i]? with
    | none => simp [select?, hi]
    | some s => cases hs : s.set? <;> simp [select?, hi, hs]

/-- **The places of a set** are those where a selection is found.

**Proof sketch.** Induction on the place.  Its first index leads to a selection of the set, which is
what is found if no index is left; otherwise the set it carries is searched. -/
theorem mem_places_iff :
    (path, head) ∈ set.places ↔ ∃ s, set.select? path = some s ∧ s.head = head := by
  induction path generalizing set with
  | nil => simp [places, mem_placesAll_iff, select?]
  | cons i path ih =>
    rw [places, mem_placesAll_iff, select?_cons]
    cases hi : set.selections[i]? with
    | none => simp [hi]
    | some s =>
      have hrest : (path, head) ∈ s.places ↔
          ∃ t, (if path = [] then some s else s.set?.bind (·.select? path)) = some t ∧
            t.head = head := by
        rw [Selection.mem_places_iff]
        by_cases hpath : path = []
        · subst hpath
          simp [mem_placesAll_iff]
        · cases hs : s.set? with
          | none => simp [hpath]
          | some inner => simp [hpath, ← ih, places]
      simp [hi, hrest]

/-- The places of a set are in lexicographic order. -/
theorem pairwise_places (set : SelectionSet) : (set.places.map (·.1)).Pairwise (· < ·) :=
  pairwise_placesAll 0 set.selections

/-- **The names that a set spreads** are the names spread at its places, in lexicographic order of
the places, without those that occur before.  The places are all those where a selection is found,
whatever its kind and depth.

**Proof sketch.** Collecting the names is a fold over the heads in pre-order
(`spreadNames_eq_foldl`), which keeps what is new (`foldl_addName_eq_eraseDups`); the places have
the same heads in the same order (`map_snd_placesAll`). -/
theorem spreadNames_eq_eraseDups (set : SelectionSet) :
    set.spreadNames = (set.places.filterMap fun p => p.2.spreadName?).eraseDups ∧
      (set.places.map (·.1)).Pairwise (· < ·) ∧
      ∀ path head, (path, head) ∈ set.places ↔
        ∃ s, set.select? path = some s ∧ s.head = head := by
  refine ⟨?_, pairwise_places set, fun path head => mem_places_iff⟩
  have hheads : set.places.map (·.2) = set.heads := map_snd_placesAll 0 set.selections
  rw [spreadNames_eq_foldl, foldl_addName_eq_eraseDups, ← hheads, List.filterMap_map]
  rfl

example :
    let spread (name : String) : Head := .fragmentSpread ⟨name⟩ none
    spreadNames ⟨[], [.nested (.typeCondition (.named "Droid")) [] [.nested (spread "B") []
      [.leaf (spread "A")]], .leaf (spread "C"), .leaf (spread "A")]⟩ = ["B", "A", "C"] := by
  decide

end SelectionSet

end QueryPayload
