import Mathlib.Tactic.Lemma
import QueryPayload.Json.Basic

/-!
# JSON trees, part by part

The type of JSON trees does not keep an object from repeating a key.  The trees that readers build
do not repeat any.

## Main definitions

* `Json.distinctKeys` — no object in a tree repeats a key.
* `Json.nesting` — how deeply arrays and objects are nested.

## Main results

* `Json.induction` — induction on trees, with a hypothesis for every part.
* `Json.itemsDistinctKeys_iff`, `entriesDistinctKeys_iff` — repeated keys, part by part.
* `Json.itemsNesting_le_iff`, `entriesNesting_le_iff` — nesting, part by part.
-/

set_option relaxedAutoImplicit false
set_option autoImplicit false

namespace QueryPayload

namespace Json

/-- **Induction on trees**: an array has the hypothesis for each item, and an object for the value
of each entry. -/
@[elab_as_elim]
theorem induction {motive : Json → Prop} (null : motive .null) (bool : ∀ b, motive (.bool b))
    (num : ∀ n, motive (.num n)) (str : ∀ s, motive (.str s))
    (arr : ∀ items, (∀ v ∈ items, motive v) → motive (.arr items))
    (obj : ∀ entries, (∀ e ∈ entries, motive e.2) → motive (.obj entries)) (v : Json) :
    motive v := by
  refine @Json.rec motive (fun items => ∀ v ∈ items, motive v)
    (fun entries => ∀ e ∈ entries, motive e.2) (fun e => motive e.2) null bool num str arr obj
    ?_ ?_ ?_ ?_ ?_ v
  -- the items of an array
  · exact fun _ h => absurd h List.not_mem_nil
  · exact fun _ _ hv hvs => List.forall_mem_cons.2 ⟨hv, hvs⟩
  -- the entries of an object, and one entry
  · exact fun _ h => absurd h List.not_mem_nil
  · exact fun _ _ he hes => List.forall_mem_cons.2 ⟨he, hes⟩
  · exact fun _ _ hv => hv

/-! ## Repeated keys -/

mutual

/-- Whether no object in a tree repeats a key. -/
def distinctKeys : Json → Bool
  | .arr items => itemsDistinctKeys items
  | .obj entries => decide (entries.map (·.1)).Nodup && entriesDistinctKeys entries
  | _ => true

/-- Whether no object in the items of an array repeats a key. -/
def itemsDistinctKeys : List Json → Bool
  | [] => true
  | v :: vs => distinctKeys v && itemsDistinctKeys vs

/-- Whether no object in the values of an object repeats a key. -/
def entriesDistinctKeys : List (String × Json) → Bool
  | [] => true
  | (_, v) :: es => distinctKeys v && entriesDistinctKeys es

end

/-- The items of an array repeat no key if none of them does. -/
lemma itemsDistinctKeys_iff {items : List Json} :
    itemsDistinctKeys items = true ↔ ∀ v ∈ items, v.distinctKeys = true := by
  induction items with
  | nil => simp [itemsDistinctKeys]
  | cons v vs ih => simp [itemsDistinctKeys, ih]

/-- The values of an object repeat no key if none of them does. -/
lemma entriesDistinctKeys_iff {entries : List (String × Json)} :
    entriesDistinctKeys entries = true ↔ ∀ e ∈ entries, e.2.distinctKeys = true := by
  induction entries with
  | nil => simp [entriesDistinctKeys]
  | cons e es ih => simp [entriesDistinctKeys, ih]

/-- An array repeats no key if none of its items does. -/
lemma distinctKeys_arr_iff {items : List Json} :
    (arr items).distinctKeys = true ↔ ∀ v ∈ items, v.distinctKeys = true := by
  rw [distinctKeys, itemsDistinctKeys_iff]

/-- An object repeats no key if its own are distinct and none of its values repeats one. -/
lemma distinctKeys_obj_iff {entries : List (String × Json)} :
    (obj entries).distinctKeys = true ↔
      (entries.map (·.1)).Nodup ∧ ∀ e ∈ entries, e.2.distinctKeys = true := by
  rw [distinctKeys, Bool.and_eq_true, decide_eq_true_eq, entriesDistinctKeys_iff]

/-! ## How deeply a tree is nested -/

mutual

/-- The largest number of brackets that are open at one place of a tree. -/
def nesting : Json → Nat
  | .arr items => itemsNesting items + 1
  | .obj entries => entriesNesting entries + 1
  | _ => 0

/-- The largest number of brackets that are open at one place of the items of an array. -/
def itemsNesting : List Json → Nat
  | [] => 0
  | v :: vs => max v.nesting (itemsNesting vs)

/-- The largest number of brackets that are open at one place of the values of an object. -/
def entriesNesting : List (String × Json) → Nat
  | [] => 0
  | (_, v) :: es => max v.nesting (entriesNesting es)

end

/-- The items of an array are nested no more deeply than each of them may be. -/
lemma itemsNesting_le_iff {items : List Json} {n : Nat} :
    itemsNesting items ≤ n ↔ ∀ v ∈ items, v.nesting ≤ n := by
  induction items with
  | nil => simp [itemsNesting]
  | cons v items ih => rw [itemsNesting, Nat.max_le, ih, List.forall_mem_cons]

/-- The values of an object are nested no more deeply than each of them may be. -/
lemma entriesNesting_le_iff {entries : List (String × Json)} {n : Nat} :
    entriesNesting entries ≤ n ↔ ∀ e ∈ entries, e.2.nesting ≤ n := by
  induction entries with
  | nil => simp [entriesNesting]
  | cons e entries ih => rw [entriesNesting, Nat.max_le, ih, List.forall_mem_cons]

end Json

end QueryPayload
