import Mathlib.Tactic.Lemma
import QueryPayload.Json.Source

/-!
# The parts of a source tree

The inside of an array or object ends with a bracket or with the reason why there is none, and a key
may be one that nobody can read.  Where neither is the case, the inside is just a list.

## Main definitions

* `Json.Items.toList`, `Json.Entries.toList` — the items of an array, the entries of an object.
* `Json.Items.Closed`, `Json.Entries.Closed` — the inside ends with its bracket, and all keys have
  a text.
* `Json.Source.distinctKeys` — no object repeats a key.

## Main results

* `Json.Source.induction` — induction on source trees, with a hypothesis for every part.
* `Json.Source.skipItemsFault?_eq_none`, `skipEntriesFault?_eq_none` — what can be passed over.
* `Json.Source.itemsDistinctKeys_iff`, `entriesDistinctKeys_iff` — repeated keys, part by part.
-/

set_option relaxedAutoImplicit false
set_option autoImplicit false

namespace QueryPayload

namespace Json

variable {α β : Type}

/-! ## Insides as lists -/

namespace Items

/-- The items of an array. -/
def toList : Items α → List α
  | .close _ => []
  | .stop _ _ => []
  | .item node _ rest => node :: rest.toList

/-- The inside of an array ends with its bracket. -/
def Closed : Items α → Prop
  | .close _ => True
  | .stop _ _ => False
  | .item _ _ rest => rest.Closed

/-- The inside of an array with a function applied to each item. -/
def map (f : α → β) : Items α → Items β
  | .close offset => .close offset
  | .stop why offset => .stop why offset
  | .item node left rest => .item (f node) left (rest.map f)

/-- The items after a function has been applied to each. -/
@[simp] lemma toList_map (f : α → β) (items : Items α) :
    (items.map f).toList = items.toList.map f := by
  induction items with
  | close _ => rfl
  | stop _ _ => rfl
  | item node left rest ih => rw [map, toList, toList, List.map_cons, ih]

/-- Applying a function to each item does not change where the inside ends. -/
@[simp] lemma closed_map (f : α → β) (items : Items α) : (items.map f).Closed ↔ items.Closed := by
  induction items with
  | close _ => rfl
  | stop _ _ => rfl
  | item node left rest ih => exact ih

end Items

namespace Entries

/-- The entries of an object whose keys have a text. -/
def toList : Entries α → List (String × α)
  | .close _ => []
  | .stop _ _ => []
  | .brokenKey _ _ => []
  | .unpaired _ _ => []
  | .entry key node _ rest =>
    match key.text with
    | .ok k => (k, node) :: rest.toList
    | .error _ => rest.toList

/-- The keys of an object. -/
def keys (entries : Entries α) : List String := entries.toList.map (·.1)

/-- The inside of an object ends with its brace, and all its keys have a text. -/
def Closed : Entries α → Prop
  | .close _ => True
  | .stop _ _ => False
  | .brokenKey _ _ => False
  | .unpaired _ _ => False
  | .entry key _ _ rest => (∃ k, key.text = .ok k) ∧ rest.Closed

/-- The inside of an object with a function applied to each value. -/
def map (f : α → β) : Entries α → Entries β
  | .close offset => .close offset
  | .stop why offset => .stop why offset
  | .brokenKey fault skipFault => .brokenKey fault skipFault
  | .unpaired key fault => .unpaired key fault
  | .entry key node left rest => .entry key (f node) left (rest.map f)

/-- The entries after a function has been applied to each value. -/
@[simp] lemma toList_map (f : α → β) (entries : Entries α) :
    (entries.map f).toList = entries.toList.map fun e => (e.1, f e.2) := by
  induction entries with
  | close _ => rfl
  | stop _ _ => rfl
  | brokenKey _ _ => rfl
  | unpaired _ _ => rfl
  | entry key node left rest ih =>
    rw [map, toList, toList]
    cases key.text with
    | ok k => exact congrArg _ ih
    | error fault => exact ih

/-- Applying a function to each value does not change where the inside ends. -/
@[simp] lemma closed_map (f : α → β) (entries : Entries α) :
    (entries.map f).Closed ↔ entries.Closed := by
  induction entries with
  | close _ => rfl
  | stop _ _ => rfl
  | brokenKey _ _ => rfl
  | unpaired _ _ => rfl
  | entry key node left rest ih => exact and_congr_right fun _ => ih

end Entries

/-! ## Induction on source trees -/

namespace Source

/-- **Induction on source trees**: an array has the hypothesis for each item, and an object for the
value of each entry. -/
@[elab_as_elim]
theorem induction {motive : Source → Prop}
    (scalar : ∀ start value stop, motive (.scalar start value stop))
    (broken : ∀ start beginning fault skipFault, motive (.broken start beginning fault skipFault))
    (array : ∀ start level items, (∀ node ∈ items.toList, motive node) →
      motive (.array start level items))
    (object : ∀ start level entries, (∀ e ∈ entries.toList, motive e.2) →
      motive (.object start level entries)) (v : Source) : motive v := by
  refine @Source.rec motive (fun items => ∀ node ∈ items.toList, motive node)
    (fun entries => ∀ e ∈ entries.toList, motive e.2) scalar broken array object
    ?_ ?_ ?_ ?_ ?_ ?_ ?_ ?_ v
  -- the inside of an array
  · exact fun _ _ h => absurd h List.not_mem_nil
  · exact fun _ _ _ h => absurd h List.not_mem_nil
  · exact fun _ _ _ hnode hrest => List.forall_mem_cons.2 ⟨hnode, hrest⟩
  -- the inside of an object
  · exact fun _ _ h => absurd h List.not_mem_nil
  · exact fun _ _ _ h => absurd h List.not_mem_nil
  · exact fun _ _ _ h => absurd h List.not_mem_nil
  · exact fun _ _ _ h => absurd h List.not_mem_nil
  · intro key node left rest hnode hrest
    rw [Entries.toList]
    cases key.text with
    | ok k => exact List.forall_mem_cons.2 ⟨hnode, hrest⟩
    | error fault => exact hrest

/-! ## Passing over values -/

/-- The inside of an array can be passed over if the first item and the others can. -/
lemma skipItemsFault?_item_eq_none_iff {node : Source} {left : Mark} {rest : Items Source} :
    skipItemsFault? (.item node left rest) = none ↔
      node.skipFault? = none ∧ skipItemsFault? rest = none := by
  rw [skipItemsFault?]
  cases node.skipFault? <;> simp

/-- The inside of an array can be passed over if each item can. -/
lemma skipItemsFault?_eq_none {items : Items Source} (hc : items.Closed)
    (h : ∀ node ∈ items.toList, node.skipFault? = none) : skipItemsFault? items = none := by
  induction items with
  | close _ => rfl
  | stop _ _ => exact hc.elim
  | item node left rest ih =>
    obtain ⟨hnode, hrest⟩ := List.forall_mem_cons.1 h
    exact skipItemsFault?_item_eq_none_iff.2 ⟨hnode, ih hc hrest⟩

/-- The inside of an object can be passed over if the first value and the others can. -/
lemma skipEntriesFault?_entry_eq_none_iff {key : Key} {node : Source} {left : Mark}
    {rest : Entries Source} :
    skipEntriesFault? (.entry key node left rest) = none ↔
      node.skipFault? = none ∧ skipEntriesFault? rest = none := by
  rw [skipEntriesFault?]
  cases node.skipFault? <;> simp

/-- The inside of an object can be passed over if the value of each entry can. -/
lemma skipEntriesFault?_eq_none {entries : Entries Source} (hc : entries.Closed)
    (h : ∀ e ∈ entries.toList, e.2.skipFault? = none) : skipEntriesFault? entries = none := by
  induction entries with
  | close _ => rfl
  | stop _ _ => exact hc.elim
  | brokenKey _ _ => exact hc.elim
  | unpaired _ _ => exact hc.elim
  | entry key node left rest ih =>
    obtain ⟨⟨k, hk⟩, hc⟩ := hc
    rw [Entries.toList, hk] at h
    obtain ⟨hnode, hrest⟩ := List.forall_mem_cons.1 h
    exact skipEntriesFault?_entry_eq_none_iff.2 ⟨hnode, ih hc hrest⟩

/-! ## Repeated keys -/

mutual

/-- Whether no object in a value repeats a key. -/
def distinctKeys : Source → Bool
  | .scalar .. => true
  | .broken .. => true
  | .array _ _ items => itemsDistinctKeys items
  | .object _ _ entries => decide entries.keys.Nodup && entriesDistinctKeys entries

/-- Whether no object in the items of an array repeats a key. -/
def itemsDistinctKeys : Items Source → Bool
  | .close _ => true
  | .stop _ _ => true
  | .item node _ rest => distinctKeys node && itemsDistinctKeys rest

/-- Whether no object in the values of an object repeats a key. -/
def entriesDistinctKeys : Entries Source → Bool
  | .close _ => true
  | .stop _ _ => true
  | .brokenKey _ _ => true
  | .unpaired _ _ => true
  | .entry _ node _ rest => distinctKeys node && entriesDistinctKeys rest

end

/-- The items of an array repeat no key if none of them does. -/
lemma itemsDistinctKeys_iff {items : Items Source} :
    itemsDistinctKeys items = true ↔ ∀ node ∈ items.toList, node.distinctKeys = true := by
  induction items with
  | close _ => simp [itemsDistinctKeys, Items.toList]
  | stop _ _ => simp [itemsDistinctKeys, Items.toList]
  | item node left rest ih => simp [itemsDistinctKeys, Items.toList, ih]

/-- The values of an object repeat no key if none of them does. -/
lemma entriesDistinctKeys_iff {entries : Entries Source} (hc : entries.Closed) :
    entriesDistinctKeys entries = true ↔ ∀ e ∈ entries.toList, e.2.distinctKeys = true := by
  induction entries with
  | close _ => simp [entriesDistinctKeys, Entries.toList]
  | stop _ _ => exact hc.elim
  | brokenKey _ _ => exact hc.elim
  | unpaired _ _ => exact hc.elim
  | entry key node left rest ih =>
    obtain ⟨⟨k, hk⟩, hc⟩ := hc
    rw [Entries.toList, hk]
    simp [entriesDistinctKeys, ih hc]

end Source

end Json

end QueryPayload
