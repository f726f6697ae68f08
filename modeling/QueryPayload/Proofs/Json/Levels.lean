import Mathlib.Tactic.Lemma
import Mathlib.Tactic.SplitIfs
import QueryPayload.Proofs.Json.Tree
import QueryPayload.Proofs.Schema.SourceTree

/-!
# Brackets are counted

Scanning a text, every bracket is given the number of those that are open with it.  A reader opens
only so many, so that the trees made of texts are nested no more deeply than that.

## Main definitions

* `Json.Source.Counts` — the brackets in a value are counted, from those around it on.

## Main results

* `Json.Source.counts_scan` — the brackets of a scanned text are counted.
* `Json.Source.Counts.nesting_le` — how deeply the tree of a value is nested.
-/

set_option relaxedAutoImplicit false
set_option autoImplicit false

namespace QueryPayload

namespace Json

namespace Source

mutual

/-- The brackets in a value are counted, where the given number is open around it. -/
def Counts (level : Nat) : Source → Prop
  | .scalar .. => True
  | .broken .. => True
  | .array _ l items => l = level + 1 ∧ itemsCount l items
  | .object _ l entries => l = level + 1 ∧ entriesCount l entries

/-- The brackets in the items of an array are counted. -/
def itemsCount (level : Nat) : Items Source → Prop
  | .close _ => True
  | .stop _ _ => True
  | .item node _ rest => Counts level node ∧ itemsCount level rest

/-- The brackets in the values of an object are counted. -/
def entriesCount (level : Nat) : Entries Source → Prop
  | .close _ => True
  | .stop _ _ => True
  | .brokenKey _ _ => True
  | .unpaired _ _ => True
  | .entry _ node _ rest => Counts level node ∧ entriesCount level rest

end

variable {level fuel : Nat}

/-- In a value without parts there are no brackets. -/
lemma counts_scanScalar (c : Cursor) : (scanScalar c).1.Counts level := by
  obtain ⟨offset, rest⟩ := c
  cases rest with
  | nil => exact True.intro
  | cons b rest =>
    simp only [scanScalar]
    split_ifs
    · cases Quoted.skip ⟨offset + 1, rest⟩ with
      | error fault => cases Quoted.scan ⟨offset + 1, rest⟩ <;> exact True.intro
      | ok after => exact True.intro
    · cases Numeral.scan ⟨offset, b :: rest⟩ <;> exact True.intro
    · cases Word.ofFirst? b with
      | none => exact True.intro
      | some w =>
        simp only
        cases w.scan ⟨offset, b :: rest⟩ <;> exact True.intro

/-- Scanning with a bound for the recursion counts the brackets. -/
structure CountsUpTo (fuel : Nat) : Prop where
  value : ∀ level c, (scanValue fuel level c).1.Counts level
  items : ∀ level comma c, itemsCount level (scanItems fuel level comma c).1
  entries : ∀ level comma c, entriesCount level (scanEntries fuel level comma c).1

/-- An opening bracket is given the next number. -/
lemma CountsUpTo.value_succ (ih : CountsUpTo fuel) (level : Nat) (c : Cursor) :
    (scanValue (fuel + 1) level c).1.Counts level := by
  rw [scanValue]
  generalize c.skipBlanks = d
  obtain ⟨offset, rest⟩ := d
  cases rest with
  | nil => exact counts_scanScalar _
  | cons b rest =>
    simp only
    split_ifs
    · exact ⟨rfl, ih.items (level + 1) false _⟩
    · exact ⟨rfl, ih.entries (level + 1) false _⟩
    · exact counts_scanScalar _

/-- The same brackets are open around all items of an array. -/
lemma CountsUpTo.items_succ (ih : CountsUpTo fuel) (level : Nat) (comma : Bool) (c : Cursor) :
    itemsCount level (scanItems (fuel + 1) level comma c).1 := by
  rw [scanItems]
  generalize c.skipBlanks = d
  obtain ⟨offset, rest⟩ := d
  cases rest with
  | nil => exact True.intro
  | cons b rest =>
    simp only
    split_ifs
    · exact True.intro
    · exact True.intro
    · have hnode := ih.value level ⟨offset, b :: rest⟩
      generalize scanValue fuel level ⟨offset, b :: rest⟩ = out at hnode ⊢
      obtain ⟨node, after⟩ := out
      cases after with
      | none => exact ⟨hnode, True.intro⟩
      | some after =>
        simp only
        generalize after.skipBlanks = d
        obtain ⟨offset, rest⟩ := d
        cases rest with
        | nil => exact ⟨hnode, True.intro⟩
        | cons b rest =>
          simp only
          split_ifs
          · exact ⟨hnode, ih.items level true _⟩
          · exact ⟨hnode, True.intro⟩
          · exact ⟨hnode, True.intro⟩

/-- The same brackets are open around all values of an object. -/
lemma CountsUpTo.entries_succ (ih : CountsUpTo fuel) (level : Nat) (comma : Bool) (c : Cursor) :
    entriesCount level (scanEntries (fuel + 1) level comma c).1 := by
  rw [scanEntries]
  generalize c.skipBlanks = d
  obtain ⟨offset, rest⟩ := d
  cases rest with
  | nil => exact True.intro
  | cons b rest =>
    simp only
    split_ifs
    · exact True.intro
    · exact True.intro
    · cases Quoted.skip ⟨offset + 1, rest⟩ with
      | error fault => cases Quoted.scan ⟨offset + 1, rest⟩ <;> exact True.intro
      | ok afterKey =>
        simp only
        generalize afterKey.skipBlanks = d
        obtain ⟨offset', rest'⟩ := d
        cases rest' with
        | nil => exact True.intro
        | cons b rest' =>
          simp only
          split_ifs
          · have hnode := ih.value level ⟨offset' + 1, rest'⟩
            generalize scanValue fuel level ⟨offset' + 1, rest'⟩ = out at hnode ⊢
            obtain ⟨node, after⟩ := out
            cases after with
            | none => exact ⟨hnode, True.intro⟩
            | some after =>
              simp only
              generalize after.skipBlanks = d
              obtain ⟨offset, rest⟩ := d
              cases rest with
              | nil => exact ⟨hnode, True.intro⟩
              | cons b rest =>
                simp only
                split_ifs
                · exact ⟨hnode, ih.entries level true _⟩
                · exact ⟨hnode, True.intro⟩
                · exact ⟨hnode, True.intro⟩
          · exact True.intro
    · exact True.intro

/-- **Scanning counts the brackets**, in values, arrays and objects.

**Proof sketch.** Induction on the bound for the recursion. -/
theorem countsUpTo (fuel : Nat) : CountsUpTo fuel := by
  induction fuel with
  | zero =>
    constructor
    case value => exact fun _ _ => True.intro
    case items => exact fun _ _ _ => True.intro
    case entries => exact fun _ _ _ => True.intro
  | succ fuel ih => exact ⟨ih.value_succ, ih.items_succ, ih.entries_succ⟩

/-- The brackets of a scanned text are counted. -/
theorem counts_scan (text : List UInt8) : (scan text).1.Counts 0 :=
  (countsUpTo (fuelFor text.length)).value 0 _

/-! ## Nesting -/

/-- The brackets in each item of an array are counted. -/
lemma counts_of_mem_items {items : Items Source} (h : itemsCount level items) :
    ∀ node ∈ items.toList, node.Counts level := by
  induction items with
  | close _ => exact fun _ hmem => absurd hmem List.not_mem_nil
  | stop _ _ => exact fun _ hmem => absurd hmem List.not_mem_nil
  | item node left rest ih => exact List.forall_mem_cons.2 ⟨h.1, ih h.2⟩

/-- The brackets in each value of an object are counted. -/
lemma counts_of_mem_entries {entries : Entries Source} (h : entriesCount level entries) :
    ∀ e ∈ entries.toList, e.2.Counts level := by
  induction entries with
  | close _ => exact fun _ hmem => absurd hmem List.not_mem_nil
  | stop _ _ => exact fun _ hmem => absurd hmem List.not_mem_nil
  | brokenKey _ _ => exact fun _ hmem => absurd hmem List.not_mem_nil
  | unpaired _ _ => exact fun _ hmem => absurd hmem List.not_mem_nil
  | entry key node left rest ih =>
    rw [Entries.toList]
    cases key.text with
    | ok k => exact List.forall_mem_cons.2 ⟨h.1, ih h.2⟩
    | error fault => exact ih h.2

/-- **A tree in which no key may be repeated is nested no more deeply** than the brackets allow that
are left.

**Proof sketch.** Induction on the source tree.  Where there is a tree, each bracket has been
opened, and it is one more than those around it. -/
theorem Counts.nesting_le {v : Source} {j : Json} (h : v.Counts level) (hlevel : level ≤ maxLevel)
    (hj : v.tree .refused = .ok j) : level + j.nesting ≤ maxLevel := by
  induction v using induction generalizing level j with
  | scalar start value stop =>
    rcases tree_scalar_eq_ok_iff.1 hj with
      ⟨-, rfl⟩ | ⟨b, -, rfl⟩ | ⟨n, -, rfl⟩ | ⟨t, -, rfl⟩ <;> exact hlevel
  | broken start beginning fault skipFault => simp [tree] at hj
  | array start l items ih =>
    obtain ⟨rfl, hitems⟩ := h
    obtain ⟨hopen, -, vs, hvs, rfl⟩ := tree_array_eq_ok_iff.1 hj
    have hle : itemsNesting vs ≤ maxLevel - (level + 1) := by
      refine itemsNesting_le_iff.2 fun v hv => ?_
      obtain ⟨node, hnode, htree⟩ := exists_rel_of_mem_right hvs hv
      have := ih node hnode (counts_of_mem_items hitems node hnode) hopen htree
      omega
    rw [nesting]
    omega
  | object start l entries ih =>
    obtain ⟨rfl, hentries⟩ := h
    obtain ⟨hopen, -, hkeys, es, hes, rfl⟩ := tree_object_eq_ok_iff.1 hj
    -- no entry replaces another one
    have hnodup : (es.map (·.1)).Nodup := keys_eq_of_entries hes ▸ hkeys rfl
    have hput : putAll [] es = es := putAll_of_nodup hnodup fun _ _ => List.not_mem_nil
    have hle : entriesNesting es ≤ maxLevel - (level + 1) := by
      refine entriesNesting_le_iff.2 fun p hp => ?_
      obtain ⟨e, he, -, htree⟩ := exists_rel_of_mem_right hes hp
      have := ih e he (counts_of_mem_entries hentries e he) hopen htree
      omega
    rw [hput, nesting]
    omega

end Source

end Json

end QueryPayload
