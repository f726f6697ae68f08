import Mathlib.Tactic.Lemma
import QueryPayload.Proofs.Json.Cursor
import QueryPayload.Proofs.Json.Source
import QueryPayload.Proofs.Related

/-!
# The numbers of a text

Scanning a text, every number is read at its own place: no matter how deeply it is nested and what
stands around it, it is the numeral that the text has there.

## Main definitions

* `Json.Source.StandsIn` — all numbers in a value are numerals of a text at their places.
* `Json.Source.children` — the items of an array, the values of an object.

## Main results

* `Json.Source.standsIn_scan` — the numbers of a scanned text stand in it.
* `Json.Source.StandsIn.of_descend` — and so do those that are reached along a path.
-/

set_option relaxedAutoImplicit false
set_option autoImplicit false

namespace QueryPayload

namespace Json

/-- The numeral of a text at an offset ends at the other one. -/
def NumeralAt (text : List UInt8) (start stop : Nat) (n : Numeral) : Prop :=
  ∃ after, Numeral.scan ⟨start, text.drop start⟩ = .ok (n, ⟨stop, after⟩)

namespace Source

mutual

/-- All numbers in a value are numerals of the text at their places. -/
def StandsIn (text : List UInt8) : Source → Prop
  | .scalar start (.number v) stop => ∃ n, NumeralAt text start stop n ∧ v = n.value stop
  | .scalar _ (.word _) _ => True
  | .scalar _ (.text _) _ => True
  | .broken .. => True
  | .array _ _ items => itemsStandIn text items
  | .object _ _ entries => entriesStandIn text entries

/-- All numbers in the items of an array are numerals of the text at their places. -/
def itemsStandIn (text : List UInt8) : Items Source → Prop
  | .close _ => True
  | .stop _ _ => True
  | .item node _ rest => StandsIn text node ∧ itemsStandIn text rest

/-- All numbers in the values of an object are numerals of the text at their places. -/
def entriesStandIn (text : List UInt8) : Entries Source → Prop
  | .close _ => True
  | .stop _ _ => True
  | .brokenKey _ _ => True
  | .unpaired _ _ => True
  | .entry _ node _ rest => StandsIn text node ∧ entriesStandIn text rest

end

variable {text : List UInt8} {fuel level : Nat} {comma : Bool} {c : Cursor}

/-- What is scanned has a property, and the cursor behind it is one of the text. -/
structure Scanned {α : Type} (text : List UInt8) (p : α → Prop) (out : α × Option Cursor) :
    Prop where
  result : p out.1
  after : ∀ c, out.2 = some c → c.On text

/-- What is scanned has a property, and nothing is scanned behind it. -/
lemma Scanned.last {α : Type} {p : α → Prop} {a : α} (h : p a) : Scanned text p (a, none) :=
  ⟨h, nofun⟩

/-- What is scanned has a property, and scanning goes on at a cursor of the text. -/
lemma Scanned.more {α : Type} {p : α → Prop} {a : α} (h : p a) (hc : c.On text) :
    Scanned text p (a, some c) := by
  refine ⟨h, fun c' hc' => ?_⟩
  obtain rfl := Option.some.inj hc'
  exact hc

/-- A number that has been read stands in the text. -/
lemma numeralAt_of_scan {n : Numeral} {after : Cursor} (hc : c.On text)
    (h : Numeral.scan c = .ok (n, after)) : NumeralAt text c.offset after.offset n := by
  refine ⟨after.rest, ?_⟩
  rw [← hc]
  exact h

/-- A value without parts stands in the text. -/
lemma scanned_scanScalar (hc : c.On text) : Scanned text (StandsIn text) (scanScalar c) := by
  obtain ⟨offset, rest⟩ := c
  cases rest with
  | nil => exact .last True.intro
  | cons b rest =>
    simp only [scanScalar]
    split_ifs
    -- a string
    · cases hskip : Quoted.skip ⟨offset + 1, rest⟩ with
      | error fault => cases Quoted.scan ⟨offset + 1, rest⟩ <;> exact .last True.intro
      | ok after =>
        exact .more True.intro (hc.next.of_reaches (Quoted.reaches_of_skip hskip))
    -- a number
    · cases hscan : Numeral.scan ⟨offset, b :: rest⟩ with
      | error m => exact .last True.intro
      | ok out =>
        obtain ⟨n, after⟩ := out
        obtain ⟨-, behind, -, hpasses⟩ := Numeral.passes_of_scan hscan
        exact .more ⟨n, numeralAt_of_scan hc hscan, rfl⟩ (hc.of_reaches ⟨_, hpasses⟩)
    -- a word
    · cases Word.ofFirst? b with
      | none => exact .last True.intro
      | some w =>
        simp only
        cases hscan : w.scan ⟨offset, b :: rest⟩ with
        | error fault => exact .last True.intro
        | ok after =>
          exact .more True.intro (hc.of_reaches (Word.reaches_of_scan hscan))

/-- Scanning with a bound for the recursion finds every number at its place. -/
structure ScansUpTo (text : List UInt8) (fuel : Nat) : Prop where
  value : ∀ level c, c.On text → Scanned text (StandsIn text) (scanValue fuel level c)
  items : ∀ level comma c, c.On text →
    Scanned text (itemsStandIn text) (scanItems fuel level comma c)
  entries : ∀ level comma c, c.On text →
    Scanned text (entriesStandIn text) (scanEntries fuel level comma c)

/-- A value is scanned as its inside or as one without parts. -/
lemma ScansUpTo.value_succ (ih : ScansUpTo text fuel) (level : Nat) (hc : c.On text) :
    Scanned text (StandsIn text) (scanValue (fuel + 1) level c) := by
  rw [scanValue]
  have hblank := hc.of_reaches c.reaches_skipBlanks
  generalize c.skipBlanks = d at hblank
  obtain ⟨offset, rest⟩ := d
  cases rest with
  | nil => exact scanned_scanScalar hblank
  | cons b rest =>
    simp only
    split_ifs
    · have h := ih.items (level + 1) false _ hblank.next
      exact ⟨h.result, h.after⟩
    · have h := ih.entries (level + 1) false _ hblank.next
      exact ⟨h.result, h.after⟩
    · exact scanned_scanScalar hblank

/-- The items of an array are scanned one after the other. -/
lemma ScansUpTo.items_succ (ih : ScansUpTo text fuel) (level : Nat) (comma : Bool)
    (hc : c.On text) : Scanned text (itemsStandIn text) (scanItems (fuel + 1) level comma c) := by
  rw [scanItems]
  have hblank := hc.of_reaches c.reaches_skipBlanks
  generalize c.skipBlanks = d at hblank
  obtain ⟨offset, rest⟩ := d
  cases rest with
  | nil => exact .last True.intro
  | cons b rest =>
    simp only
    split_ifs
    · exact .last True.intro
    · exact .more True.intro hblank.next
    · have hnode := ih.value level _ hblank
      generalize scanValue fuel level ⟨offset, b :: rest⟩ = out at hnode ⊢
      obtain ⟨node, after⟩ := out
      cases after with
      | none => exact .last ⟨hnode.result, True.intro⟩
      | some after =>
        have hbehind := (hnode.after _ rfl).of_reaches after.reaches_skipBlanks
        simp only
        generalize after.skipBlanks = d at hbehind ⊢
        obtain ⟨offset, rest⟩ := d
        cases rest with
        | nil => exact .last ⟨hnode.result, True.intro⟩
        | cons b rest =>
          simp only
          split_ifs
          · have h := ih.items level true _ hbehind.next
            exact ⟨⟨hnode.result, h.result⟩, h.after⟩
          · exact .more ⟨hnode.result, True.intro⟩ hbehind.next
          · exact .last ⟨hnode.result, True.intro⟩

/-- The entries of an object are scanned one after the other. -/
lemma ScansUpTo.entries_succ (ih : ScansUpTo text fuel) (level : Nat) (comma : Bool)
    (hc : c.On text) :
    Scanned text (entriesStandIn text) (scanEntries (fuel + 1) level comma c) := by
  rw [scanEntries]
  have hblank := hc.of_reaches c.reaches_skipBlanks
  generalize c.skipBlanks = d at hblank
  obtain ⟨offset, rest⟩ := d
  cases rest with
  | nil => exact .last True.intro
  | cons b rest =>
    simp only
    split_ifs
    · exact .last True.intro
    · exact .more True.intro hblank.next
    · cases hkey : Quoted.skip ⟨offset + 1, rest⟩ with
      | error fault => cases Quoted.scan ⟨offset + 1, rest⟩ <;> exact .last True.intro
      | ok afterKey =>
        simp only
        have hcolon := (hblank.next.of_reaches (Quoted.reaches_of_skip hkey)).of_reaches
          afterKey.reaches_skipBlanks
        generalize afterKey.skipBlanks = d at hcolon ⊢
        obtain ⟨offset', rest'⟩ := d
        cases rest' with
        | nil => exact .last True.intro
        | cons b rest' =>
          simp only
          split_ifs
          · have hnode := ih.value level _ hcolon.next
            generalize scanValue fuel level ⟨offset' + 1, rest'⟩ = out at hnode ⊢
            obtain ⟨node, after⟩ := out
            cases after with
            | none => exact .last ⟨hnode.result, True.intro⟩
            | some after =>
              have hbehind := (hnode.after _ rfl).of_reaches after.reaches_skipBlanks
              simp only
              generalize after.skipBlanks = d at hbehind ⊢
              obtain ⟨offset, rest⟩ := d
              cases rest with
              | nil => exact .last ⟨hnode.result, True.intro⟩
              | cons b rest =>
                simp only
                split_ifs
                · have h := ih.entries level true _ hbehind.next
                  exact ⟨⟨hnode.result, h.result⟩, h.after⟩
                · exact .more ⟨hnode.result, True.intro⟩ hbehind.next
                · exact .last ⟨hnode.result, True.intro⟩
          · exact .last True.intro
    · exact .last True.intro

/-- **Every number is scanned at its place**, in values, arrays and objects.

**Proof sketch.** Induction on the bound for the recursion.  All cursors on the way are cursors of
the text, since scanning only takes bytes off its front. -/
theorem scansUpTo (text : List UInt8) (fuel : Nat) : ScansUpTo text fuel := by
  induction fuel with
  | zero =>
    constructor
    case value => exact fun _ _ _ => .last True.intro
    case items => exact fun _ _ _ _ => .last True.intro
    case entries => exact fun _ _ _ _ => .last True.intro
  | succ fuel ih =>
    constructor
    case value => exact fun level _ hc => ih.value_succ level hc
    case items => exact fun level comma _ hc => ih.items_succ level comma hc
    case entries => exact fun level comma _ hc => ih.entries_succ level comma hc

/-- The numbers of a scanned text stand in it. -/
theorem standsIn_scan (text : List UInt8) : (scan text).1.StandsIn text :=
  ((scansUpTo text (fuelFor text.length)).value 0 _ (Cursor.on_start text)).result

/-! ## Numbers at a path -/

/-- The items of an array, the values of an object. -/
def children : Source → List Source
  | .array _ _ items => items.toList
  | .object _ _ entries => entries.toList.map (·.2)
  | _ => []

/-- The items of an array stand in the text. -/
lemma standsIn_of_mem_items {items : Items Source} (h : itemsStandIn text items) :
    ∀ node ∈ items.toList, node.StandsIn text := by
  induction items with
  | close _ => exact fun _ hmem => absurd hmem List.not_mem_nil
  | stop _ _ => exact fun _ hmem => absurd hmem List.not_mem_nil
  | item node left rest ih => exact List.forall_mem_cons.2 ⟨h.1, ih h.2⟩

/-- The values of an object stand in the text. -/
lemma standsIn_of_mem_entries {entries : Entries Source} (h : entriesStandIn text entries) :
    ∀ e ∈ entries.toList, e.2.StandsIn text := by
  induction entries with
  | close _ => exact fun _ hmem => absurd hmem List.not_mem_nil
  | stop _ _ => exact fun _ hmem => absurd hmem List.not_mem_nil
  | brokenKey _ _ => exact fun _ hmem => absurd hmem List.not_mem_nil
  | unpaired _ _ => exact fun _ hmem => absurd hmem List.not_mem_nil
  | entry key node left rest ih =>
    rw [Entries.toList]
    cases key.text with
    | ok k => exact List.forall_mem_cons.2 ⟨h.1, ih h.2⟩
    | error fault => exact ih h.2

/-- The children of a value that stands in a text do. -/
lemma StandsIn.of_mem_children {v : Source} (h : v.StandsIn text) :
    ∀ node ∈ v.children, node.StandsIn text := by
  cases v with
  | array start level items => exact standsIn_of_mem_items h
  | object start level entries =>
    exact List.forall_mem_map.2 fun e he => standsIn_of_mem_entries h e he
  | _ => exact fun _ hmem => absurd hmem List.not_mem_nil

/-- What is reached from a value that stands in a text does. -/
lemma StandsIn.of_descend {v node : Source} (h : v.StandsIn text) {path : List Nat}
    (hnode : descend children path v = some node) : node.StandsIn text := by
  induction path generalizing v with
  | nil =>
    obtain rfl := Option.some.inj hnode
    exact h
  | cons i path ih =>
    obtain ⟨child, hchild, hrest⟩ := Option.bind_eq_some_iff.1 hnode
    exact ih (h.of_mem_children child (List.mem_of_getElem? hchild)) hrest

end Source

end Json

end QueryPayload
