import Mathlib.Tactic.Lemma
import Mathlib.Tactic.SplitIfs
import QueryPayload.Proofs.Json.Extend
import QueryPayload.Proofs.Json.Numbers

/-!
# Values in texts that go on

A text whose value is an array or an object has the same value if the text goes on: what follows
can never become a part of it.  A number at the end of a text, on the other hand, may go on.

## Main definitions

* `Json.Source.Delimited` — a value does not go on with what follows it.
* `Json.Source.Persists` — what is scanned is the same in a text that goes on.

## Main results

* `Json.Source.persistsUpTo` — everything that is scanned persists, part by part.
* `Json.Source.scan_append` — a text that goes on has the same value, and what is wrong behind it
  does not depend on the text.

## Implementation notes

The bound for the recursion grows with the text.  It is therefore part of what is shown that a
larger bound makes no difference.

A value that is cut off by the end of the text would go on.  But nobody can pass over it, and this
is all that is said about it here.
-/

set_option relaxedAutoImplicit false
set_option autoImplicit false

namespace QueryPayload

namespace Json

namespace Source

/-- A value ends at the cursor, whatever comes later: only a number could go on, and does not if
something follows it. -/
def Delimited (after : Cursor) : Source → Prop
  | .scalar _ (.number _) _ => after.rest ≠ []
  | _ => True

/-- What is scanned in a text that goes on.  If nothing can be scanned behind it, then it cannot be
passed over.  Otherwise it is the same as before and ends at the same place. -/
def Persists {α : Type} (fault? : α → Option Fault) (more : List UInt8) :
    α × Option Cursor → α × Option Cursor → Prop
  | (x, none), _ => fault? x ≠ none
  | (x, some after), longer => longer = (x, some (after.extend more))

/-- What is made of something that persists does so as well, if it can be passed over no more
easily, and is made of it in the same way. -/
lemma Persists.map {α β : Type} {fault? : α → Option Fault} {more : List UInt8}
    {out longer : α × Option Cursor} (h : Persists fault? more out longer)
    {faultOf? : β → Option Fault} {f f' : α → β}
    (hfault : ∀ x, fault? x ≠ none → faultOf? (f x) ≠ none)
    (hsame : ∀ x after, out = (x, some after) → f' x = f x) :
    Persists faultOf? more (f out.1, out.2) (f' longer.1, longer.2) := by
  obtain ⟨x, _ | after⟩ := out
  · exact hfault x h
  · rw [show longer = (x, some (after.extend more)) from h]
    exact Prod.ext (hsame x after rfl) rfl

variable {fuel level : Nat} {comma : Bool} {c : Cursor} {more : List UInt8}

/-- A value without parts persists in a text that goes on. -/
lemma persists_scanScalar
    (h : ∀ after, (scanScalar c).2 = some after → (scanScalar c).1.Delimited after) :
    Persists skipFault? more (scanScalar c) (scanScalar (c.extend more)) := by
  obtain ⟨offset, rest⟩ := c
  cases rest with
  | nil => exact Option.some_ne_none _
  | cons b rest =>
    simp only [scanScalar, Cursor.extend, List.cons_append] at h ⊢
    split_ifs at h ⊢
    -- a string
    · cases hskip : Quoted.skip ⟨offset + 1, rest⟩ with
      | error fault => cases Quoted.scan ⟨offset + 1, rest⟩ <;> exact Option.some_ne_none _
      | ok after =>
        obtain ⟨hskip', hscan⟩ := Quoted.scan_extend more hskip
        rw [Cursor.extend] at hskip' hscan
        simp only [hskip', hscan]
        rfl
    -- a number
    · cases hscan : Numeral.scan ⟨offset, b :: rest⟩ with
      | error m => exact Option.some_ne_none _
      | ok out =>
        obtain ⟨n, after⟩ := out
        have hrest : after.rest ≠ [] := by
          rw [hscan] at h
          exact h after rfl
        have hlonger := Numeral.scan_extend more hscan hrest
        rw [Cursor.extend, List.cons_append] at hlonger
        simp only [hlonger]
        rfl
    -- a word
    · cases Word.ofFirst? b with
      | none => exact Option.some_ne_none _
      | some w =>
        simp only
        cases hscan : w.scan ⟨offset, b :: rest⟩ with
        | error fault => exact Option.some_ne_none _
        | ok after =>
          have hlonger := Word.scan_extend more hscan
          rw [Cursor.extend, List.cons_append] at hlonger
          simp only [hlonger]
          rfl

/-- A value that something follows is delimited. -/
lemma delimited_of_ne_nil {v : Source} {after : Cursor} (h : after.rest ≠ []) :
    v.Delimited after := by
  fun_cases Delimited after v with
  | case1 => exact h
  | case2 => exact True.intro

/-- A value that is no number is delimited. -/
lemma delimited_of_ne_number {v : Source} {after : Cursor}
    (h : ∀ start n stop, v ≠ .scalar start (.number n) stop) : v.Delimited after := by
  fun_cases Delimited after v with
  | case1 start n stop => exact absurd rfl (h start n stop)
  | case2 => exact True.intro

/-- Scanning with a bound for the recursion, everything persists in a text that goes on, whatever
the larger bound is there. -/
structure PersistsUpTo (more : List UInt8) (fuel : Nat) : Prop where
  value : ∀ fuel' level c, fuel ≤ fuel' →
    (∀ after, (scanValue fuel level c).2 = some after →
      (scanValue fuel level c).1.Delimited after) →
    Persists skipFault? more (scanValue fuel level c) (scanValue fuel' level (c.extend more))
  items : ∀ fuel' level comma c, fuel ≤ fuel' →
    Persists skipItemsFault? more (scanItems fuel level comma c)
      (scanItems fuel' level comma (c.extend more))
  entries : ∀ fuel' level comma c, fuel ≤ fuel' →
    Persists skipEntriesFault? more (scanEntries fuel level comma c)
      (scanEntries fuel' level comma (c.extend more))

/-- A value persists as its inside does, or as one without parts. -/
lemma PersistsUpTo.value_succ (ih : PersistsUpTo more fuel) {fuel' : Nat} (level : Nat)
    (c : Cursor) (hle : fuel ≤ fuel')
    (h : ∀ after, (scanValue (fuel + 1) level c).2 = some after →
      (scanValue (fuel + 1) level c).1.Delimited after) :
    Persists skipFault? more (scanValue (fuel + 1) level c)
      (scanValue (fuel' + 1) level (c.extend more)) := by
  rw [scanValue] at h ⊢
  rw [scanValue]
  cases hblanks : c.skipBlanks with
  | mk offset rest =>
    rw [hblanks] at h
    cases rest with
    | nil => exact Option.some_ne_none _
    | cons b rest =>
      rw [Cursor.skipBlanks_extend more (by simp [hblanks]), hblanks]
      simp only [Cursor.extend, List.cons_append] at h ⊢
      split_ifs at h ⊢
      · exact (ih.items fuel' (level + 1) false ⟨offset + 1, rest⟩ hle).map (fun _ => id)
          fun _ _ _ => rfl
      · exact (ih.entries fuel' (level + 1) false ⟨offset + 1, rest⟩ hle).map (fun _ => id)
          fun _ _ _ => rfl
      · exact persists_scanScalar h

/-- Something is behind the cursor where items can be scanned. -/
lemma skipBlanks_ne_nil_of_scanItems {items : Items Source} {after : Cursor}
    (h : scanItems fuel level comma c = (items, some after)) : c.skipBlanks.rest ≠ [] := by
  intro hnil
  cases fuel with
  | zero => cases h
  | succ fuel =>
    rw [scanItems] at h
    simp only [hnil] at h
    cases h

/-- A value that is not followed through cannot be passed over. -/
lemma PersistsUpTo.value_broken (ih : PersistsUpTo more fuel) {node : Source}
    (hscan : scanValue fuel level c = (node, none)) : node.skipFault? ≠ none := by
  have h := ih.value fuel level c (Nat.le_refl fuel)
  rw [hscan] at h
  exact h fun _ hnone => absurd hnone.symm (Option.some_ne_none _)

/-- A value that something follows is found again. -/
lemma PersistsUpTo.value_found (ih : PersistsUpTo more fuel) {fuel' : Nat} (hle : fuel ≤ fuel')
    {node : Source} {after : Cursor} (hscan : scanValue fuel level c = (node, some after))
    (hrest : after.skipBlanks.rest ≠ []) :
    scanValue fuel' level (c.extend more) = (node, some (after.extend more)) := by
  have h := ih.value fuel' level c hle
  rw [hscan] at h
  refine h fun c hc => delimited_of_ne_nil ?_
  rw [← Option.some.inj hc]
  exact after.rest_ne_nil_of_skipBlanks hrest

/-- The items of an array persist if each of them does. -/
lemma PersistsUpTo.items_succ (ih : PersistsUpTo more fuel) {fuel' : Nat} (level : Nat)
    (comma : Bool) (c : Cursor) (hle : fuel ≤ fuel') :
    Persists skipItemsFault? more (scanItems (fuel + 1) level comma c)
      (scanItems (fuel' + 1) level comma (c.extend more)) := by
  have hstop : ∀ {node left why offset},
      skipItemsFault? (.item node left (.stop why offset)) ≠ none := fun hnone =>
    Option.some_ne_none _ (skipItemsFault?_item_eq_none_iff.1 hnone).2
  rw [scanItems, scanItems]
  rcases hblanks : c.skipBlanks with ⟨offset, _ | ⟨b, rest⟩⟩
  · exact Option.some_ne_none _
  rw [Cursor.skipBlanks_extend more (by simp [hblanks]), hblanks]
  simp only [Cursor.extend, List.cons_append]
  split_ifs
  · exact Option.some_ne_none _
  · rfl
  rcases hscan : scanValue fuel level ⟨offset, b :: rest⟩ with ⟨node, _ | after⟩
  · exact fun hnone => ih.value_broken hscan (skipItemsFault?_item_eq_none_iff.1 hnone).1
  simp only
  rcases hbehind : after.skipBlanks with ⟨offset', _ | ⟨b', rest'⟩⟩
  · exact hstop
  have hrest : after.skipBlanks.rest ≠ [] := by simp [hbehind]
  have hlonger := ih.value_found hle hscan hrest
  rw [Cursor.extend, List.cons_append] at hlonger
  simp only [hlonger, Cursor.skipBlanks_extend more hrest, hbehind]
  simp only [Cursor.extend, List.cons_append]
  split_ifs with hcomma
  · subst hcomma
    refine (ih.items fuel' level true ⟨offset' + 1, rest'⟩ hle).map ?_ ?_
    · exact fun _ h hnone => h (skipItemsFault?_item_eq_none_iff.1 hnone).2
    · intro items last hitems
      have hleft : (after.extend more).leaveItem = after.leaveItem := by
        refine Cursor.leaveItem_extend more hrest fun o rest heq => ?_
        cases hbehind.symm.trans heq
        exact skipBlanks_ne_nil_of_scanItems hitems
      exact congrArg (Items.item node · items) hleft
  · have hleft : (after.extend more).leaveItem = after.leaveItem := by
      refine Cursor.leaveItem_extend more hrest fun o rest heq => ?_
      cases hbehind.symm.trans heq
      exact absurd rfl hcomma
    exact congrArg (fun left => (Items.item node left _, _)) hleft
  · exact hstop

/-- The entries of an object persist if the value of each does. -/
lemma PersistsUpTo.entries_succ (ih : PersistsUpTo more fuel) {fuel' : Nat} (level : Nat)
    (comma : Bool) (c : Cursor) (hle : fuel ≤ fuel') :
    Persists skipEntriesFault? more (scanEntries (fuel + 1) level comma c)
      (scanEntries (fuel' + 1) level comma (c.extend more)) := by
  have hstop : ∀ {key node left why offset},
      skipEntriesFault? (.entry key node left (.stop why offset)) ≠ none := fun hnone =>
    Option.some_ne_none _ (skipEntriesFault?_entry_eq_none_iff.1 hnone).2
  rw [scanEntries, scanEntries]
  rcases hblanks : c.skipBlanks with ⟨offset, _ | ⟨b, rest⟩⟩
  · exact Option.some_ne_none _
  rw [Cursor.skipBlanks_extend more (by simp [hblanks]), hblanks]
  simp only [Cursor.extend, List.cons_append]
  split_ifs
  · exact Option.some_ne_none _
  · rfl
  · -- the key
    rcases hkey : Quoted.skip ⟨offset + 1, rest⟩ with fault | afterKey
    · cases Quoted.scan ⟨offset + 1, rest⟩ <;> exact Option.some_ne_none _
    obtain ⟨hkey', htext⟩ := Quoted.scan_extend more hkey
    rw [Cursor.extend] at hkey' htext
    simp only [hkey', htext]
    -- the colon
    rcases hcolon : afterKey.skipBlanks with ⟨offset, _ | ⟨b, rest⟩⟩
    · exact Option.some_ne_none _
    have hrestKey : afterKey.skipBlanks.rest ≠ [] := by simp [hcolon]
    simp only [Cursor.skipBlanks_extend more hrestKey, Cursor.leave_extend more _ hrestKey, hcolon]
    simp only [Cursor.extend, List.cons_append]
    split_ifs
    · -- the value
      rcases hscan : scanValue fuel level ⟨offset + 1, rest⟩ with ⟨node, _ | after⟩
      · exact fun hnone => ih.value_broken hscan (skipEntriesFault?_entry_eq_none_iff.1 hnone).1
      simp only
      -- the comma, or the brace
      rcases hbehind : after.skipBlanks with ⟨offset', _ | ⟨b', rest'⟩⟩
      · exact hstop
      have hrest : after.skipBlanks.rest ≠ [] := by simp [hbehind]
      have hlonger := ih.value_found hle hscan hrest
      rw [Cursor.extend] at hlonger
      simp only [hlonger, Cursor.skipBlanks_extend more hrest, Cursor.leave_extend more _ hrest,
        hbehind]
      simp only [Cursor.extend, List.cons_append]
      split_ifs
      · exact (ih.entries fuel' level true ⟨offset' + 1, rest'⟩ hle).map
          (fun _ h hnone => h (skipEntriesFault?_entry_eq_none_iff.1 hnone).2) fun _ _ _ => rfl
      · rfl
      · exact hstop
    · exact Option.some_ne_none _
  · exact Option.some_ne_none _

/-- **Everything that is scanned persists** in a text that goes on.

**Proof sketch.** Induction on the bound for the recursion.  Behind every part of an array or object
there is a byte at least: a comma, or the bracket. -/
theorem persistsUpTo (more : List UInt8) (fuel : Nat) : PersistsUpTo more fuel := by
  induction fuel with
  | zero =>
    constructor
    case value => exact fun _ _ _ _ _ => Option.some_ne_none _
    case items => exact fun _ _ _ _ _ => Option.some_ne_none _
    case entries => exact fun _ _ _ _ _ => Option.some_ne_none _
  | succ fuel ih =>
    have hsucc : ∀ {fuel'}, fuel + 1 ≤ fuel' → ∃ n, fuel ≤ n ∧ fuel' = n + 1 := fun {fuel'} hle =>
      ⟨fuel' - 1, by omega, by omega⟩
    constructor
    case value =>
      intro fuel' level c hle
      obtain ⟨n, hn, rfl⟩ := hsucc hle
      exact ih.value_succ level c hn
    case items =>
      intro fuel' level comma c hle
      obtain ⟨n, hn, rfl⟩ := hsucc hle
      exact ih.items_succ level comma c hn
    case entries =>
      intro fuel' level comma c hle
      obtain ⟨n, hn, rfl⟩ := hsucc hle
      exact ih.entries_succ level comma c hn

/-- **A text that goes on has the same value**, unless that is a number or cannot be passed over.
What is wrong behind the value is what is wrong with the bytes added.

**Proof sketch.** The value persists (`persistsUpTo`), and it ends where it ended.  From there to
the end of the shorter text there are blanks only. -/
theorem scan_append {text : List UInt8} (more : List UInt8)
    (hskip : (scan text).1.skipFault? = none)
    (hnumber : ∀ start n stop, (scan text).1 ≠ .scalar start (.number n) stop)
    (htrailing : (scan text).2 = none) :
    scan (text ++ more) = ((scan text).1, trailing? ⟨text.length, more⟩) := by
  have hle : ∀ more, fuelFor text.length ≤ fuelFor (text ++ more).length := fun more => by
    rw [fuelFor, fuelFor, List.length_append]
    omega
  have hpersists := fun more => (persistsUpTo more (fuelFor text.length)).value _ 0 (.start text)
    (hle more)
  have hon := fun more => ((scansUpTo (text ++ more) (fuelFor (text ++ more).length)).value 0 _
    (Cursor.on_start (text ++ more))).after
  simp only [scan] at hskip hnumber htrailing ⊢
  generalize scanValue (fuelFor text.length) 0 (.start text) = out at *
  obtain ⟨v, _ | after⟩ := out
  · exact absurd hskip (hpersists more fun _ h => absurd h.symm (Option.some_ne_none _))
  · have hlonger : ∀ more, scanValue (fuelFor (text ++ more).length) 0 (.start (text ++ more)) =
        (v, some (after.extend more)) := fun more => hpersists more fun _ _ =>
      delimited_of_ne_number hnumber
    have hend : after.offset + after.rest.length = text.length :=
      Cursor.offset_add_length fun more => hon more _ (congrArg Prod.snd (hlonger more))
    have hblank : after.skipBlanks.rest = [] := by
      simpa [trailing?] using htrailing
    rw [hlonger more]
    simp only [Option.bind_some, trailing?, Cursor.skipBlanks_extend_of_eq_nil more hblank, hend]

/-- What is wrong with the bytes behind a value: there may be blanks only. -/
lemma trailing?_eq (offset : Nat) (more : List UInt8) :
    trailing? ⟨offset, more⟩ =
      if more.all Byte.isBlank then none
      else
        some ⟨.trailingCharacters, .blaming (offset + (more.takeWhile Byte.isBlank).length)⟩ := by
  simp only [trailing?, Cursor.skipBlanks, List.isEmpty_iff, List.dropWhile_eq_nil_iff,
    List.all_eq_true]

end Source

end Json

end QueryPayload
