import Mathlib.Tactic.Lemma
import QueryPayload.ArgumentValue.Display
import QueryPayload.Proofs.Text.Split

/-!
# Texts on one line

A text stays on its line if it does not contain the character that ends lines.  Texts put together
from such texts are of this kind again, and so is every string that is quoted, whatever it contains.
Lines that are ended one after the other are found again by splitting.

## Main definitions

* `Text.OneLine` — a text does not contain the end of a line.
* `Text.ended` — lines, each with its end.

## Main results

* `Text.oneLine_quoted` — a quoted string is on one line.
* `Text.split_ended`, `Text.count_ended` — the lines that have been ended, and their number.
-/

set_option relaxedAutoImplicit false
set_option autoImplicit false

namespace QueryPayload

namespace Text

/-- A text does not contain the end of a line. -/
def OneLine (s : String) : Prop := '\n' ∉ s.toList

instance (s : String) : Decidable (OneLine s) :=
  inferInstanceAs (Decidable ('\n' ∉ s.toList))

variable {s t : String} {cs : List Char} {texts : List String}

/-! ## Putting texts together -/

/-- Two texts behind each other are on one line if both are. -/
lemma oneLine_append_iff : OneLine (s ++ t) ↔ OneLine s ∧ OneLine t := by
  rw [OneLine, String.toList_append, List.mem_append, not_or]
  rfl

/-- Two texts on one line stay there behind each other. -/
lemma OneLine.append (hs : OneLine s) (ht : OneLine t) : OneLine (s ++ t) :=
  oneLine_append_iff.2 ⟨hs, ht⟩

/-- A text of characters is on one line if none of them ends it. -/
lemma oneLine_ofList : OneLine (String.ofList cs) ↔ '\n' ∉ cs := by
  rw [OneLine, String.toList_ofList]

/-- Texts on one line stay there behind each other, with another one between them. -/
lemma oneLine_intercalate (hs : OneLine s) (h : ∀ t ∈ texts, OneLine t) :
    OneLine (s.intercalate texts) := by
  induction texts with
  | nil => exact (by decide : OneLine "")
  | cons t texts ih =>
    obtain ⟨ht, hrest⟩ := List.forall_mem_cons.1 h
    cases texts with
    | nil => rwa [String.intercalate_singleton]
    | cons u texts =>
      rw [String.intercalate_cons_cons]
      exact (ht.append hs).append (ih hrest)

/-! ## Quoted strings -/

/-- The end of a line is no digit, to whatever base. -/
lemma digitChar_ne (n : Nat) : n.digitChar ≠ '\n' := by
  fun_cases Nat.digitChar n <;> decide

/-- The digits of a number do not contain the end of a line. -/
lemma not_mem_toDigits {b : Nat} (hb : 1 < b) (n : Nat) : '\n' ∉ Nat.toDigits b n := by
  induction n using Nat.strongRecOn with
  | ind n ih =>
    rw [Nat.toDigits_eq_if hb]
    split
    · exact fun h => digitChar_ne n (List.mem_singleton.1 h).symm
    · rename_i hle
      have hlt : n / b < n := Nat.div_lt_self (by omega) hb
      rw [List.mem_append, not_or]
      exact ⟨ih _ hlt, fun h => digitChar_ne _ (List.mem_singleton.1 h).symm⟩

/-- A character within quotes does not end the line: the one that would is written by a letter. -/
lemma not_mem_quotedChar (c : Char) : '\n' ∉ quotedChar c := by
  fun_cases quotedChar c with
  | case7 c =>
    have hdigits := not_mem_toDigits (b := 16) (by decide) c.toNat
    simp [hdigits]
  | case8 c _ _ _ _ hend => exact fun h => hend (List.mem_singleton.1 h).symm
  | _ => decide

/-- **A quoted string is on one line**, whatever it contains. -/
theorem oneLine_quoted (s : String) : OneLine (quoted s) := by
  rw [quoted, oneLine_ofList]
  have hchars : '\n' ∉ s.toList.flatMap quotedChar := fun h => by
    obtain ⟨c, -, hc⟩ := List.mem_flatMap.1 h
    exact not_mem_quotedChar c hc
  simp [hchars]

/-! ## Lines that are ended -/

/-- Lines, each with its end. -/
def ended (lines : List String) : String := String.join (lines.map (· ++ "\n"))

/-- The first of some lines that are ended, and the others. -/
lemma toList_ended_cons (line : String) (lines : List String) :
    (ended (line :: lines)).toList = line.toList ++ '\n' :: (ended lines).toList := by
  rw [ended, List.map_cons, String.join_cons, String.toList_append, String.toList_append, ended,
    List.append_assoc]
  rfl

/-- **Lines that are ended are found again** by splitting, with an empty piece behind the last
one. -/
theorem split_ended {lines : List String} (h : ∀ line ∈ lines, OneLine line) :
    split '\n' (ended lines) = lines ++ [""] := by
  induction lines with
  | nil => rfl
  | cons line lines ih =>
    obtain ⟨hline, hrest⟩ := List.forall_mem_cons.1 h
    rw [split, toList_ended_cons, splitChars_append_cons, splitChars_of_not_mem hline,
      List.singleton_append, List.map_cons, String.ofList_toList, ← split, ih hrest,
      List.cons_append]

/-- **As many lines are ended** as there are. -/
theorem count_ended {lines : List String} (h : ∀ line ∈ lines, OneLine line) :
    (ended lines).toList.count '\n' = lines.length := by
  induction lines with
  | nil => rfl
  | cons line lines ih =>
    obtain ⟨hline, hrest⟩ := List.forall_mem_cons.1 h
    have hnone : line.toList.count '\n' = 0 := List.count_eq_zero.2 hline
    rw [toList_ended_cons, List.count_append, List.count_cons_self, ih hrest, hnone,
      List.length_cons, Nat.zero_add]

end Text

end QueryPayload
