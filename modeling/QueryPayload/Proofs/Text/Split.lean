import Mathlib.Tactic.Lemma
import Mathlib.Tactic.SplitIfs
import QueryPayload.Text.Split

/-!
# Pieces of a text

Splitting a text at a separator goes on independently before and behind each occurrence of it.  So
the last piece is what stands behind the last separator.

## Main results

* `Text.split_append`, `Text.split_append_of_not_mem` — the pieces before a separator and those
  behind it.
* `Text.split_of_not_mem` — a text without the separator is one piece.
* `Text.exists_eq_append` — a text with the separator, cut at the last one.
-/

set_option relaxedAutoImplicit false
set_option autoImplicit false

namespace QueryPayload

namespace Text

variable {separator : Char} {cs : List Char} {s : String}

/-! ## Characters -/

/-- There is always a piece. -/
lemma splitChars_ne_nil (separator : Char) (cs : List Char) : splitChars separator cs ≠ [] := by
  fun_induction splitChars separator cs with
  | case1 => exact List.cons_ne_nil _ _
  | case2 => exact List.cons_ne_nil _ _
  | case3 c cs _ _ => cases splitChars separator cs <;> exact List.cons_ne_nil _ _

/-- A character in front of pieces is in front of the first one, whatever follows. -/
lemma consFirst_append {c : Char} {pieces more : List (List Char)} (h : pieces ≠ []) :
    consFirst c (pieces ++ more) = consFirst c pieces ++ more := by
  cases pieces with
  | nil => exact absurd rfl h
  | cons piece pieces => rfl

/-- The pieces on both sides of a separator. -/
lemma splitChars_append_cons (separator : Char) (cs rest : List Char) :
    splitChars separator (cs ++ separator :: rest) =
      splitChars separator cs ++ splitChars separator rest := by
  induction cs with
  | nil => simp [splitChars]
  | cons c cs ih =>
    rw [List.cons_append, splitChars, splitChars, ih]
    split_ifs with h
    · rfl
    · exact consFirst_append (splitChars_ne_nil separator cs)

/-- Without a separator there is one piece. -/
lemma splitChars_of_not_mem (h : separator ∉ cs) : splitChars separator cs = [cs] := by
  induction cs with
  | nil => rfl
  | cons c cs ih =>
    obtain ⟨hc, hcs⟩ := not_or.1 (mt List.mem_cons.2 h)
    rw [splitChars, if_neg (Ne.symm hc), ih hcs, consFirst]

/-! ## Texts -/

/-- The pieces on both sides of a separator. -/
lemma split_append (separator : Char) (before behind : String) :
    split separator (before ++ String.singleton separator ++ behind) =
      split separator before ++ split separator behind := by
  rw [split, String.toList_append, String.toList_append, String.toList_singleton,
    List.append_assoc, List.singleton_append, splitChars_append_cons, List.map_append]
  rfl

/-- A text without a separator is one piece. -/
lemma split_of_not_mem (h : separator ∉ s.toList) : split separator s = [s] := by
  rw [split, splitChars_of_not_mem h, List.map_singleton, String.ofList_toList]

/-- What stands behind the last separator is the last piece. -/
lemma split_append_of_not_mem {piece : String} (h : separator ∉ piece.toList) (before : String) :
    split separator (before ++ String.singleton separator ++ piece) =
      split separator before ++ [piece] := by
  rw [split_append, split_of_not_mem h]

/-- There is always a piece. -/
lemma split_ne_nil (separator : Char) (s : String) : split separator s ≠ [] :=
  mt List.map_eq_nil_iff.1 (splitChars_ne_nil separator s.toList)

/-- A text with a separator can be cut at the last one. -/
lemma exists_eq_append (h : separator ∈ s.toList) :
    ∃ before behind : String, s = before ++ String.singleton separator ++ behind ∧
      separator ∉ behind.toList := by
  -- the last separator of a text is the first one of the reversed text
  obtain ⟨behind, before, hcut, hbehind⟩ := List.eq_append_cons_of_mem (List.mem_reverse.2 h)
  refine ⟨.ofList before.reverse, .ofList behind.reverse, ?_, by simpa using hbehind⟩
  have hchars : s.toList = before.reverse ++ separator :: behind.reverse := by
    rw [← List.reverse_reverse s.toList, hcut]
    simp
  rw [← String.toList_inj, hchars]
  simp

/-- A text that is one piece is that piece. -/
lemma eq_of_split_eq_singleton {piece : String} (h : split separator s = [piece]) : s = piece := by
  by_cases hmem : separator ∈ s.toList
  · obtain ⟨before, behind, rfl, -⟩ := exists_eq_append hmem
    have hlength := congrArg List.length h
    have hbefore := List.length_pos_iff.2 (split_ne_nil separator before)
    have hbehind := List.length_pos_iff.2 (split_ne_nil separator behind)
    rw [split_append, List.length_append, List.length_singleton] at hlength
    omega
  · exact List.singleton_inj.1 ((split_of_not_mem hmem).symm.trans h)

end Text

end QueryPayload
