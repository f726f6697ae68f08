import Mathlib.Data.List.DropRight
import Mathlib.Tactic.Lemma
import Mathlib.Tactic.SplitIfs
import QueryPayload.Proofs.Json.Quoted

/-!
# Scanners in texts that go on

A scanner that has come to the end of a value does not look at what follows, apart from numbers,
which go on as long as there are digits.  So what it has found in a text is still there if the text
goes on.

## Main definitions

* `Json.Cursor.extend` — a cursor in a text that goes on.

## Main results

* `Json.Cursor.skipBlanks_extend`, `leave_extend`, `leaveItem_extend` — what is between values.
* `Json.Quoted.scan_extend`, `Json.Word.scan_extend`, `Json.Numeral.scan_extend` — the values
  without parts.
-/

set_option relaxedAutoImplicit false
set_option autoImplicit false

namespace QueryPayload

namespace Json

/-! ## Runs of bytes -/

namespace Cursor

/-- The same place in a text that goes on. -/
def extend (more : List UInt8) (c : Cursor) : Cursor := ⟨c.offset, c.rest ++ more⟩

variable {c : Cursor} (more : List UInt8)

/-- A run that something follows does not go on. -/
lemma run_append {p : UInt8 → Bool} {bs : List UInt8} (h : bs.dropWhile p ≠ []) :
    (bs ++ more).takeWhile p = bs.takeWhile p ∧
      (bs ++ more).dropWhile p = bs.dropWhile p ++ more := by
  have hlength : (bs.takeWhile p).length ≠ bs.length := fun heq => h <| by
    have hsplit := congrArg List.length (List.takeWhile_append_dropWhile (p := p) (l := bs))
    rw [List.length_append, heq] at hsplit
    exact List.length_eq_zero_iff.1 (by omega)
  rw [List.takeWhile_append, if_neg hlength, List.dropWhile_append,
    if_neg (by simpa using h)]
  exact ⟨rfl, rfl⟩

/-- Where something is behind the blanks, something is there. -/
lemma rest_ne_nil_of_skipBlanks (c : Cursor) (h : c.skipBlanks.rest ≠ []) : c.rest ≠ [] :=
  fun hnil => h (by rw [skipBlanks, hnil, List.dropWhile_nil])

/-- Blanks that something follows do not go on. -/
lemma skipBlanks_extend (h : c.skipBlanks.rest ≠ []) :
    (c.extend more).skipBlanks = c.skipBlanks.extend more := by
  obtain ⟨htake, hdrop⟩ := run_append more h
  rw [skipBlanks, extend, htake, hdrop]
  rfl

/-- Blanks up to the end of a text go on if the text goes on with blanks. -/
lemma skipBlanks_extend_of_eq_nil (h : c.skipBlanks.rest = []) :
    (c.extend more).skipBlanks = skipBlanks ⟨c.offset + c.rest.length, more⟩ := by
  have hall : ∀ b ∈ c.rest, Byte.isBlank b = true := List.dropWhile_eq_nil_iff.1 h
  rw [skipBlanks, extend, List.takeWhile_append_of_pos hall, List.dropWhile_append_of_pos hall,
    List.length_append, ← Nat.add_assoc]
  rfl

/-- A cursor that stays one of the text however that goes on is not beyond its end. -/
lemma offset_add_length {text : List UInt8} (h : ∀ more, (c.extend more).On (text ++ more)) :
    c.offset + c.rest.length = text.length := by
  have hrest : c.rest ++ [0] = (text ++ [0]).drop c.offset := h [0]
  have hlength := congrArg List.length hrest
  rw [List.length_drop, List.length_append, List.length_append, List.length_singleton] at hlength
  omega

/-- Digits that something follows do not go on. -/
lemma takeDigits_extend (h : c.takeDigits.2.rest ≠ []) :
    (c.extend more).takeDigits = (c.takeDigits.1, c.takeDigits.2.extend more) := by
  obtain ⟨htake, hdrop⟩ := run_append more h
  rw [takeDigits, extend, htake, hdrop]
  rfl

/-- Where a reader stands that gives up does not depend on what comes later. -/
lemma leave_extend (close : UInt8) (h : c.skipBlanks.rest ≠ []) :
    (c.extend more).leave close = c.leave close := by
  simp only [leave, skipBlanks_extend more h]
  cases hrest : c.skipBlanks.rest with
  | nil => exact absurd hrest h
  | cons b rest => simp only [extend, hrest, List.cons_append]

/-- Where a reader stands that gives up behind an item does not depend on what comes later, as long
as something comes behind the comma. -/
lemma leaveItem_extend (h : c.skipBlanks.rest ≠ [])
    (hcomma : ∀ o rest, c.skipBlanks = ⟨o, Byte.comma :: rest⟩ →
      (skipBlanks ⟨o + 1, rest⟩).rest ≠ []) :
    (c.extend more).leaveItem = c.leaveItem := by
  have hblanks := skipBlanks_extend more h
  have hagain : c.skipBlanks.skipBlanks.rest ≠ [] := by
    rwa [show c.skipBlanks.skipBlanks.rest = c.skipBlanks.rest from List.dropWhile_idempotent _ _]
  simp only [leaveItem, hblanks]
  generalize c.skipBlanks = d at h hagain hcomma
  obtain ⟨o, rest⟩ := d
  cases rest with
  | nil => exact absurd rfl h
  | cons b rest =>
    simp only [extend, List.cons_append]
    split_ifs with hb
    · subst hb
      have hbehind := skipBlanks_extend more (hcomma o rest rfl)
      rw [extend] at hbehind
      rw [hbehind]
      rfl
    · exact leave_extend more Byte.closeBracket hagain

end Cursor

/-! ## Values without parts -/

section Scalars

variable (more : List UInt8)

namespace Quoted

/-- A string that ends is passed over in the same way if the text goes on. -/
lemma skipBytes_append {o : Nat} {text : List UInt8} {after : Cursor}
    (h : skipBytes o text = .ok after) : skipBytes o (text ++ more) = .ok (after.extend more) := by
  have hne : Byte.backslash ≠ Byte.quote := by decide
  fun_induction skipBytes o text with
  -- the closing quote
  | case2 o rest =>
    obtain rfl := Except.ok.inj h
    rw [List.cons_append, skipBytes.eq_def]
    rfl
  -- an escape by number, an escape by letter, and any other byte
  | case4 o h₁ h₂ h₃ h₄ rest hhex _ ih =>
    obtain ⟨n, hn⟩ := Option.isSome_iff_exists.1 hhex
    rw [← ih h]
    exact skipBytes_number hn o (rest ++ more)
  | case7 o e rest hnumber hletter _ ih =>
    rw [← ih h, List.cons_append, List.cons_append, skipBytes.eq_def]
    simp only [if_neg hne, if_true, if_neg hnumber, if_pos hletter]
  | case10 o b rest hquote hbackslash hcontrol ih =>
    rw [← ih h, List.cons_append, skipBytes.eq_def]
    simp only [if_neg hquote, if_neg hbackslash, if_neg hcontrol]
  -- a string that cannot be passed over
  | _ => cases h

/-- An escape by number is not passed over if the text ends within it. -/
lemma skipBytes_short {o : Nat} {short : List UInt8} {after : Cursor}
    (h : ∀ h₁ h₂ h₃ h₄ rest, short = h₁ :: h₂ :: h₃ :: h₄ :: rest → False) :
    skipBytes o (Byte.backslash :: numberMark :: short) ≠ .ok after := by
  have hne : Byte.backslash ≠ Byte.quote := by decide
  rw [skipBytes.eq_def]
  simp only [if_neg hne, if_true]
  exact nofun

/-- Bytes in front of a string are there if the text goes on. -/
lemma push_extend (front : List UInt8) (x : Except Fault (List UInt8 × Cursor)) :
    (push front x).map (fun p => (p.1, p.2.extend more)) =
      push front (x.map fun p => (p.1, p.2.extend more)) := by
  cases x <;> rfl

/-- A string that ends is read in the same way if the text goes on, or refused for the same
reason. -/
lemma scanBytes_append {o : Nat} {text : List UInt8} {after : Cursor}
    (h : skipBytes o text = .ok after) :
    scanBytes o (text ++ more) =
      (scanBytes o text).map fun p => (p.1, p.2.extend more) := by
  have hne : Byte.backslash ≠ Byte.quote := by decide
  fun_induction scanBytes o text generalizing after with
  -- a pair of surrogates, another escape by number, one by letter, and any other byte
  | case9 o h₁ h₂ h₃ h₄ n hn _ _ k₁ k₂ k₃ k₄ rest m hm _ _ ih =>
    rw [skipBytes_number hn, skipBytes_number hm] at h
    rw [push_extend, ← ih h]
    simp only [List.cons_append]
    rw [scanBytes.eq_def]
    simp only [*, if_true, if_false]
    rfl
  | case14 o h₁ h₂ h₃ h₄ rest n hn _ _ _ ih =>
    rw [skipBytes_number hn] at h
    rw [push_extend, ← ih h]
    simp only [List.cons_append]
    rw [scanBytes.eq_def]
    simp only [*, if_true, if_false]
    rfl
  | case16 o e rest hnumber b hb _ ih =>
    rw [skipBytes.eq_def] at h
    simp only [if_neg hne, if_true, if_neg hnumber, hb, Option.isSome_some] at h
    rw [push_extend, ← ih h]
    simp only [List.cons_append]
    rw [scanBytes.eq_def]
    simp only [*, if_true, if_false]
  | case19 o b rest hquote hbackslash hcontrol ih =>
    rw [skipBytes.eq_def] at h
    simp only [if_neg hquote, if_neg hbackslash, if_neg hcontrol] at h
    rw [push_extend, ← ih h]
    simp only [List.cons_append]
    rw [scanBytes.eq_def]
    simp only [if_neg hquote, if_neg hbackslash, if_neg hcontrol]
  -- a text that ends within the string
  | case1 => cases h
  | case3 => cases h
  | case6 o h₁ h₂ h₃ h₄ n hn =>
    rw [skipBytes_number hn] at h
    cases h
  | case7 o h₁ h₂ h₃ h₄ n hn =>
    rw [skipBytes_number hn] at h
    cases h
  | case11 o h₁ h₂ h₃ h₄ n hn _ _ short hshort =>
    rw [skipBytes_number hn] at h
    exact absurd h (skipBytes_short hshort)
  | case15 o short hshort =>
    exact absurd h (skipBytes_short hshort)
  -- the closing quote, and what is refused for the bytes that are there
  | _ =>
    simp only [List.cons_append]
    rw [scanBytes.eq_def]
    simp only [*, if_true, if_false]
    rfl

/-- A string that ends says the same if the text goes on. -/
lemma scan_extend {c after : Cursor} (h : skip c = .ok after) :
    skip (c.extend more) = .ok (after.extend more) ∧
      (scan (c.extend more)).map (·.1) = (scan c).map (·.1) := by
  refine ⟨skipBytes_append more h, ?_⟩
  have hbytes := scanBytes_append more h
  simp only [scan, Cursor.extend, hbytes, bind, Except.bind]
  cases scanBytes c.offset c.rest with
  | error fault => rfl
  | ok p =>
    simp only [Except.map]
    cases Utf8.string p.1 <;> rfl

end Quoted

/-- A word is followed through in the same way if the text goes on. -/
lemma Word.scan_extend {w : Word} {c after : Cursor} (h : w.scan c = .ok after) :
    w.scan (c.extend more) = .ok (after.extend more) := by
  have hexpect : ∀ letters offset rest, expect letters offset rest = .ok after →
      expect letters offset (rest ++ more) = .ok (after.extend more) := by
    intro letters offset rest h
    induction letters generalizing offset rest with
    | nil =>
      obtain rfl := Except.ok.inj h
      rfl
    | cons l ls ih =>
      cases rest with
      | nil => cases h
      | cons b rest =>
        rw [expect] at h
        split_ifs at h with hb
        rw [List.cons_append, expect, if_pos hb]
        exact ih _ _ h
  exact hexpect _ _ _ h

namespace Numeral

variable {c after : Cursor}

/-- The sign is the same if the text goes on. -/
lemma scanSign_extend (h : c.rest ≠ []) :
    scanSign (c.extend more) = ((scanSign c).1, (scanSign c).2.extend more) := by
  obtain ⟨offset, rest⟩ := c
  cases rest with
  | nil => exact absurd rfl h
  | cons b rest =>
    simp only [scanSign, Cursor.extend, List.cons_append]
    split_ifs <;> rfl

/-- The digits before the point do not go on if something follows them. -/
lemma scanWhole_extend {ds : List UInt8} (h : scanWhole c = .ok (ds, after))
    (hrest : after.rest ≠ []) :
    scanWhole (c.extend more) = .ok (ds, after.extend more) := by
  obtain ⟨offset, rest⟩ := c
  cases rest with
  | nil => cases h
  | cons b rest =>
    simp only [scanWhole] at h
    simp only [Cursor.extend, List.cons_append, scanWhole]
    split_ifs at h ⊢ with hb hdigit
    · cases rest with
      | nil =>
        obtain ⟨-, rfl⟩ := Prod.mk.inj (Except.ok.inj h)
        exact absurd rfl hrest
      | cons d rest =>
        simp only at h
        split_ifs at h with hd
        obtain ⟨rfl, rfl⟩ := Prod.mk.inj (Except.ok.inj h)
        simp only [List.cons_append, if_neg hd]
    · have htake := Except.ok.inj h
      have hdigits := Cursor.takeDigits_extend more (c := ⟨offset, b :: rest⟩)
        (by rwa [htake])
      rw [htake] at hdigits
      exact congrArg Except.ok hdigits

/-- The digits behind the point do not go on if something follows them. -/
lemma scanFraction_extend {fraction : Option (List UInt8)}
    (h : scanFraction c = .ok (fraction, after)) (hrest : after.rest ≠ []) :
    scanFraction (c.extend more) = .ok (fraction, after.extend more) := by
  obtain ⟨offset, rest⟩ := c
  cases rest with
  | nil =>
    obtain ⟨-, rfl⟩ := Prod.mk.inj (Except.ok.inj h)
    exact absurd rfl hrest
  | cons b rest =>
    by_cases hb : b = Byte.point
    · simp only [scanFraction, if_pos hb] at h
      split_ifs at h with hempty
      obtain ⟨rfl, rfl⟩ := Prod.mk.inj (Except.ok.inj h)
      have hdigits := Cursor.takeDigits_extend more hrest
      rw [Cursor.extend] at hdigits
      simp only [Cursor.extend, List.cons_append, scanFraction, if_pos hb, hdigits, if_neg hempty]
    · simp only [scanFraction, if_neg hb] at h
      obtain ⟨rfl, rfl⟩ := Prod.mk.inj (Except.ok.inj h)
      simp only [Cursor.extend, List.cons_append, scanFraction, if_neg hb]

/-- The digits of an exponent do not go on if something follows them. -/
lemma scanPower_extend {negative : Bool} {exponent : Exponent}
    (h : scanPower negative c = .ok (exponent, after)) (hrest : after.rest ≠ []) :
    scanPower negative (c.extend more) = .ok (exponent, after.extend more) := by
  obtain ⟨offset, rest⟩ := c
  cases rest with
  | nil => cases h
  | cons b rest =>
    simp only [scanPower] at h
    split_ifs at h with hb
    obtain ⟨rfl, rfl⟩ := Prod.mk.inj (Except.ok.inj h)
    have hdigits := Cursor.takeDigits_extend more hrest
    rw [Cursor.extend, List.cons_append] at hdigits
    simp only [Cursor.extend, List.cons_append, scanPower, if_pos hb, hdigits]

/-- An exponent does not go on if something follows it. -/
lemma scanExponent_extend {exponent : Option Exponent}
    (h : scanExponent c = .ok (exponent, after)) (hrest : after.rest ≠ []) :
    scanExponent (c.extend more) = .ok (exponent, after.extend more) := by
  obtain ⟨offset, rest⟩ := c
  cases rest with
  | nil =>
    obtain ⟨-, rfl⟩ := Prod.mk.inj (Except.ok.inj h)
    exact absurd rfl hrest
  | cons b rest =>
    by_cases hb : Byte.isExponentMark b = true
    · have hpower : ∀ negative mid,
          (scanPower negative mid).map (fun p => (some p.1, p.2)) = .ok (exponent, after) →
          (scanPower negative (mid.extend more)).map (fun p => (some p.1, p.2)) =
            .ok (exponent, after.extend more) := by
        intro negative mid hmid
        cases hscan : scanPower negative mid with
        | error m => simp [hscan, Except.map] at hmid
        | ok power =>
          rw [hscan] at hmid
          obtain ⟨rfl, rfl⟩ := Prod.mk.inj (Except.ok.inj hmid)
          rw [scanPower_extend more hscan hrest]
          rfl
      simp only [Cursor.extend, List.cons_append, scanExponent, if_pos hb] at h ⊢
      cases rest with
      | nil => cases h
      | cons s rest =>
        simp only [List.cons_append] at h ⊢
        split_ifs at h ⊢
        · exact hpower _ _ h
        · exact hpower _ _ h
        · exact hpower _ _ h
    · simp only [scanExponent, if_neg hb] at h
      obtain ⟨rfl, rfl⟩ := Prod.mk.inj (Except.ok.inj h)
      simp only [Cursor.extend, List.cons_append, scanExponent, if_neg hb]

/-- **A numeral does not go on** if something follows it.

**Proof sketch.** Nor does any of its parts, since there is something behind each of them: the parts
that come later, or what follows the numeral. -/
theorem scan_extend {n : Numeral} (h : scan c = .ok (n, after)) (hrest : after.rest ≠ []) :
    scan (c.extend more) = .ok (n, after.extend more) := by
  obtain ⟨c₁, c₂, hwhole, hfraction, hexponent, hnegative⟩ := scan_eq_ok_iff.1 h
  have hbehind : c₂.rest ≠ [] := by
    rcases passes_of_scanExponent hexponent with ⟨-, rfl⟩ | ⟨b, spelled, hpasses, -⟩
    · exact hrest
    · rw [hpasses.rest]
      exact List.cons_ne_nil _ _
  have hpoint : c₁.rest ≠ [] := by
    rcases passes_of_scanFraction hfraction with ⟨-, rfl⟩ | ⟨b, spelled, hpasses, -⟩
    · exact hbehind
    · rw [hpasses.rest]
      exact List.cons_ne_nil _ _
  have hfirst : c.rest ≠ [] := by
    intro hnil
    rw [scanSign, hnil, scanWhole, hnil] at hwhole
    cases hwhole
  have hsign := scanSign_extend more hfirst
  refine scan_eq_ok_iff.2 ⟨c₁.extend more, c₂.extend more, ?_,
    scanFraction_extend more hfraction hbehind, scanExponent_extend more hexponent hrest, ?_⟩
  · rw [hsign]
    exact scanWhole_extend more hwhole hpoint
  · rw [hsign]
    exact hnegative

end Numeral

end Scalars

end Json

end QueryPayload
