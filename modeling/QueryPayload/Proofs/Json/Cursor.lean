import Mathlib.Data.List.TakeDrop
import Mathlib.Data.List.TakeWhile
import Mathlib.Tactic.Lemma
import QueryPayload.Json.Numeral
import QueryPayload.Json.Quoted
import QueryPayload.Json.Word

/-!
# What scanners consume

A scanner takes bytes off the front of what is left of a text, and the offset grows by their number.
So whatever has been scanned can be found again in the text.

## Main definitions

* `Json.Cursor.Passes` — from one cursor to another, the given bytes have been consumed.
* `Json.Cursor.Reaches` — some bytes have.
* `Json.Cursor.On` — a cursor of a given text.
* `Json.slice` — the bytes of a text between two offsets.

## Main results

* `Json.Numeral.passes_of_scan` — the bytes of a numeral: its sign, its digits, and what does not
  begin with a digit.
* `Json.Quoted.reaches_of_skip`, `Json.Word.reaches_of_scan` — the other values without parts.
-/

set_option relaxedAutoImplicit false
set_option autoImplicit false

namespace QueryPayload

namespace Json

/-- The bytes of a text between two offsets. -/
def slice (text : List UInt8) (start stop : Nat) : List UInt8 :=
  (text.drop start).take (stop - start)

namespace Cursor

/-- From one cursor to the other, the bytes have been consumed. -/
structure Passes (c : Cursor) (spelled : List UInt8) (c' : Cursor) : Prop where
  rest : c.rest = spelled ++ c'.rest
  offset : c'.offset = c.offset + spelled.length

/-- From one cursor to the other, some bytes have been consumed. -/
def Reaches (c c' : Cursor) : Prop := ∃ spelled, c.Passes spelled c'

/-- The cursor is one of the text. -/
def On (text : List UInt8) (c : Cursor) : Prop := c.rest = text.drop c.offset

variable {c c' c'' : Cursor} {spelled more text : List UInt8}

/-- Nothing has been consumed from a cursor to itself. -/
lemma Passes.refl (c : Cursor) : c.Passes [] c := ⟨rfl, rfl⟩

/-- What has been consumed on two ways, one after the other. -/
lemma Passes.trans (h : c.Passes spelled c') (h' : c'.Passes more c'') :
    c.Passes (spelled ++ more) c'' := by
  refine ⟨?_, ?_⟩
  · rw [h.rest, h'.rest, List.append_assoc]
  · rw [h'.offset, h.offset, List.length_append, Nat.add_assoc]

/-- A cursor reaches itself. -/
lemma Reaches.refl (c : Cursor) : c.Reaches c := ⟨[], .refl c⟩

/-- A cursor reaches what those reach that it reaches. -/
lemma Reaches.trans (h : c.Reaches c') (h' : c'.Reaches c'') : c.Reaches c'' := by
  obtain ⟨spelled, h⟩ := h
  obtain ⟨more, h'⟩ := h'
  exact ⟨spelled ++ more, h.trans h'⟩

/-- The cursor behind some bytes is reached from the one before them. -/
lemma reaches_append (offset : Nat) (bytes rest : List UInt8) :
    Reaches ⟨offset, bytes ++ rest⟩ ⟨offset + bytes.length, rest⟩ := ⟨bytes, rfl, rfl⟩

/-- A cursor that is reached from one of a text is one of the text. -/
lemma On.of_reaches (hc : c.On text) (h : c.Reaches c') : c'.On text := by
  obtain ⟨spelled, h⟩ := h
  rw [On, h.offset, ← List.drop_drop, ← hc, h.rest, List.drop_left]

/-- What has been consumed stands in the text between the offsets. -/
lemma On.slice_eq (hc : c.On text) (h : c.Passes spelled c') :
    slice text c.offset c'.offset = spelled := by
  have hlength : c'.offset - c.offset = spelled.length := by
    have := h.offset
    omega
  rw [slice, ← hc, h.rest, hlength, List.take_left]

/-- The next cursor of a text. -/
lemma On.next {offset : Nat} {b : UInt8} {rest : List UInt8} (h : On text ⟨offset, b :: rest⟩) :
    On text ⟨offset + 1, rest⟩ := h.of_reaches (reaches_append offset [b] rest)

/-- A text begins at its start. -/
lemma on_start (text : List UInt8) : (start text).On text := rfl

/-- The cursor behind the blanks is reached. -/
lemma reaches_skipBlanks (c : Cursor) : c.Reaches c.skipBlanks :=
  ⟨c.rest.takeWhile Byte.isBlank, List.takeWhile_append_dropWhile.symm, rfl⟩

/-- The run of digits is what is consumed by taking it. -/
lemma passes_takeDigits (c : Cursor) : c.Passes c.takeDigits.1 c.takeDigits.2 :=
  ⟨List.takeWhile_append_dropWhile.symm, rfl⟩

end Cursor

open Cursor

/-! ## Strings and words -/

/-- Passing over a string reaches the cursor behind it. -/
lemma Quoted.reaches_of_skip {c c' : Cursor} (h : Quoted.skip c = .ok c') : c.Reaches c' := by
  obtain ⟨offset, rest⟩ := c
  rw [skip] at h
  change skipBytes offset rest = .ok c' at h
  fun_induction skipBytes offset rest with
  -- the closing quote
  | case2 o rest =>
    obtain rfl := Except.ok.inj h
    exact reaches_append o [Byte.quote] rest
  -- an escape by number, an escape by letter, and any other byte
  | case4 o h₁ h₂ h₃ h₄ rest _ _ ih =>
    exact (reaches_append o [Byte.backslash, numberMark, h₁, h₂, h₃, h₄] rest).trans (ih h)
  | case7 o e rest _ _ _ ih =>
    exact (reaches_append o [Byte.backslash, e] rest).trans (ih h)
  | case10 o b rest _ _ _ ih =>
    exact (reaches_append o [b] rest).trans (ih h)
  -- a string that cannot be passed over
  | case1 => cases h
  | case3 => cases h
  | case5 => cases h
  | case6 => cases h
  | case8 => cases h
  | case9 => cases h

/-- Reading a word reaches the cursor behind it. -/
lemma Word.reaches_of_scan {w : Word} {c c' : Cursor} (h : w.scan c = .ok c') : c.Reaches c' := by
  have hexpect : ∀ letters offset rest, expect letters offset rest = .ok c' →
      Reaches ⟨offset, rest⟩ c' := by
    intro letters offset rest h
    induction letters generalizing offset rest with
    | nil =>
      obtain rfl := Except.ok.inj h
      exact .refl _
    | cons l ls ih =>
      cases rest with
      | nil => cases h
      | cons b rest =>
        rw [expect] at h
        split_ifs at h
        exact (reaches_append offset [b] rest).trans (ih _ _ h)
  exact hexpect _ _ _ h

/-! ## Numerals -/

namespace Numeral

variable {c c' : Cursor}

/-- The sign of a numeral. -/
def signBytes (negative : Bool) : List UInt8 := if negative then [Byte.minus] else []

/-- The sign is consumed, if there is one. -/
lemma passes_scanSign (c : Cursor) : c.Passes (signBytes (scanSign c).1) (scanSign c).2 := by
  obtain ⟨offset, rest⟩ := c
  cases rest with
  | nil => exact .refl _
  | cons b rest =>
    by_cases hb : b = Byte.minus
    · simp only [scanSign, hb, if_true]
      exact ⟨rfl, rfl⟩
    · simp only [scanSign, hb, if_false]
      exact .refl _

/-- The digits before the point are consumed; there is one at least. -/
lemma passes_of_scanWhole {ds : List UInt8} (h : scanWhole c = .ok (ds, c')) :
    c.Passes ds c' ∧ ds ≠ [] ∧ ∀ d ∈ ds, Byte.isDigit d = true := by
  obtain ⟨offset, rest⟩ := c
  have hzero : ∀ {d : UInt8}, d ∈ [Byte.zero] → Byte.isDigit d = true := by
    intro d hd
    obtain rfl := List.mem_singleton.1 hd
    rfl
  cases rest with
  | nil => cases h
  | cons b rest =>
    simp only [scanWhole] at h
    split_ifs at h with hb hdigit
    · subst hb
      cases rest with
      | nil =>
        obtain ⟨rfl, rfl⟩ := Prod.mk.inj (Except.ok.inj h)
        exact ⟨⟨rfl, rfl⟩, List.cons_ne_nil _ _, fun _ => hzero⟩
      | cons d rest =>
        simp only at h
        split_ifs at h
        obtain ⟨rfl, rfl⟩ := Prod.mk.inj (Except.ok.inj h)
        exact ⟨⟨rfl, rfl⟩, List.cons_ne_nil _ _, fun _ => hzero⟩
    · have htake := passes_takeDigits ⟨offset, b :: rest⟩
      rw [Except.ok.inj h] at htake
      have hds : ds = (b :: rest).takeWhile Byte.isDigit := (congrArg (·.1) (Except.ok.inj h)).symm
      refine ⟨htake, ?_, fun d hd => ?_⟩
      · rw [hds, List.takeWhile_cons, if_pos hdigit]
        exact List.cons_ne_nil _ _
      · rw [hds] at hd
        exact List.mem_takeWhile_imp hd

/-- Where no digits follow a point, nothing is consumed; otherwise something that begins with no
digit is. -/
lemma passes_of_scanFraction {fraction : Option (List UInt8)}
    (h : scanFraction c = .ok (fraction, c')) :
    (fraction = none ∧ c' = c) ∨
      ∃ b spelled, c.Passes (b :: spelled) c' ∧ Byte.isDigit b = false := by
  obtain ⟨offset, rest⟩ := c
  cases rest with
  | nil =>
    obtain ⟨rfl, rfl⟩ := Prod.mk.inj (Except.ok.inj h)
    exact Or.inl ⟨rfl, rfl⟩
  | cons b rest =>
    simp only [scanFraction] at h
    split_ifs at h with hb hempty
    · subst hb
      obtain ⟨-, rfl⟩ := Prod.mk.inj (Except.ok.inj h)
      have hpoint : Passes ⟨offset, Byte.point :: rest⟩ [Byte.point] ⟨offset + 1, rest⟩ :=
        ⟨rfl, rfl⟩
      exact Or.inr ⟨Byte.point, _, hpoint.trans (passes_takeDigits ⟨offset + 1, rest⟩), rfl⟩
    · obtain ⟨rfl, rfl⟩ := Prod.mk.inj (Except.ok.inj h)
      exact Or.inl ⟨rfl, rfl⟩

/-- The digits of an exponent are consumed. -/
lemma reaches_of_scanPower {negative : Bool} {exponent : Exponent}
    (h : scanPower negative c = .ok (exponent, c')) : c.Reaches c' := by
  obtain ⟨offset, rest⟩ := c
  cases rest with
  | nil => cases h
  | cons b rest =>
    simp only [scanPower] at h
    split_ifs at h
    obtain ⟨-, rfl⟩ := Prod.mk.inj (Except.ok.inj h)
    exact ⟨_, passes_takeDigits ⟨offset, b :: rest⟩⟩

/-- The mark of an exponent is no digit. -/
lemma isDigit_of_isExponentMark {b : UInt8} (h : Byte.isExponentMark b = true) :
    Byte.isDigit b = false := by
  rw [Byte.isExponentMark, Bool.or_eq_true, beq_iff_eq, beq_iff_eq] at h
  rcases h with rfl | rfl <;> rfl

/-- Where there is no exponent, nothing is consumed; otherwise something that begins with no digit
is. -/
lemma passes_of_scanExponent {exponent : Option Exponent}
    (h : scanExponent c = .ok (exponent, c')) :
    (exponent = none ∧ c' = c) ∨
      ∃ b spelled, c.Passes (b :: spelled) c' ∧ Byte.isDigit b = false := by
  obtain ⟨offset, rest⟩ := c
  cases rest with
  | nil =>
    obtain ⟨rfl, rfl⟩ := Prod.mk.inj (Except.ok.inj h)
    exact Or.inl ⟨rfl, rfl⟩
  | cons b rest =>
    simp only [scanExponent] at h
    split_ifs at h with hb
    · have hdigit : Byte.isDigit b = false := isDigit_of_isExponentMark hb
      -- whatever sign there is, digits follow it
      have hafter : ∀ negative mid, Reaches ⟨offset + 1, rest⟩ mid →
          (scanPower negative mid).map (fun p => (some p.1, p.2)) = .ok (exponent, c') →
          ∃ b' spelled, Passes ⟨offset, b :: rest⟩ (b' :: spelled) c' ∧
            Byte.isDigit b' = false := by
        intro negative mid hmid hpower
        cases hscan : scanPower negative mid with
        | error m => simp [hscan, Except.map] at hpower
        | ok power =>
          obtain ⟨e, after⟩ := power
          rw [hscan] at hpower
          obtain ⟨-, rfl⟩ := Prod.mk.inj (Except.ok.inj hpower)
          obtain ⟨spelled, hspelled⟩ := hmid.trans (reaches_of_scanPower hscan)
          have hmark : Passes ⟨offset, b :: rest⟩ [b] ⟨offset + 1, rest⟩ := ⟨rfl, rfl⟩
          exact ⟨b, spelled, hmark.trans hspelled, hdigit⟩
      refine Or.inr ?_
      cases rest with
      | nil => exact hafter _ _ (.refl _) h
      | cons s rest =>
        simp only at h
        split_ifs at h
        · exact hafter _ _ (reaches_append _ [s] rest) h
        · exact hafter _ _ (reaches_append _ [s] rest) h
        · exact hafter _ _ (.refl _) h
    · obtain ⟨rfl, rfl⟩ := Prod.mk.inj (Except.ok.inj h)
      exact Or.inl ⟨rfl, rfl⟩

/-- What a numeral has behind its digits: nothing, or something that begins with no digit. -/
def Continues (n : Numeral) : List UInt8 → Prop
  | [] => n.fraction = none ∧ n.exponent = none
  | b :: _ => Byte.isDigit b = false

/-- A numeral is read part by part. -/
lemma scan_eq_ok_iff {n : Numeral} :
    scan c = .ok (n, c') ↔
      ∃ c₁ c₂, scanWhole (scanSign c).2 = .ok (n.whole, c₁) ∧
        scanFraction c₁ = .ok (n.fraction, c₂) ∧ scanExponent c₂ = .ok (n.exponent, c') ∧
        n.negative = (scanSign c).1 := by
  obtain ⟨negative, ds, fraction, exponent⟩ := n
  simp only [scan, bind, Except.bind, pure, Except.pure]
  cases hwhole : scanWhole (scanSign c).2 with
  | error m => simp
  | ok whole =>
    obtain ⟨ds', c₁⟩ := whole
    cases hfraction : scanFraction c₁ with
    | error m => simp [hfraction]
    | ok part =>
      obtain ⟨fraction', c₂⟩ := part
      cases hexponent : scanExponent c₂ with
      | error m => simp [hfraction, hexponent]
      | ok power =>
        obtain ⟨exponent', c₃⟩ := power
        simp only [hfraction, hexponent, Except.ok.injEq, Prod.mk.injEq, mk.injEq]
        constructor
        · rintro ⟨⟨rfl, rfl, rfl, rfl⟩, rfl⟩
          exact ⟨c₁, c₂, ⟨rfl, rfl⟩, hfraction, hexponent, rfl⟩
        · rintro ⟨d₁, d₂, ⟨rfl, rfl⟩, hfraction', hexponent', rfl⟩
          rw [hfraction] at hfraction'
          obtain ⟨rfl, rfl⟩ := Prod.mk.inj (Except.ok.inj hfraction')
          rw [hexponent] at hexponent'
          obtain ⟨rfl, rfl⟩ := Prod.mk.inj (Except.ok.inj hexponent')
          exact ⟨⟨rfl, rfl, rfl, rfl⟩, rfl⟩

/-- **Reading a numeral** consumes its sign, its digits, and what it has behind them.

**Proof sketch.** The four scanners of its parts consume what they read, one after the other.
Either of the last two consumes nothing if it reads nothing, and otherwise begins with no digit. -/
theorem passes_of_scan {n : Numeral} (h : scan c = .ok (n, c')) :
    (n.whole ≠ [] ∧ ∀ d ∈ n.whole, Byte.isDigit d = true) ∧
      ∃ behind, n.Continues behind ∧
        c.Passes (signBytes n.negative ++ n.whole ++ behind) c' := by
  obtain ⟨c₁, c₂, hwhole, hfraction, hexponent, hnegative⟩ := scan_eq_ok_iff.1 h
  have hsign := passes_scanSign c
  rw [← hnegative] at hsign
  obtain ⟨hpasses, hds⟩ := passes_of_scanWhole hwhole
  have hfront := hsign.trans hpasses
  refine ⟨hds, ?_⟩
  rcases passes_of_scanFraction hfraction with ⟨hnone, rfl⟩ | ⟨b, point, hpoint, hb⟩
  · rcases passes_of_scanExponent hexponent with ⟨hnone', rfl⟩ | ⟨b, mark, hmark, hb⟩
    · exact ⟨[], ⟨hnone, hnone'⟩, hfront.trans (.refl _)⟩
    · exact ⟨b :: mark, hb, hfront.trans hmark⟩
  · rcases passes_of_scanExponent hexponent with ⟨-, rfl⟩ | ⟨_, mark, hmark, -⟩
    · exact ⟨b :: point, hb, hfront.trans hpoint⟩
    · exact ⟨b :: point ++ (_ :: mark), hb, hfront.trans (hpoint.trans hmark)⟩

end Numeral

end Json

end QueryPayload
