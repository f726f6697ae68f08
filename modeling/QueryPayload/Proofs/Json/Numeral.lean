import Mathlib.Tactic.IntervalCases
import Mathlib.Tactic.Lemma
import QueryPayload.Proofs.Json.IntegerLiteral
import QueryPayload.Proofs.Json.Quoted

/-!
# Numerals are read back

A numeral that is spelled out, with something behind it that cannot be a part of it, is read as
itself.  The integers of 64 bits are written as numerals that stand for them.

## Main definitions

* `Json.Numeral.spelling` — the bytes of a numeral.
* `Json.Numeral.WellFormed` — it has digits wherever it must, and no leading zero.

## Main results

* `Json.Numeral.scan_spelling` — a numeral is read from its spelling.
* `Json.Source.scan_eq_of_numeral` — a text that is a numeral is one number.
* `Json.digitsValue_toDigits` — a number is read back from its digits.
* `Json.Number.spelled_int` — an integer of 64 bits is written as a numeral that stands for it.
-/

set_option relaxedAutoImplicit false
set_option autoImplicit false

namespace QueryPayload

namespace Json

/-! ## Digits -/

/-- Some bytes are digits, and there is one at least. -/
def Digits (ds : List UInt8) : Prop := ds ≠ [] ∧ ∀ d ∈ ds, Byte.isDigit d = true

/-- Some bytes do not go on with a digit. -/
def NoDigitFirst (rest : List UInt8) : Prop := ∀ b, rest.head? = some b → Byte.isDigit b = false

/-- Digits are taken up to something else. -/
lemma Cursor.takeDigits_append {ds rest : List UInt8} (hds : ∀ d ∈ ds, Byte.isDigit d = true)
    (hrest : NoDigitFirst rest) (o : Nat) :
    takeDigits ⟨o, ds ++ rest⟩ = (ds, ⟨o + ds.length, rest⟩) := by
  have htake : rest.takeWhile Byte.isDigit = [] := by
    cases rest with
    | nil => rfl
    | cons b rest => simp [hrest b rfl]
  have hdrop : rest.dropWhile Byte.isDigit = rest := by
    cases rest with
    | nil => rfl
    | cons b rest => simp [hrest b rfl]
  rw [takeDigits, List.takeWhile_append_of_pos hds, List.dropWhile_append_of_pos hds, htake, hdrop,
    List.append_nil]

/-- The byte of a digit. -/
lemma isDigit_ofNat {c : Char} (h : c.isDigit = true) :
    Byte.isDigit (UInt8.ofNat c.toNat) = true ∧ (UInt8.ofNat c.toNat).toNat = c.toNat := by
  have hrange : 0x30 ≤ c.toNat ∧ c.toNat ≤ 0x39 := Char.isDigit_iff_toNat.1 h
  have hbyte : (UInt8.ofNat c.toNat).toNat = c.toNat := by
    rw [UInt8.toNat_ofNat']
    omega
  refine ⟨?_, hbyte⟩
  rw [Byte.isDigit, Bool.and_eq_true, decide_eq_true_eq, decide_eq_true_eq, UInt8.le_iff_toNat_le,
    UInt8.le_iff_toNat_le, hbyte]
  exact hrange

/-- The bytes of digits, one for each. -/
lemma encode_digits {cs : List Char} (h : ∀ c ∈ cs, c.isDigit = true) :
    Utf8.encode cs = cs.map fun c => UInt8.ofNat c.toNat := by
  induction cs with
  | nil => rfl
  | cons c cs ih =>
    obtain ⟨hc, hcs⟩ := List.forall_mem_cons.1 h
    have hascii : c.toNat < 0x80 := by
      have := (Char.isDigit_iff_toNat.1 hc).2
      exact Nat.lt_of_le_of_lt this (by decide)
    rw [Utf8.encode, List.flatMap_cons, ← Utf8.encode, Utf8.encodeChar_of_lt hascii, ih hcs]
    rfl

/-- The bytes of digits are digits. -/
lemma digits_encode {cs : List Char} (hne : cs ≠ []) (h : ∀ c ∈ cs, c.isDigit = true) :
    Digits (Utf8.encode cs) := by
  rw [encode_digits h]
  refine ⟨by simpa using hne, fun d hd => ?_⟩
  obtain ⟨c, hc, rfl⟩ := List.mem_map.1 hd
  exact (isDigit_ofNat (h c hc)).1

/-- The bytes of digits stand for the number that the digits do. -/
lemma digitsValue_encode {cs : List Char} (h : ∀ c ∈ cs, c.isDigit = true) :
    Numeral.digitsValue (Utf8.encode cs) = Nat.ofDigitChars 10 cs 0 := by
  rw [encode_digits h, Numeral.digitsValue, List.foldl_map, Nat.ofDigitChars_eq_foldl]
  refine List.foldl_ext _ _ _ fun n c hc => ?_
  rw [(isDigit_ofNat (h c hc)).2, Nat.mul_comm]
  rfl

/-- The digits of a number are digits. -/
lemma isDigit_of_mem_toDigits (n : Nat) : ∀ c ∈ Nat.toDigits 10 n, c.isDigit = true :=
  fun _ => Nat.isDigit_of_mem_toDigits (by decide) (by decide)

/-- A number is read back from its digits. -/
lemma digitsValue_toDigits (n : Nat) :
    Numeral.digitsValue (Utf8.encode (Nat.toDigits 10 n)) = n := by
  rw [digitsValue_encode (isDigit_of_mem_toDigits n), Nat.ofDigitChars_ten_toDigits]

/-- The digits of a number begin with a zero only if it is zero. -/
lemma head?_toDigits_ne {n : Nat} (h : n ≠ 0) : (Nat.toDigits 10 n).head? ≠ some '0' := by
  induction n using Nat.strong_induction_on with
  | _ n ih =>
    rw [Nat.toDigits_eq_if (by decide)]
    split_ifs with hlt
    · interval_cases n <;> first | exact absurd rfl h | decide
    · rw [List.head?_append_of_ne_nil _ Nat.toDigits_ne_nil]
      exact ih (n / 10) (by omega) (by omega)

/-- Bytes of digits begin with a zero only if the digits do. -/
lemma head?_encode_ne {cs : List Char} (h : ∀ c ∈ cs, c.isDigit = true)
    (hne : cs.head? ≠ some '0') : (Utf8.encode cs).head? ≠ some Byte.zero := by
  rw [encode_digits h, List.head?_map]
  cases cs with
  | nil => exact nofun
  | cons c cs =>
    intro hzero
    have hnumber := congrArg UInt8.toNat (Option.some.inj hzero)
    rw [(isDigit_ofNat (h c List.mem_cons_self)).2] at hnumber
    exact hne (congrArg some (Char.toNat_inj.1 hnumber))

/-! ## Scanning -/

namespace Numeral

/-- The bytes of a point and the digits behind it. -/
def fractionBytes : Option (List UInt8) → List UInt8
  | none => []
  | some ds => Byte.point :: ds

/-- The bytes of an exponent, with its sign. -/
def exponentBytes : Option Exponent → List UInt8
  | none => []
  | some e => 0x65 :: (if e.negative then Byte.minus else Byte.plus) :: e.digits

/-- The bytes of a numeral. -/
def spelling (n : Numeral) : List UInt8 :=
  signBytes n.negative ++ (n.whole ++ (fractionBytes n.fraction ++ exponentBytes n.exponent))

/-- A numeral has digits wherever it must, and no leading zero. -/
structure WellFormed (n : Numeral) : Prop where
  whole : Digits n.whole
  noLeadingZero : n.whole.head? = some Byte.zero → n.whole = [Byte.zero]
  fraction : ∀ ds, n.fraction = some ds → Digits ds
  exponent : ∀ e, n.exponent = some e → Digits e.digits

/-- A numeral whose exponent, if it has one, is found at the given offset. -/
def withExponentAt (offset : Nat) (n : Numeral) : Numeral :=
  ⟨n.negative, n.whole, n.fraction, n.exponent.map fun e => ⟨e.negative, offset, e.digits⟩⟩

/-- Some bytes cannot continue a numeral. -/
def Stops (rest : List UInt8) : Prop :=
  ∀ b, rest.head? = some b →
    Byte.isDigit b = false ∧ b ≠ Byte.point ∧ Byte.isExponentMark b = false

/-- The sign is read, if digits follow it. -/
lemma scanSign_append {ds rest : List UInt8} (hds : Digits ds) (negative : Bool) (o : Nat) :
    scanSign ⟨o, signBytes negative ++ (ds ++ rest)⟩ =
      (negative, ⟨o + (signBytes negative).length, ds ++ rest⟩) := by
  cases negative with
  | true => rfl
  | false =>
    obtain ⟨hne, hdigits⟩ := hds
    cases ds with
    | nil => exact absurd rfl hne
    | cons d ds =>
      have hd : d ≠ Byte.minus := IntegerLiteral.ne_minus_of_isDigit (hdigits d List.mem_cons_self)
      simp [scanSign, signBytes, hd]

/-- The digits before the point are read, up to something else. -/
lemma scanWhole_append {ds rest : List UInt8} (hds : Digits ds)
    (hzero : ds.head? = some Byte.zero → ds = [Byte.zero]) (hrest : NoDigitFirst rest) (o : Nat) :
    scanWhole ⟨o, ds ++ rest⟩ = .ok (ds, ⟨o + ds.length, rest⟩) := by
  obtain ⟨hne, hdigits⟩ := hds
  by_cases hhead : ds.head? = some Byte.zero
  · rw [hzero hhead]
    cases rest with
    | nil => rfl
    | cons b rest =>
      simp [scanWhole, hrest b rfl]
  · have htake := Cursor.takeDigits_append hdigits hrest o
    cases ds with
    | nil => exact absurd rfl hne
    | cons d ds =>
      have hd : d ≠ Byte.zero := fun heq => hhead (congrArg some heq)
      rw [List.cons_append] at htake ⊢
      simp only [scanWhole, if_neg hd, hdigits d List.mem_cons_self, if_true, htake]

/-- The digits behind a point are read, up to something else. -/
lemma scanFraction_append {fraction : Option (List UInt8)} {rest : List UInt8}
    (hfraction : ∀ ds, fraction = some ds → Digits ds) (hrest : NoDigitFirst rest)
    (hpoint : rest.head? ≠ some Byte.point) (o : Nat) :
    scanFraction ⟨o, fractionBytes fraction ++ rest⟩ =
      .ok (fraction, ⟨o + (fractionBytes fraction).length, rest⟩) := by
  cases fraction with
  | none =>
    cases rest with
    | nil => rfl
    | cons b rest =>
      have hb : b ≠ Byte.point := fun heq => hpoint (congrArg some heq)
      simp [scanFraction, fractionBytes, hb]
  | some ds =>
    obtain ⟨hne, hdigits⟩ := hfraction ds rfl
    have htake := Cursor.takeDigits_append hdigits hrest (o + 1)
    have hempty : ds.isEmpty = false := by simpa using hne
    simp only [fractionBytes, List.cons_append, scanFraction, if_true, htake, hempty,
      Bool.false_eq_true, if_false, List.length_cons]
    rw [Nat.add_assoc, Nat.add_comm 1]

/-- The digits of an exponent are read, up to something else. -/
lemma scanPower_append {ds rest : List UInt8} (hds : Digits ds) (hrest : NoDigitFirst rest)
    (negative : Bool) (o : Nat) :
    scanPower negative ⟨o, ds ++ rest⟩ = .ok (⟨negative, o, ds⟩, ⟨o + ds.length, rest⟩) := by
  obtain ⟨hne, hdigits⟩ := hds
  have htake := Cursor.takeDigits_append hdigits hrest o
  cases ds with
  | nil => exact absurd rfl hne
  | cons d ds =>
    rw [List.cons_append] at htake ⊢
    simp only [scanPower, hdigits d List.mem_cons_self, if_true, htake]

/-- An exponent is read, up to something else. -/
lemma scanExponent_append {exponent : Option Exponent} {rest : List UInt8}
    (hexponent : ∀ e, exponent = some e → Digits e.digits) (hrest : NoDigitFirst rest)
    (hmark : ∀ b, rest.head? = some b → Byte.isExponentMark b = false) (o : Nat) :
    scanExponent ⟨o, exponentBytes exponent ++ rest⟩ =
      .ok (exponent.map fun e => ⟨e.negative, o + 2, e.digits⟩,
        ⟨o + (exponentBytes exponent).length, rest⟩) := by
  cases exponent with
  | none =>
    cases rest with
    | nil => rfl
    | cons b rest => simp [scanExponent, exponentBytes, hmark b rfl]
  | some e =>
    obtain ⟨negative, offset, ds⟩ := e
    have hpower := scanPower_append (hexponent _ rfl) hrest negative (o + 2)
    have hlength : o + 2 + ds.length = o + (ds.length + 1 + 1) := by omega
    have hplus : Byte.minus ≠ Byte.plus := by decide
    cases negative with
    | true =>
      simp only [exponentBytes, if_true, List.cons_append, scanExponent, if_neg hplus]
      rw [hpower, List.length_cons, List.length_cons, ← hlength]
      rfl
    | false =>
      simp only [exponentBytes, Bool.false_eq_true, if_false, List.cons_append, scanExponent,
        if_true]
      rw [hpower, List.length_cons, List.length_cons, ← hlength]
      rfl

/-- What follows the digits of a numeral does not begin with a digit. -/
lemma noDigitFirst_behind {rest : List UInt8} (fraction : Option (List UInt8))
    (exponent : Option Exponent) (hrest : NoDigitFirst rest) :
    NoDigitFirst (exponentBytes exponent ++ rest) ∧
      NoDigitFirst (fractionBytes fraction ++ (exponentBytes exponent ++ rest)) := by
  have hexponent : NoDigitFirst (exponentBytes exponent ++ rest) := by
    cases exponent with
    | none => exact hrest
    | some e =>
      rintro b ⟨⟩
      rfl
  refine ⟨hexponent, ?_⟩
  cases fraction with
  | none => exact hexponent
  | some ds =>
    rintro b ⟨⟩
    rfl

/-- **A numeral is read from its spelling**, if what follows cannot continue it.

**Proof sketch.** The four parts are read one after the other.  None of them begins with what could
continue the one before it. -/
theorem scan_spelling {n : Numeral} (hn : n.WellFormed) {rest : List UInt8} (hrest : Stops rest)
    (o : Nat) :
    ∃ offset, scan ⟨o, n.spelling ++ rest⟩ =
      .ok (n.withExponentAt offset, ⟨o + n.spelling.length, rest⟩) := by
  have hdigit : NoDigitFirst rest := fun b hb => (hrest b hb).1
  obtain ⟨hpower, hpart⟩ := noDigitFirst_behind n.fraction n.exponent hdigit
  have hpoint : (exponentBytes n.exponent ++ rest).head? ≠ some Byte.point := by
    cases n.exponent with
    | none => exact fun h => (hrest _ h).2.1 rfl
    | some e => exact fun h => absurd (Option.some.inj h) (by decide)
  have hmark : ∀ b, rest.head? = some b → Byte.isExponentMark b = false :=
    fun b hb => (hrest b hb).2.2
  have hbytes : n.spelling ++ rest = signBytes n.negative ++ (n.whole ++
      (fractionBytes n.fraction ++ (exponentBytes n.exponent ++ rest))) := by
    simp only [spelling, List.append_assoc]
  have hlength : o + (signBytes n.negative).length + n.whole.length +
      (fractionBytes n.fraction).length + (exponentBytes n.exponent).length =
        o + n.spelling.length := by
    simp only [spelling, List.length_append]
    omega
  refine ⟨o + (signBytes n.negative).length + n.whole.length +
    (fractionBytes n.fraction).length + 2, ?_⟩
  rw [hbytes]
  simp only [scan, scanSign_append hn.whole, scanWhole_append hn.whole hn.noLeadingZero hpart,
    scanFraction_append hn.fraction hpower hpoint, scanExponent_append hn.exponent hdigit hmark,
    bind, Except.bind, pure, Except.pure, hlength]
  rfl

/-- A numeral that is a text of its own is read to the end of the text. -/
lemma scan_start_spelling {n : Numeral} (hn : n.WellFormed) :
    ∃ offset, scan (.start n.spelling) =
      .ok (n.withExponentAt offset, ⟨n.spelling.length, []⟩) := by
  have hstops : Stops [] := nofun
  have hscan := scan_spelling hn hstops 0
  rwa [List.append_nil, Nat.zero_add] at hscan

/-- Digits behind a sign begin with a minus sign or a digit. -/
lemma exists_eq_cons {ds : List UInt8} (hds : Digits ds) (negative : Bool) (rest : List UInt8) :
    ∃ b more, signBytes negative ++ (ds ++ rest) = b :: more ∧
      (b = Byte.minus ∨ Byte.isDigit b = true) := by
  cases negative with
  | true => exact ⟨Byte.minus, _, rfl, .inl rfl⟩
  | false =>
    obtain ⟨hne, hdigits⟩ := hds
    cases ds with
    | nil => exact absurd rfl hne
    | cons d ds => exact ⟨d, _, rfl, .inr (hdigits d List.mem_cons_self)⟩

/-- A numeral begins with a minus sign or a digit. -/
lemma exists_spelling_eq_cons {n : Numeral} (hn : n.WellFormed) :
    ∃ b more, n.spelling = b :: more ∧ (b = Byte.minus ∨ Byte.isDigit b = true) :=
  exists_eq_cons hn.whole n.negative _

/-- A numeral stands for a number: for an integer that is kept exact, or for the binary64 number
that it is converted to. -/
def StandsFor (n : Numeral) : Number → Prop
  | .int i => n.integer? = some i
  | .float x => n.integer? = none ∧ n.float? = some x

/-- A numeral is read as the number that it stands for. -/
lemma value_eq_ok_iff (n : Numeral) (after : Nat) {x : Number} :
    n.value after = .ok x ↔ n.StandsFor x := by
  rw [value]
  cases x <;> cases hinteger : n.integer? <;> cases hfloat : n.float? <;>
    simp [StandsFor, hinteger, hfloat]

/-- What a numeral stands for does not depend on where its exponent is found. -/
lemma standsFor_withExponentAt (n : Numeral) {x : Number} (offset : Nat) :
    (n.withExponentAt offset).StandsFor x ↔ n.StandsFor x := by
  have hinteger : (n.withExponentAt offset).integer? = n.integer? := by
    obtain ⟨negative, whole, _ | ds, _ | e⟩ := n <;> rfl
  have hfloat : (n.withExponentAt offset).float? = n.float? := by
    obtain ⟨negative, whole, fraction, _ | e⟩ := n <;> rfl
  cases x <;> simp only [StandsFor, hinteger, hfloat]

end Numeral

/-- **A text that is a numeral is one number.** -/
theorem Source.scan_eq_of_numeral {text : List UInt8} {n : Numeral} {stop : Nat}
    (h : Numeral.scan (.start text) = .ok (n, ⟨stop, []⟩)) :
    scan text = (.scalar 0 (.number (n.value stop)) stop, none) := by
  obtain ⟨hwhole, behind, -, hpasses⟩ := Numeral.passes_of_scan h
  obtain ⟨b, more, hcons, hb⟩ := Numeral.exists_eq_cons hwhole n.negative behind
  obtain ⟨hblank, hbracket, hbrace, hquote⟩ := IntegerLiteral.first_ne hb
  have htext : text = b :: more := by
    rw [← hcons, ← List.append_assoc]
    exact hpasses.rest.trans (List.append_nil _)
  subst htext
  have hstart : Cursor.skipBlanks (.start (b :: more)) = .start (b :: more) := by
    simp [Cursor.skipBlanks, Cursor.start, hblank]
  have hscalar : scanScalar (.start (b :: more)) =
      (.scalar 0 (.number (n.value stop)) stop, some ⟨stop, []⟩) := by
    simp only [scanScalar, Cursor.start, if_neg hquote, if_pos hb] at h ⊢
    rw [h]
  have hvalue : scanValue (fuelFor (b :: more).length) 0 (.start (b :: more)) =
      scanScalar (.start (b :: more)) := by
    rw [fuelFor, scanValue, hstart]
    simp only [Cursor.start, if_neg hbracket, if_neg hbrace]
  rw [scan, hvalue, hscalar]
  rfl

/-- A number is written as a numeral that stands for it. -/
def Number.Spelled (x : Number) : Prop :=
  ∃ n : Numeral, n.WellFormed ∧ n.spelling = Utf8.encode x.chars ∧ n.StandsFor x

/-! ## Integers -/

namespace IntegerLiteral

/-- A literal is a well-formed numeral. -/
lemma wellFormed_numeral (l : IntegerLiteral) : l.numeral.WellFormed :=
  ⟨⟨l.nonempty, l.areDigits⟩, l.noLeadingZero, nofun, nofun⟩

/-- A literal is spelled as a numeral. -/
lemma spelling_numeral (l : IntegerLiteral) : l.numeral.spelling = l.text :=
  congrArg (Numeral.signBytes l.negative ++ ·) (List.append_nil l.digits)

/-- A literal that is a text of its own is read as itself. -/
lemma scan_text (l : IntegerLiteral) :
    Numeral.scan (.start l.text) = .ok (l.numeral, ⟨l.text.length, []⟩) := by
  obtain ⟨offset, hscan⟩ := Numeral.scan_start_spelling l.wellFormed_numeral
  rwa [spelling_numeral] at hscan

/-- The literal of an integer. -/
def ofInt (i : Int) : IntegerLiteral where
  negative := decide (i < 0)
  digits := Utf8.encode (Nat.toDigits 10 i.natAbs)
  nonempty := (digits_encode Nat.toDigits_ne_nil (isDigit_of_mem_toDigits _)).1
  areDigits := (digits_encode Nat.toDigits_ne_nil (isDigit_of_mem_toDigits _)).2
  noLeadingZero := by
    intro hzero
    by_cases hi : i.natAbs = 0
    · rw [hi]
      rfl
    · exact absurd hzero (head?_encode_ne (isDigit_of_mem_toDigits _) (head?_toDigits_ne hi))

/-- The literal of an integer stands for it. -/
lemma value_ofInt (i : Int) : (ofInt i).value = i := by
  rw [value, ofInt]
  simp only [digitsValue_toDigits, decide_eq_true_eq]
  split_ifs <;> omega

/-- The literal of an integer is how it is written. -/
lemma text_ofInt (i : Int) : (ofInt i).text = Utf8.encode (toString i).toList := by
  have htext : (ofInt i).text = Numeral.signBytes (decide (i < 0)) ++
      Utf8.encode (Nat.toDigits 10 i.natAbs) := rfl
  rw [htext, Int.toString_eq_repr, Int.repr_eq_if]
  by_cases hi : 0 ≤ i
  · have hnatAbs : i.natAbs = i.toNat := by omega
    rw [if_pos hi, Nat.toList_repr, hnatAbs, decide_eq_false (by omega)]
    rfl
  · have hnatAbs : i.natAbs = (-i).toNat := by omega
    rw [if_neg hi, String.toList_append, Nat.toList_repr, hnatAbs, decide_eq_true (by omega),
      Utf8.encode_append]
    rfl

end IntegerLiteral

/-- **An integer is written as a numeral that stands for it**, if it is one of 64 bits. -/
theorem Number.spelled_int {i : Int} (h : -2 ^ 63 ≤ i ∧ i < 2 ^ 64) : (Number.int i).Spelled := by
  have hl := IntegerLiteral.text_ofInt i
  have hvalue := IntegerLiteral.value_ofInt i
  generalize hliteral : IntegerLiteral.ofInt i = l at hl hvalue
  refine ⟨l.numeral, l.wellFormed_numeral, ?_, ?_⟩
  · rw [chars, ← hl, l.spelling_numeral]
  · have hzero : ¬ (l.negative = true ∧ l.value = 0) := by
      rintro ⟨hnegative, hzero⟩
      rw [← hliteral, IntegerLiteral.ofInt, decide_eq_true_eq] at hnegative
      omega
    rw [Numeral.StandsFor, IntegerLiteral.integer?_numeral, hvalue, if_pos ⟨hvalue ▸ hzero, h⟩]

end Json

end QueryPayload
