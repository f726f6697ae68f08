import Mathlib.Tactic.Lemma
import QueryPayload.Proofs.Json.Numeral
import QueryPayload.Proofs.Number.Shortest
import QueryPayload.Proofs.Schema.Agreement

/-!
# Binary64 numbers are written and read back

A finite number is written as a numeral with a point or an exponent, which has the value of its
shortest decimal.  It is read back if the numeral is converted to the number nearest to it, which is
so where it has few digits.

## Main definitions

* `Json.Numeral.ofChars` — the numeral with the given digits and power of ten.
* `Json.Numeral.LaysOut` — a numeral has the sign and the value of a decimal, and its few digits.

## Main results

* `Json.laidOut_positional`, `Json.laidOut_scientific` — the two layouts of decimals.
* `Json.laidOut_jsonText` — a finite number is written as a numeral for its shortest decimal.
* `Json.Number.spelled_float` — a finite number that is read back can be written inside a tree.
* `Json.ofText_jsonText` — a number with few digits is read back.
-/

set_option relaxedAutoImplicit false
set_option autoImplicit false

namespace QueryPayload

namespace Json

namespace Numeral

/-- The numeral with the given sign, digits before and behind the point, and power of ten. -/
def ofChars (negative : Bool) (whole : List Char) (part : Option (List Char))
    (power : Option Int) : Numeral where
  negative := negative
  whole := Utf8.encode whole
  fraction := part.map Utf8.encode
  exponent := power.map fun k => ⟨decide (k < 0), 0, Utf8.encode (Nat.toDigits 10 k.natAbs)⟩

/-- The characters of an exponent. -/
def powerChars : Option Int → List Char
  | none => []
  | some k => 'e' :: (if k < 0 then '-' else '+') :: Nat.toDigits 10 k.natAbs

/-- The characters of a point and the digits behind it. -/
def partChars : Option (List Char) → List Char
  | none => []
  | some cs => '.' :: cs

variable {negative : Bool} {whole : List Char} {part : Option (List Char)} {power : Option Int}

/-- A numeral of digits is well formed, unless a zero leads. -/
lemma wellFormed_ofChars (hne : whole ≠ []) (hwhole : ∀ c ∈ whole, c.isDigit = true)
    (hzero : whole.head? = some '0' → whole = ['0'])
    (hpart : ∀ cs, part = some cs → cs ≠ [] ∧ ∀ c ∈ cs, c.isDigit = true) :
    (ofChars negative whole part power).WellFormed where
  whole := digits_encode hne hwhole
  noLeadingZero := by
    intro hhead
    have hchar : whole.head? = some '0' := by
      by_contra hchar
      exact head?_encode_ne hwhole hchar hhead
    rw [ofChars, hzero hchar]
    rfl
  fraction := by
    intro ds hds
    obtain ⟨cs, hcs, rfl⟩ := Option.map_eq_some_iff.1 hds
    exact digits_encode (hpart cs hcs).1 (hpart cs hcs).2
  exponent := by
    intro e he
    obtain ⟨k, -, rfl⟩ := Option.map_eq_some_iff.1 he
    exact digits_encode Nat.toDigits_ne_nil (isDigit_of_mem_toDigits _)

/-- The bytes of a numeral of digits. -/
lemma spelling_ofChars :
    (ofChars negative whole part power).spelling =
      Utf8.encode ((if negative then ['-'] else []) ++
        (whole ++ (partChars part ++ powerChars power))) := by
  have hsign : Utf8.encode (if negative then ['-'] else []) = signBytes negative := by
    cases negative <;> rfl
  have hpart : Utf8.encode (partChars part) = fractionBytes (part.map Utf8.encode) := by
    cases part <;> rfl
  have hpower : Utf8.encode (powerChars power) = exponentBytes (power.map fun k =>
      ⟨decide (k < 0), 0, Utf8.encode (Nat.toDigits 10 k.natAbs)⟩) := by
    cases power with
    | none => rfl
    | some k => by_cases hk : k < 0 <;> simp [powerChars, exponentBytes, hk] <;> rfl
  rw [Utf8.encode_append, Utf8.encode_append, Utf8.encode_append, hsign, hpart, hpower]
  rfl

/-- The decimal that a numeral of digits stands for. -/
lemma decimal_ofChars (negative : Bool) (power : Option Int)
    (hwhole : ∀ c ∈ whole, c.isDigit = true)
    (hpart : ∀ cs, part = some cs → ∀ c ∈ cs, c.isDigit = true) :
    (ofChars negative whole part power).decimal =
      ⟨negative, Nat.ofDigitChars 10 (whole ++ part.getD []) 0,
        power.getD 0 - (part.getD []).length⟩ := by
  have hpower : (((ofChars negative whole part power).exponent.map Exponent.power).getD 0) =
      power.getD 0 := by
    cases power with
    | none => rfl
    | some k =>
      simp only [ofChars, Option.map_some, Option.getD_some, Exponent.power, digitsValue_toDigits,
        decide_eq_true_eq]
      split_ifs <;> omega
  have hfraction : (ofChars negative whole part power).fraction.getD [] =
      Utf8.encode (part.getD []) := by
    cases part <;> rfl
  have hdigits : ∀ c ∈ part.getD [], c.isDigit = true := by
    cases part with
    | none => exact fun _ h => absurd h List.not_mem_nil
    | some cs => exact hpart cs rfl
  have hall : ∀ c ∈ whole ++ part.getD [], c.isDigit = true :=
    List.forall_mem_append.2 ⟨hwhole, hdigits⟩
  have hlength : (Utf8.encode (part.getD [])).length = (part.getD []).length := by
    rw [encode_digits hdigits, List.length_map]
  simp only [decimal, hpower, hfraction, hlength]
  rw [ofChars, ← Utf8.encode_append, digitsValue_encode hall]

/-- A numeral with a point or an exponent is no integer. -/
lemma integer?_ofChars (h : part ≠ none ∨ power ≠ none) :
    (ofChars negative whole part power).integer? = none := by
  cases part with
  | some cs => rfl
  | none =>
    cases power with
    | some k => rfl
    | none => rcases h with h | h <;> exact absurd rfl h

end Numeral

/-! ## Layouts -/

/-- A numeral lays out a decimal: it has its sign and its value, and hardly more digits. -/
structure Numeral.LaysOut (n : Numeral) (d : Decimal) (text : List Char) : Prop where
  wellFormed : n.WellFormed
  spelling : n.spelling = Utf8.encode text
  /-- There is a point or an exponent. -/
  integer? : n.integer? = none
  negative : n.decimal.negative = d.negative
  value : n.decimal.value = d.value
  /-- The zeros at the end of an integer are written out, and one more behind the point. -/
  digits : n.decimal.digits ≤ d.digits * 10 ^ (d.exponent.toNat + 1)
  least : min d.exponent (-1) ≤ n.decimal.exponent
  greatest : n.decimal.exponent ≤ max d.exponent 0
  /-- If there is an exponent, then it is that of the first digit. -/
  power : ∀ e, n.exponent = some e → Numeral.digitsValue e.digits = d.leading.natAbs

/-- A decimal is laid out as a numeral. -/
def LaidOut (d : Decimal) (text : List Char) : Prop := ∃ n : Numeral, n.LaysOut d text

variable {d : Decimal}

/-- The digits of a decimal are digits. -/
lemma isDigit_of_mem_digitChars : ∀ c ∈ d.digitChars, c.isDigit = true :=
  isDigit_of_mem_toDigits d.digits

/-- The digits of a decimal stand for its digits. -/
lemma ofDigitChars_digitChars : Nat.ofDigitChars 10 d.digitChars 0 = d.digits :=
  Nat.ofDigitChars_ten_toDigits

/-- The first digit with an exponent lays out a decimal; a point and the other digits stand between
them only if there are any. -/
lemma laidOut_exponent {c : Char} {tail : List Char} {part : Option (List Char)}
    (hcs : d.digitChars = c :: tail)
    (hpart : part = none ∧ tail = [] ∨ part = some tail ∧ tail ≠ []) :
    LaidOut d (d.signChars ++ ([c] ++ (Numeral.partChars part ++
      Numeral.powerChars (some d.leading)))) := by
  have hdigits := isDigit_of_mem_digitChars (d := d)
  have hvalue := ofDigitChars_digitChars (d := d)
  rw [hcs] at hdigits hvalue
  obtain ⟨hc, htail⟩ := List.forall_mem_cons.1 hdigits
  have hleading : d.leading - tail.length = d.exponent := by
    rw [Decimal.leading, hcs, List.length_cons]
    omega
  have hgetD : part.getD [] = tail := by
    rcases hpart with ⟨rfl, rfl⟩ | ⟨rfl, -⟩ <;> rfl
  have hsome : ∀ cs, part = some cs → cs ≠ [] ∧ ∀ c ∈ cs, c.isDigit = true := by
    rintro cs rfl
    rcases hpart with ⟨hnone, -⟩ | ⟨hsame, hne⟩
    · cases hnone
    · cases hsame
      exact ⟨hne, htail⟩
  have hwhole : ∀ b ∈ [c], b.isDigit = true := fun b hb => List.mem_singleton.1 hb ▸ hc
  have hdecimal := Numeral.decimal_ofChars d.negative (some d.leading) hwhole fun cs hcs =>
    (hsome cs hcs).2
  rw [hgetD, List.singleton_append, hvalue, Option.getD_some, hleading] at hdecimal
  have hwell : (Numeral.ofChars d.negative [c] part (some d.leading)).WellFormed :=
    Numeral.wellFormed_ofChars (List.cons_ne_nil _ _) hwhole
      (fun hzero => by rw [Option.some.inj hzero]) hsome
  refine ⟨_, hwell, Numeral.spelling_ofChars, Numeral.integer?_ofChars (.inr nofun),
    by rw [hdecimal], by rw [hdecimal], ?_, ?_, ?_, ?_⟩
  · rw [hdecimal]
    exact Nat.le_mul_of_pos_right _ (Nat.pow_pos (by decide))
  · rw [hdecimal]
    exact min_le_left _ _
  · rw [hdecimal]
    exact le_max_left _ _
  · rintro e ⟨⟩
    exact digitsValue_toDigits _

/-- A decimal that is written with an exponent is laid out. -/
lemma laidOut_scientific (d : Decimal) : LaidOut d (d.signChars ++ d.scientific) := by
  obtain ⟨c, tail, hcs⟩ : ∃ c tail, d.digitChars = c :: tail :=
    List.exists_cons_of_ne_nil Nat.toDigits_ne_nil
  rw [Decimal.scientific, hcs]
  cases tail with
  | nil => exact laidOut_exponent hcs (.inl ⟨rfl, rfl⟩)
  | cons b tail => exact laidOut_exponent hcs (.inr ⟨rfl, List.cons_ne_nil _ _⟩)

/-- Digits around a point lay out what they stand for. -/
lemma laidOut_point {whole part : List Char} (hwhole : whole ≠ []) (hpart : part ≠ [])
    (hdigits : ∀ c ∈ whole ++ part, c.isDigit = true)
    (hzero : whole.head? = some '0' → whole = ['0'])
    (hvalue : Decimal.value ⟨d.negative, Nat.ofDigitChars 10 (whole ++ part) 0, -part.length⟩ =
      d.value)
    (hfew : Nat.ofDigitChars 10 (whole ++ part) 0 ≤ d.digits * 10 ^ (d.exponent.toNat + 1))
    (hleast : min d.exponent (-1) ≤ -part.length) :
    LaidOut d (d.signChars ++ (whole ++ '.' :: part)) := by
  obtain ⟨hwholeDigits, hpartDigits⟩ := List.forall_mem_append.1 hdigits
  have hsome : ∀ cs, some part = some cs → cs ≠ [] ∧ ∀ c ∈ cs, c.isDigit = true := by
    rintro cs ⟨⟩
    exact ⟨hpart, hpartDigits⟩
  have hdecimal := Numeral.decimal_ofChars d.negative none hwholeDigits fun cs hcs =>
    (hsome cs hcs).2
  rw [Option.getD_some, Option.getD_none, zero_sub] at hdecimal
  refine ⟨.ofChars d.negative whole (some part) none,
    Numeral.wellFormed_ofChars hwhole hwholeDigits hzero hsome,
    ?_, Numeral.integer?_ofChars (.inl nofun), ?_, ?_, ?_, ?_, ?_, nofun⟩
  · rw [Numeral.spelling_ofChars, Numeral.powerChars, List.append_nil]
    rfl
  · rw [hdecimal]
  · rw [hdecimal, hvalue]
  · rwa [hdecimal]
  · rwa [hdecimal]
  · rw [hdecimal]
    exact (Int.neg_nonpos_of_nonneg (Int.natCast_nonneg _)).trans (le_max_right _ _)

/-- Zeros are digits. -/
lemma isDigit_of_mem_replicate {n : Nat} : ∀ c ∈ List.replicate n '0', c.isDigit = true := by
  intro c hc
  rw [List.eq_of_mem_replicate hc]
  rfl

/-- An integer is laid out with a zero behind the point. -/
lemma laidOut_integer {n : Nat} (hexponent : d.exponent = n) (hzero : d.digits = 0 → n = 0) :
    LaidOut d (d.signChars ++ (d.digitChars ++ List.replicate n '0' ++ '.' :: ['0'])) := by
  have hchars : Nat.ofDigitChars 10 (d.digitChars ++ List.replicate n '0' ++ ['0']) 0 =
      10 * (10 ^ n * d.digits) := by
    rw [Nat.ofDigitChars_append, Nat.ofDigitChars_append, ofDigitChars_digitChars,
      Nat.ofDigitChars_replicate_zero]
    exact Nat.add_zero _
  refine laidOut_point (List.append_ne_nil_of_left_ne_nil Nat.toDigits_ne_nil _)
    (List.cons_ne_nil _ _) ?_ (fun hhead => ?_) ?_ ?_ (min_le_right _ _)
  · rw [List.forall_mem_append, List.forall_mem_append]
    exact ⟨⟨isDigit_of_mem_digitChars, isDigit_of_mem_replicate⟩,
      isDigit_of_mem_replicate (n := 1)⟩
  · rw [List.head?_append_of_ne_nil d.digitChars Nat.toDigits_ne_nil] at hhead
    have hdigits : d.digits = 0 := by
      by_contra hdigits
      exact head?_toDigits_ne hdigits hhead
    rw [Decimal.digitChars, hzero hdigits, hdigits]
    rfl
  · rw [hchars, Decimal.value, Decimal.value, hexponent]
    push_cast
    rw [List.length_singleton, Nat.cast_one, zpow_neg_one, zpow_natCast]
    field_simp
  · rw [hchars, hexponent, Int.toNat_natCast, pow_succ']
    exact le_of_eq (by ring)

/-- A fraction is laid out with its last digits behind the point. -/
lemma laidOut_fraction {n : Nat} {padded : List Char}
    (hexponent : d.exponent = -(n + 1 : Nat))
    (hpadded : padded = List.replicate (n + 2 - d.digitChars.length) '0' ++ d.digitChars) :
    LaidOut d (d.signChars ++ (padded.take (padded.length - (n + 1)) ++
      '.' :: padded.drop (padded.length - (n + 1)))) := by
  have hlength : padded.length = n + 2 - d.digitChars.length + d.digitChars.length := by
    rw [hpadded, List.length_append, List.length_replicate]
  have hpart : (padded.drop (padded.length - (n + 1))).length = n + 1 := by
    rw [List.length_drop]
    omega
  have hwhole : (padded.take (padded.length - (n + 1))).length = padded.length - (n + 1) := by
    rw [List.length_take]
    omega
  have hchars : Nat.ofDigitChars 10
      (List.replicate (n + 2 - d.digitChars.length) '0' ++ d.digitChars) 0 = d.digits := by
    rw [Nat.ofDigitChars_append, Nat.ofDigitChars_replicate_zero, Nat.mul_zero,
      ofDigitChars_digitChars]
  refine laidOut_point (List.ne_nil_of_length_pos (by omega)) (List.ne_nil_of_length_pos (by omega))
    ?_ (fun hhead => ?_) ?_ ?_ ?_
  · rw [List.take_append_drop, hpadded, List.forall_mem_append]
    exact ⟨isDigit_of_mem_replicate, isDigit_of_mem_digitChars⟩
  · rcases Nat.lt_or_ge d.digitChars.length (n + 2) with hshort | hlong
    -- the zeros that are put in front leave one digit before the point
    · obtain ⟨c, hc⟩ := List.length_eq_one_iff.1 (hwhole.trans (by omega))
      rw [hc] at hhead ⊢
      rw [Option.some.inj hhead]
    -- else the first digit leads, which is zero only if it is the only one
    · rw [hpadded, Nat.sub_eq_zero_of_le hlong, List.replicate_zero, List.nil_append,
        List.head?_take, if_neg (by omega)] at hhead
      have hdigits : d.digits = 0 := by
        by_contra hdigits
        exact head?_toDigits_ne hdigits hhead
      rw [Decimal.digitChars, hdigits] at hlong
      exact absurd hlong (by simp)
  · rw [List.take_append_drop, hpart, hpadded, hchars, ← hexponent]
  · rw [List.take_append_drop, hpadded, hchars]
    exact Nat.le_mul_of_pos_right _ (Nat.pow_pos (by decide))
  · rw [hpart, hexponent]
    exact min_le_left _ _

/-- A decimal that is written without an exponent is laid out, if a zero has no zeros behind it. -/
lemma laidOut_positional (hzero : d.digits = 0 → d.exponent = 0) :
    LaidOut d (d.signChars ++ (d.positional.1 ++
      '.' :: (if d.positional.2.isEmpty then ['0'] else d.positional.2))) := by
  rw [Decimal.positional]
  cases hexponent : d.exponent with
  | ofNat n =>
    exact laidOut_integer hexponent fun hdigits => Int.ofNat.inj (hexponent ▸ hzero hdigits)
  | negSucc n =>
    simp only [List.splitAt_eq]
    rw [if_neg]
    · exact laidOut_fraction hexponent rfl
    · rw [List.isEmpty_iff, List.drop_eq_nil_iff, List.length_append, List.length_replicate]
      omega

/-- **A finite number is written as a numeral** that lays out its shortest decimal. -/
theorem laidOut_jsonText {x : Binary64} (hx : x.isFinite = true) :
    LaidOut (x.shortest .toEven) x.jsonText := by
  by_cases hplain : Binary64.jsonPlainRange.1 ≤ (x.shortest .toEven).leading ∧
      (x.shortest .toEven).leading ≤ Binary64.jsonPlainRange.2
  · rw [Binary64.jsonText, if_pos hplain]
    exact laidOut_positional (Binary64.exponent_shortest hx)
  · rw [Binary64.jsonText, if_neg hplain]
    exact laidOut_scientific _

/-- A numeral that lays out the shortest decimal of a number is nearest to the number. -/
lemma Numeral.LaysOut.nearest_eq {n : Numeral} {x : Binary64} {text : List Char}
    (h : n.LaysOut (x.shortest .toEven) text) (hx : x.isFinite = true) :
    n.decimal.nearest = some x := by
  rw [Decimal.nearest_congr h.negative h.value]
  exact Binary64.nearest_shortest hx .toEven

/-! ## Reading what has been written -/

/-- A text that is a numeral has the tree of what the numeral stands for. -/
lemma ofText_eq_num_iff {text : List UInt8} {n : Numeral} {stop : Nat} {x : Number}
    (hscan : Numeral.scan (.start text) = .ok (n, ⟨stop, []⟩)) :
    ofText text = .ok (.num x) ↔ n.StandsFor x := by
  rw [ofText_eq_ok_iff, Source.scan_eq_of_numeral hscan, Source.tree_scalar_eq_ok_iff,
    ← n.value_eq_ok_iff stop]
  simp

/-- A text that a decimal is laid out in has the tree of what the numeral stands for. -/
lemma Numeral.LaysOut.ofText_eq_num_iff {n : Numeral} {text : List Char} {x : Number}
    (h : n.LaysOut d text) : ofText (Utf8.encode text) = .ok (.num x) ↔ n.StandsFor x := by
  obtain ⟨offset, hscan⟩ := Numeral.scan_start_spelling h.wellFormed
  rw [h.spelling] at hscan
  exact (Json.ofText_eq_num_iff hscan).trans (n.standsFor_withExponentAt offset)

/-- **A finite number can be written inside a tree** if it is read back from a text of its own. -/
theorem Number.spelled_float {x : Binary64} (hx : x.isFinite = true)
    (h : ofText (Utf8.encode x.jsonText) = .ok (.num (.float x))) : (Number.float x).Spelled := by
  obtain ⟨n, hn⟩ := laidOut_jsonText hx
  exact ⟨n, hn.wellFormed, hn.spelling, hn.ofText_eq_num_iff.1 h⟩

/-- A decimal with few digits has a small exponent, and so does its first digit. -/
lemma exponents_of_few (hzero : d.digits = 0 → d.exponent = 0)
    (hfew : d.digits * 10 ^ (d.exponent.toNat + 1) < 2 ^ 53) (hleast : -22 ≤ d.exponent) :
    d.exponent ≤ 22 ∧ d.leading.natAbs ≤ Numeral.maxExponent := by
  have hdigits : d.digits < 10 ^ 16 :=
    (Nat.le_mul_of_pos_right _ (Nat.pow_pos (by decide))).trans_lt (hfew.trans (by decide))
  have hlength : d.digitChars.length ≤ 16 :=
    (Nat.length_toDigits_le_iff (by decide) (by decide)).2 hdigits
  have hexponent : d.exponent ≤ 16 := by
    rcases Nat.eq_zero_or_pos d.digits with hnone | hpos
    · rw [hzero hnone]
      decide
    · have hpower : 10 ^ (d.exponent.toNat + 1) < 10 ^ 16 :=
        (Nat.le_mul_of_pos_left _ hpos).trans_lt (hfew.trans (by decide))
      have hlt := (Nat.pow_lt_pow_iff_right (by decide)).1 hpower
      omega
  have hmax : Numeral.maxExponent = 2 ^ 31 - 1 := rfl
  refine ⟨by omega, ?_⟩
  rw [Decimal.leading]
  omega

/-- **A number with few digits is read back.**  It is enough that its shortest decimal, with the
zeros at its end and one more, is below `2 ^ 53`, and that the last digit is not too far behind the
point.

**Proof sketch.** The numeral has few digits, too, so that it is converted to the nearest number
(`Numeral.float?_eq_nearest`). -/
theorem ofText_jsonText {x : Binary64} (hx : x.isFinite = true)
    (hfew : (x.shortest .toEven).digits * 10 ^ ((x.shortest .toEven).exponent.toNat + 1) < 2 ^ 53)
    (hleast : -22 ≤ (x.shortest .toEven).exponent) :
    ofText (Utf8.encode x.jsonText) = .ok (.num (.float x)) := by
  obtain ⟨n, hn⟩ := laidOut_jsonText hx
  obtain ⟨hgreatest, hleading⟩ := exponents_of_few (Binary64.exponent_shortest hx) hfew hleast
  have hconverted := n.float?_eq_nearest (hn.digits.trans_lt hfew)
    (fun e he => (hn.power e he).trans_le hleading)
    ((le_min hleast (by decide)).trans hn.least)
    (hn.greatest.trans (max_le hgreatest (by decide)))
  exact hn.ofText_eq_num_iff.2 ⟨hn.integer?, hconverted.trans (hn.nearest_eq hx)⟩

end Json

end QueryPayload
