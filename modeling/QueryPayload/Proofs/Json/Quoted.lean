import Mathlib.Tactic.IntervalCases
import Mathlib.Tactic.Lemma
import Mathlib.Tactic.SplitIfs
import QueryPayload.Json.Basic
import QueryPayload.Proofs.Json.Cursor
import QueryPayload.Proofs.Text.Utf8

/-!
# Strings are read back

A string that is written between quotes, with its escapes, is read as itself.

## Main results

* `Json.Quoted.scanBytes_escape` — one character.
* `Json.Quoted.scan_escaped`, `skip_escaped` — a whole string, read and passed over.
* `Json.Quoted.skipBytes_of_scanBytes` — what can be read can be passed over.
-/

set_option relaxedAutoImplicit false
set_option autoImplicit false

namespace QueryPayload

/-- A character of the ASCII range is its own byte. -/
lemma Utf8.encodeChar_of_lt {c : Char} (h : c.toNat < 0x80) :
    String.utf8EncodeChar c = [UInt8.ofNat c.toNat] := by
  have hle : c.val.toNat ≤ 0x7f := Nat.le_of_lt_succ h
  rw [String.utf8EncodeChar, if_pos hle]
  rfl

/-- All bytes of a character beyond the ASCII range are beyond it, too. -/
lemma Utf8.le_of_mem_encodeChar {c : Char} (h : 0x80 ≤ c.toNat) {b : UInt8}
    (hb : b ∈ String.utf8EncodeChar c) : 0x80 ≤ b.toNat := by
  have hascii : ¬ c.toNat ≤ 0x7f := by omega
  have hbyte : ∀ {n m : Nat}, n + m < 256 → 0x80 ≤ m → b = UInt8.ofNat (n + m) →
      0x80 ≤ b.toNat := by
    rintro n m hlt hle rfl
    rw [toNat_leading hlt]
    omega
  simp only [String.utf8EncodeChar, Char.toNat_val, if_neg hascii] at hb
  split_ifs at hb <;> simp only [List.mem_cons, List.not_mem_nil, or_false] at hb
  · rcases hb with hb | hb <;> exact hbyte (by omega) (by decide) hb
  · rcases hb with hb | hb | hb <;> exact hbyte (by omega) (by decide) hb
  · rcases hb with hb | hb | hb | hb <;> exact hbyte (by omega) (by decide) hb

namespace Json

namespace Quoted

/-- A byte that stands for itself in a string. -/
def Plain (b : UInt8) : Prop := b ≠ Byte.quote ∧ b ≠ Byte.backslash ∧ Byte.isControl b = false

/-- Bytes in front of others are in front of both. -/
lemma push_push (bs more : List UInt8) (x : Except Fault (List UInt8 × Cursor)) :
    push bs (push more x) = push (bs ++ more) x := by
  cases x with
  | error f => rfl
  | ok p => simp [push]

/-- Plain bytes are read as they are. -/
lemma scanBytes_plain {bs : List UInt8} (h : ∀ b ∈ bs, Plain b) (o : Nat) (rest : List UInt8) :
    scanBytes o (bs ++ rest) = push bs (scanBytes (o + bs.length) rest) := by
  induction bs generalizing o with
  | nil =>
    cases hrest : scanBytes o rest <;> simp [push, hrest]
  | cons b bs ih =>
    obtain ⟨⟨hquote, hbackslash, hcontrol⟩, hbs⟩ := List.forall_mem_cons.1 h
    rw [List.cons_append, scanBytes.eq_def]
    simp only [if_neg hquote, if_neg hbackslash, hcontrol, Bool.false_eq_true, if_false]
    rw [ih hbs, push_push, List.length_cons, Nat.add_assoc, Nat.add_comm 1]
    rfl

/-- A byte stands for itself unless its number is that of a quote, a backslash or a control
character. -/
lemma plain_iff {b : UInt8} : Plain b ↔ b.toNat ≠ 0x22 ∧ b.toNat ≠ 0x5C ∧ 0x20 ≤ b.toNat := by
  have hcontrol : Byte.isControl b = false ↔ 0x20 ≤ b.toNat := by
    rw [Byte.isControl, decide_eq_false_iff_not, UInt8.not_lt]
    exact UInt8.le_iff_toNat_le
  rw [Plain, hcontrol, ← UInt8.toNat_inj.ne, ← UInt8.toNat_inj.ne]
  exact Iff.rfl

/-- The bytes of a character that is not escaped are plain. -/
lemma plain_of_mem_encodeChar {c : Char} (hquote : c ≠ '"') (hbackslash : c ≠ '\\')
    (hcontrol : 0x20 ≤ c.toNat) : ∀ b ∈ String.utf8EncodeChar c, Plain b := by
  intro b hb
  rw [plain_iff]
  by_cases hascii : c.toNat < 0x80
  · rw [Utf8.encodeChar_of_lt hascii, List.mem_singleton] at hb
    have hb' : b.toNat = c.toNat := by
      rw [hb, UInt8.toNat_ofNat']
      omega
    rw [hb']
    exact ⟨fun h => hquote (Char.toNat_inj.1 h), fun h => hbackslash (Char.toNat_inj.1 h), hcontrol⟩
  · have hle := Utf8.le_of_mem_encodeChar (Nat.le_of_not_lt hascii) hb
    omega

/-- A backslash and a letter are read as the byte they stand for. -/
lemma scanBytes_letter {e b : UInt8} (he : e ≠ numberMark) (hb : simpleEscape? e = some b) (o : Nat)
    (rest : List UInt8) :
    scanBytes o (Byte.backslash :: e :: rest) = push [b] (scanBytes (o + 2) rest) := by
  have hquote : Byte.backslash ≠ Byte.quote := by decide
  rw [scanBytes.eq_def]
  simp only [if_neg hquote, if_true, if_neg he, hb]

/-- An escape by number is read as the character that has the number. -/
lemma scanBytes_number {h₁ h₂ h₃ h₄ : UInt8} {n : Nat} (hn : hex4? h₁ h₂ h₃ h₄ = some n)
    (hsmall : n < 0xD800) (o : Nat) (rest : List UInt8) :
    scanBytes o (Byte.backslash :: numberMark :: h₁ :: h₂ :: h₃ :: h₄ :: rest) =
      push (charBytes n) (scanBytes (o + 6) rest) := by
  have hquote : Byte.backslash ≠ Byte.quote := by decide
  have htrailing : isTrailing n = false := by
    rw [isTrailing, Bool.and_eq_false_iff]
    exact .inl (decide_eq_false (by omega))
  have hleading : isLeading n = false := by
    rw [isLeading, Bool.and_eq_false_iff]
    exact .inl (decide_eq_false (by omega))
  rw [scanBytes.eq_def]
  simp only [if_neg hquote, if_true, hn, htrailing, hleading, Bool.false_eq_true, if_false]

/-- The number of a control character is written with four digits. -/
lemma hex4?_hexPair : ∀ n < 0x20, ∃ h₃ h₄, Utf8.encode (hexPair n) = [h₃, h₄] ∧
    hex4? Byte.zero Byte.zero h₃ h₄ = some n := by
  intro n hn
  interval_cases n <;> exact ⟨_, _, rfl, rfl⟩

/-- The bytes of an escaped character are read as those of the character. -/
lemma scanBytes_escape (c : Char) (o : Nat) (rest : List UInt8) :
    scanBytes o (Utf8.encode (escape c) ++ rest) =
      push (String.utf8EncodeChar c) (scanBytes (o + (Utf8.encode (escape c)).length) rest) := by
  unfold escape
  split
  · exact scanBytes_letter (by decide) rfl o rest
  · exact scanBytes_letter (by decide) rfl o rest
  · exact scanBytes_letter (by decide) rfl o rest
  · exact scanBytes_letter (by decide) rfl o rest
  · exact scanBytes_letter (by decide) rfl o rest
  · exact scanBytes_letter (by decide) rfl o rest
  · exact scanBytes_letter (by decide) rfl o rest
  · rename_i hquote hbackslash _ _ _ _ _
    split
    · rename_i hcontrol
      obtain ⟨h₃, h₄, hpair, hhex⟩ := hex4?_hexPair c.toNat hcontrol
      have hbytes : Utf8.encode ('\\' :: 'u' :: '0' :: '0' :: hexPair c.toNat) =
          [Byte.backslash, numberMark, Byte.zero, Byte.zero, h₃, h₄] :=
        congrArg ([Byte.backslash, numberMark, Byte.zero, Byte.zero] ++ ·) hpair
      have hchar : charBytes c.toNat = String.utf8EncodeChar c := by
        rw [charBytes, Char.ofNat_toNat]
      have hnumber := scanBytes_number hhex (by omega) o rest
      rw [hchar] at hnumber
      rw [hbytes]
      exact hnumber
    · rename_i hcontrol
      rw [Utf8.encode, List.flatMap_singleton]
      exact scanBytes_plain
        (plain_of_mem_encodeChar hquote hbackslash (Nat.le_of_not_lt hcontrol)) o rest

/-- The bytes of escaped characters are read up to the closing quote. -/
lemma scanBytes_quoted (cs : List Char) (o : Nat) (rest : List UInt8) :
    scanBytes o (Utf8.encode (cs.flatMap escape) ++ Byte.quote :: rest) =
      .ok (Utf8.encode cs, ⟨o + (Utf8.encode (cs.flatMap escape)).length + 1, rest⟩) := by
  induction cs generalizing o with
  | nil =>
    rw [List.flatMap_nil, Utf8.encode, List.flatMap_nil, List.nil_append, scanBytes.eq_def]
    rfl
  | cons c cs ih =>
    rw [List.flatMap_cons, Utf8.encode_append, List.append_assoc, scanBytes_escape, ih,
      List.length_append, ← Nat.add_assoc]
    rfl

/-! ## Passing over strings -/

/-- What bytes are put in front of has been read. -/
lemma exists_of_push_eq_ok {front bs : List UInt8} {x : Except Fault (List UInt8 × Cursor)}
    {c : Cursor} (h : push front x = .ok (bs, c)) : ∃ more, x = .ok (more, c) := by
  cases x with
  | error f => cases h
  | ok p =>
    cases h
    exact ⟨p.1, rfl⟩

/-- An escape by number is passed over. -/
lemma skipBytes_number {h₁ h₂ h₃ h₄ : UInt8} {n : Nat} (hn : hex4? h₁ h₂ h₃ h₄ = some n) (o : Nat)
    (rest : List UInt8) :
    skipBytes o (Byte.backslash :: numberMark :: h₁ :: h₂ :: h₃ :: h₄ :: rest) =
      skipBytes (o + 6) rest := by
  have hquote : Byte.backslash ≠ Byte.quote := by decide
  rw [skipBytes.eq_def]
  simp only [if_neg hquote, if_true, hn, Option.isSome_some]

/-- What can be read can be passed over, and ends at the same place. -/
lemma skipBytes_of_scanBytes {o : Nat} {text bs : List UInt8} {c : Cursor}
    (h : scanBytes o text = .ok (bs, c)) : skipBytes o text = .ok c := by
  have hne : Byte.backslash ≠ Byte.quote := by decide
  fun_induction scanBytes o text generalizing bs c with
  -- the closing quote
  | case2 o rest =>
    cases h
    rw [skipBytes.eq_def]
    rfl
  -- a pair of surrogates, another escape by number, one by letter, and any other byte
  | case9 o _ _ _ _ _ hlead _ _ _ _ _ _ _ htrail _ _ _ ih =>
    obtain ⟨more, hmore⟩ := exists_of_push_eq_ok h
    rw [skipBytes_number ‹_›, skipBytes_number ‹_›]
    exact ih hmore
  | case14 o _ _ _ _ rest n hn _ _ _ ih =>
    obtain ⟨more, hmore⟩ := exists_of_push_eq_ok h
    rw [skipBytes_number hn]
    exact ih hmore
  | case16 o e rest hnumber b hb _ ih =>
    obtain ⟨more, hmore⟩ := exists_of_push_eq_ok h
    rw [skipBytes.eq_def]
    simp only [if_neg hne, if_true, if_neg hnumber, hb, Option.isSome_some]
    exact ih hmore
  | case19 o b rest hquote hbackslash hcontrol ih =>
    obtain ⟨more, hmore⟩ := exists_of_push_eq_ok h
    rw [skipBytes.eq_def]
    simp only [if_neg hquote, if_neg hbackslash, if_neg hcontrol]
    exact ih hmore
  -- what cannot be read
  | _ => cases h

/-! ## Whole strings -/

variable {s : String} {o : Nat} {rest : List UInt8}

/-- **A string is read back**, from behind its opening quote.

**Proof sketch.** The bytes collected are those of the characters of the string
(`scanBytes_quoted`), and these spell the string. -/
theorem scan_escaped :
    scan ⟨o, Utf8.encode (s.toList.flatMap escape) ++ Byte.quote :: rest⟩ =
      .ok (s, ⟨o + (Utf8.encode (s.toList.flatMap escape)).length + 1, rest⟩) := by
  simp only [scan, scanBytes_quoted, Utf8.string_encode, String.ofList_toList, bind, Except.bind,
    pure, Except.pure]

/-- A string is passed over, from behind its opening quote. -/
lemma skip_escaped :
    skip ⟨o, Utf8.encode (s.toList.flatMap escape) ++ Byte.quote :: rest⟩ =
      .ok ⟨o + (Utf8.encode (s.toList.flatMap escape)).length + 1, rest⟩ :=
  skipBytes_of_scanBytes (scanBytes_quoted s.toList o rest)

end Quoted

end Json

end QueryPayload
