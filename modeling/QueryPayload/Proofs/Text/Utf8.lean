import Mathlib.Tactic.Lemma
import Mathlib.Tactic.SplitIfs
import QueryPayload.Text.Utf8

/-!
# UTF-8 is read back

Every list of characters has an encoding, and reading the encoding gives the characters back.

## Main results

* `Utf8.decode_encodeChar_append` — one character, with more behind it.
* `Utf8.decode_encode`, `Utf8.string_encode` — lists of characters and strings are read back.
-/

set_option relaxedAutoImplicit false
set_option autoImplicit false

namespace QueryPayload

namespace Utf8

/-- A character is the one that has its number, if it needs as many bytes as the least one. -/
lemma scalar?_toNat {least : Nat} {c : Char} (h : least ≤ c.toNat) :
    scalar? least c.toNat = some c := by
  have hvalid : c.toNat.isValidChar := c.valid
  rw [scalar?, dif_pos ⟨h, hvalid⟩]
  exact congrArg some (Char.ext (UInt32.toNat_inj.1 rfl))

/-- The payload of a continuation byte. -/
lemma tail?_ofNat {n : Nat} (h : n < 64) : tail? (UInt8.ofNat (n + 0x80)) = some n := by
  have hbyte : (UInt8.ofNat (n + 0x80)).toNat = n + 0x80 := by
    rw [UInt8.toNat_ofNat']
    omega
  rw [tail?, hbyte, if_pos (by omega), Nat.add_sub_cancel]

/-- The number of a leading byte. -/
lemma toNat_leading {n m : Nat} (h : n + m < 256) : (UInt8.ofNat (n + m)).toNat = n + m := by
  rw [UInt8.toNat_ofNat']
  omega

/-- The character that is spelled by two bytes. -/
lemma two?_of_toNat {c : Char} (h : 0x80 ≤ c.toNat ∧ c.toNat < 0x800) :
    two? (UInt8.ofNat (c.toNat / 64 % 32 + 0xC0)) (UInt8.ofNat (c.toNat % 64 + 0x80)) = some c := by
  have hnumber : (c.toNat / 64 % 32 + 0xC0 - 0xC0) * 64 + c.toNat % 64 = c.toNat := by omega
  have htail := tail?_ofNat (n := c.toNat % 64) (by omega)
  have hlead := toNat_leading (n := c.toNat / 64 % 32) (m := 0xC0) (by omega)
  simp only [two?, htail, hlead, Option.bind_eq_bind, Option.bind_some, hnumber]
  exact scalar?_toNat h.1

/-- The character that is spelled by three bytes. -/
lemma three?_of_toNat {c : Char} (h : 0x800 ≤ c.toNat ∧ c.toNat < 0x10000) :
    three? (UInt8.ofNat (c.toNat / 4096 % 16 + 0xE0)) (UInt8.ofNat (c.toNat / 64 % 64 + 0x80))
      (UInt8.ofNat (c.toNat % 64 + 0x80)) = some c := by
  have hnumber : ((c.toNat / 4096 % 16 + 0xE0 - 0xE0) * 64 + c.toNat / 64 % 64) * 64 +
      c.toNat % 64 = c.toNat := by omega
  have htail := tail?_ofNat (n := c.toNat % 64) (by omega)
  have htail' := tail?_ofNat (n := c.toNat / 64 % 64) (by omega)
  have hlead := toNat_leading (n := c.toNat / 4096 % 16) (m := 0xE0) (by omega)
  simp only [three?, htail, htail', hlead, Option.bind_eq_bind, Option.bind_some, hnumber]
  exact scalar?_toNat h.1

/-- The character that is spelled by four bytes. -/
lemma four?_of_toNat {c : Char} (h : 0x10000 ≤ c.toNat ∧ c.toNat < 0x110000) :
    four? (UInt8.ofNat (c.toNat / 262144 % 8 + 0xF0)) (UInt8.ofNat (c.toNat / 4096 % 64 + 0x80))
      (UInt8.ofNat (c.toNat / 64 % 64 + 0x80)) (UInt8.ofNat (c.toNat % 64 + 0x80)) = some c := by
  have hnumber : (((c.toNat / 262144 % 8 + 0xF0 - 0xF0) * 64 + c.toNat / 4096 % 64) * 64 +
      c.toNat / 64 % 64) * 64 + c.toNat % 64 = c.toNat := by omega
  have htail := tail?_ofNat (n := c.toNat % 64) (by omega)
  have htail' := tail?_ofNat (n := c.toNat / 64 % 64) (by omega)
  have htail'' := tail?_ofNat (n := c.toNat / 4096 % 64) (by omega)
  have hlead := toNat_leading (n := c.toNat / 262144 % 8) (m := 0xF0) (by omega)
  simp only [four?, htail, htail', htail'', hlead, Option.bind_eq_bind, Option.bind_some, hnumber]
  exact scalar?_toNat h.1

/-- **A character is read back** from its bytes, whatever follows them.

**Proof sketch.** One case for each number of bytes.  The leading byte says how many there are, and
the payload bits are the digits of the character's number in base 64. -/
theorem decode_encodeChar_append {c : Char} {bs : List UInt8} {cs : List Char}
    (h : decode bs = .ok cs) : decode (String.utf8EncodeChar c ++ bs) = .ok (c :: cs) := by
  have hmax : c.toNat < 0x110000 := by
    have hvalid : c.toNat.isValidChar := c.valid
    rw [Nat.isValidChar] at hvalid
    omega
  simp only [String.utf8EncodeChar, Char.toNat_val]
  split_ifs with h1 h2 h3
  · have hbyte : (UInt8.ofNat c.toNat).toNat = c.toNat := by
      rw [UInt8.toNat_ofNat']
      omega
    rw [List.cons_append, List.nil_append, decode.eq_def]
    simp only [hbyte]
    rw [if_pos (by omega), scalar?_toNat (Nat.zero_le _), h, cons]
  · have hlead := toNat_leading (n := c.toNat / 64 % 32) (m := 0xC0) (by omega)
    rw [List.cons_append, List.cons_append, decode.eq_def]
    simp only [List.nil_append, hlead]
    rw [if_neg (by omega), if_neg (by omega), if_pos (by omega), two?_of_toNat (by omega), h, cons]
  · have hlead := toNat_leading (n := c.toNat / 4096 % 16) (m := 0xE0) (by omega)
    rw [List.cons_append, List.cons_append, decode.eq_def]
    simp only [List.cons_append, List.nil_append, hlead]
    rw [if_neg (by omega), if_neg (by omega), if_neg (by omega), if_pos (by omega),
      three?_of_toNat (by omega), h, cons]
  · have hlead := toNat_leading (n := c.toNat / 262144 % 8) (m := 0xF0) (by omega)
    rw [List.cons_append, List.cons_append, decode.eq_def]
    simp only [List.cons_append, List.nil_append, hlead]
    rw [if_neg (by omega), if_neg (by omega), if_neg (by omega), if_neg (by omega),
      if_pos (by omega), four?_of_toNat (by omega), h, cons]

/-- **Characters are read back** from their encoding. -/
theorem decode_encode (cs : List Char) : decode (encode cs) = .ok cs := by
  induction cs with
  | nil => rfl
  | cons c cs ih => exact decode_encodeChar_append ih

/-- A string is read back from its bytes. -/
lemma string_encode (cs : List Char) : string (encode cs) = .ok (String.ofList cs) := by
  rw [string, decode_encode]
  rfl

/-- Characters one after the other are encoded one after the other. -/
lemma encode_append (cs ds : List Char) : encode (cs ++ ds) = encode cs ++ encode ds :=
  List.flatMap_append

/-- One text after the other has the bytes of one after those of the other. -/
lemma bytes_append (s t : String) : bytes (s ++ t) = bytes s ++ bytes t := by
  rw [bytes, String.toList_append, encode_append]
  rfl

end Utf8

end QueryPayload
