/-!
# UTF-8

Payload texts are byte sequences; the strings inside them are UTF-8.  This module reads and
writes that encoding over lists of bytes, one character at a time.

## Main definitions

* `Utf8.encode` — the bytes of a list of characters.
* `Utf8.decode` — the characters of a list of bytes, or the bytes left when it is ill formed.
* `Utf8.bytes` — the bytes of a string; `Utf8.string` — the string that bytes spell.

## Design

`decode` computes the scalar value a sequence spells and asks two questions of it: is it large
enough to need that many bytes, and is it a character at all?  Overlong forms fail the first and
surrogates and values beyond `0x10FFFF` the second, so no table of byte ranges is needed.  Where a
sequence spells no character, `decode` gives back the bytes from the first byte of that sequence
on: what precedes them is the longest beginning that is well formed.
-/

set_option relaxedAutoImplicit false
set_option autoImplicit false

namespace QueryPayload

namespace Utf8

/-- The bytes of a list of characters. -/
def encode (cs : List Char) : List UInt8 := cs.flatMap String.utf8EncodeChar

/-- The bytes of a string. -/
def bytes (s : String) : List UInt8 := encode s.toList

/-- The character with scalar value `n`, if there is one and its shortest spelling is as long
as that of `least`. -/
def scalar? (least n : Nat) : Option Char :=
  if h : least ≤ n ∧ n.isValidChar then some (Char.ofNatAux n h.2) else none

/-- The six payload bits of a continuation byte (`10xxxxxx`). -/
def tail? (b : UInt8) : Option Nat :=
  if 0x80 ≤ b.toNat ∧ b.toNat < 0xC0 then some (b.toNat - 0x80) else none

/-- The character spelled by a two-byte sequence. -/
def two? (a b : UInt8) : Option Char := do
  let y ← tail? b
  scalar? 0x80 ((a.toNat - 0xC0) * 64 + y)

/-- The character spelled by a three-byte sequence. -/
def three? (a b c : UInt8) : Option Char := do
  let y ← tail? b
  let z ← tail? c
  scalar? 0x800 (((a.toNat - 0xE0) * 64 + y) * 64 + z)

/-- The character spelled by a four-byte sequence. -/
def four? (a b c d : UInt8) : Option Char := do
  let y ← tail? b
  let z ← tail? c
  let w ← tail? d
  scalar? 0x10000 ((((a.toNat - 0xF0) * 64 + y) * 64 + z) * 64 + w)

/-- A character in front of what follows it.  The bytes `whole` are left if there is no such
character, and otherwise those that are left of what follows. -/
def cons (whole : List UInt8) :
    Option Char → Except (List UInt8) (List Char) → Except (List UInt8) (List Char)
  | some c, .ok cs => .ok (c :: cs)
  | some _, .error left => .error left
  | none, _ => .error whole

/-- The characters of a list of bytes, or the bytes from the first one on that begins no
character. -/
def decode : List UInt8 → Except (List UInt8) (List Char)
  | [] => .ok []
  | a :: s =>
    if a.toNat < 0x80 then cons (a :: s) (scalar? 0 a.toNat) (decode s)
    else if a.toNat < 0xC0 then .error (a :: s)
    else match s with
      | [] => .error [a]
      | b :: s =>
        if a.toNat < 0xE0 then cons (a :: b :: s) (two? a b) (decode s)
        else match s with
          | [] => .error [a, b]
          | c :: s =>
            if a.toNat < 0xF0 then cons (a :: b :: c :: s) (three? a b c) (decode s)
            else match s with
              | [] => .error [a, b, c]
              | d :: s =>
                if a.toNat < 0xF8 then cons (a :: b :: c :: d :: s) (four? a b c d) (decode s)
                else .error (a :: b :: c :: d :: s)

/-- The string a list of bytes spells, or the bytes left when it is ill formed. -/
def string (bs : List UInt8) : Except (List UInt8) String := (decode bs).map String.ofList

end Utf8

end QueryPayload
