import QueryPayload.Json.Cursor
import QueryPayload.Text.Utf8

/-!
# The strings of JSON

## Main definitions

* `Json.Quoted.scan` — the string whose opening quote has been passed.
* `Json.Quoted.skip` — the same without looking at what the string says.

## Design

Reading collects bytes, those of the text and those of the characters that escapes stand for, and
checks the encoding of the whole when the closing quote is reached.  Where the collected bytes are
ill formed, the place is counted back from there, by as many bytes as are left of them: it is that
of the first ill formed byte, unless escapes behind it take up more room than their characters.

Passing over a string checks only where it ends: escapes must have their form, but neither need
surrogates be paired nor bytes be well encoded.  Whatever can be read can be passed over, and ends
at the same place.
-/

set_option relaxedAutoImplicit false
set_option autoImplicit false

namespace QueryPayload

namespace Json

namespace Quoted

/-- The letter that begins an escape by number. -/
abbrev numberMark : UInt8 := 0x75

/-- The byte that a backslash and a letter stand for. -/
def simpleEscape? (b : UInt8) : Option UInt8 :=
  if b = Byte.quote ∨ b = Byte.backslash ∨ b = 0x2F then some b
  else if b = 0x62 then some 0x08
  else if b = 0x66 then some 0x0C
  else if b = 0x6E then some 0x0A
  else if b = 0x72 then some 0x0D
  else if b = 0x74 then some 0x09
  else none

/-- The number that four hexadecimal digits stand for. -/
def hex4? (a b c d : UInt8) : Option Nat := do
  let a ← Byte.hexValue? a
  let b ← Byte.hexValue? b
  let c ← Byte.hexValue? c
  let d ← Byte.hexValue? d
  return ((a * 16 + b) * 16 + c) * 16 + d

/-- Whether a number is a leading surrogate. -/
def isLeading (n : Nat) : Bool := 0xD800 ≤ n && n ≤ 0xDBFF

/-- Whether a number is a trailing surrogate. -/
def isTrailing (n : Nat) : Bool := 0xDC00 ≤ n && n ≤ 0xDFFF

/-- The number that a pair of surrogates stands for. -/
def paired (lead trail : Nat) : Nat := (lead - 0xD800) * 0x400 + (trail - 0xDC00) + 0x10000

/-- The bytes of the character with number `n`. -/
def charBytes (n : Nat) : List UInt8 := String.utf8EncodeChar (Char.ofNat n)

/-- Bytes in front of a string that is still being read. -/
def push (bs : List UInt8) :
    Except Fault (List UInt8 × Cursor) → Except Fault (List UInt8 × Cursor)
  | .ok (more, c) => .ok (bs ++ more, c)
  | .error f => .error f

/-- The bytes of the string from the cursor on, and the cursor behind its closing quote. -/
def scanBytes (o : Nat) : List UInt8 → Except Fault (List UInt8 × Cursor)
  | [] => .error ⟨.endInString, .after o⟩
  | b :: rest =>
    if b = Byte.quote then .ok ([], ⟨o + 1, rest⟩)
    else if b = Byte.backslash then
      match rest with
      | [] => .error ⟨.endInString, .after (o + 1)⟩
      | e :: rest =>
        if e = numberMark then
          match rest with
          | h₁ :: h₂ :: h₃ :: h₄ :: rest =>
            match hex4? h₁ h₂ h₃ h₄ with
            | none => .error ⟨.invalidEscape, .after (o + 6)⟩
            | some n =>
              if isTrailing n then .error ⟨.loneSurrogate, .after (o + 6)⟩
              else if isLeading n then
                -- A second escape must follow and complete the pair.
                match rest with
                | [] => .error ⟨.endInString, .after (o + 6)⟩
                | s :: rest =>
                  if s = Byte.backslash then
                    match rest with
                    | [] => .error ⟨.endInString, .after (o + 7)⟩
                    | u :: rest =>
                      if u = numberMark then
                        match rest with
                        | k₁ :: k₂ :: k₃ :: k₄ :: rest =>
                          match hex4? k₁ k₂ k₃ k₄ with
                          | none => .error ⟨.invalidEscape, .after (o + 12)⟩
                          | some m =>
                            if isTrailing m then
                              push (charBytes (paired n m)) (scanBytes (o + 12) rest)
                            else .error ⟨.loneSurrogate, .after (o + 12)⟩
                        | short => .error ⟨.endInString, .after (o + 8 + short.length)⟩
                      else .error ⟨.endOfHexEscape, .after (o + 8)⟩
                  else .error ⟨.endOfHexEscape, .after (o + 7)⟩
              else push (charBytes n) (scanBytes (o + 6) rest)
          | short => .error ⟨.endInString, .after (o + 2 + short.length)⟩
        else
          match simpleEscape? e with
          | some c => push [c] (scanBytes (o + 2) rest)
          | none => .error ⟨.invalidEscape, .after (o + 2)⟩
    else if Byte.isControl b then .error ⟨.controlCharacter, .after (o + 1)⟩
    else push [b] (scanBytes (o + 1) rest)

/-- The string from the cursor on, behind its opening quote. -/
def scan (c : Cursor) : Except Fault (String × Cursor) := do
  let (bs, after) ← scanBytes c.offset c.rest
  match Utf8.string bs with
  | .ok s => return (s, after)
  | .error left => throw ⟨.invalidUnicode, .after (after.offset - left.length)⟩

/-- The cursor behind the closing quote of the string from the cursor on.  A raw control
character is only looked at before it is refused. -/
def skipBytes (o : Nat) : List UInt8 → Except Fault Cursor
  | [] => .error ⟨.endInString, .after o⟩
  | b :: rest =>
    if b = Byte.quote then .ok ⟨o + 1, rest⟩
    else if b = Byte.backslash then
      match rest with
      | [] => .error ⟨.endInString, .after (o + 1)⟩
      | e :: rest =>
        if e = numberMark then
          match rest with
          | h₁ :: h₂ :: h₃ :: h₄ :: rest =>
            if (hex4? h₁ h₂ h₃ h₄).isSome then skipBytes (o + 6) rest
            else .error ⟨.invalidEscape, .after (o + 6)⟩
          | short => .error ⟨.endInString, .after (o + 2 + short.length)⟩
        else if (simpleEscape? e).isSome then skipBytes (o + 2) rest
        else .error ⟨.invalidEscape, .after (o + 2)⟩
    else if Byte.isControl b then .error ⟨.controlCharacter, .seeing o⟩
    else skipBytes (o + 1) rest

/-- Passes over the string from the cursor on, behind its opening quote. -/
def skip (c : Cursor) : Except Fault Cursor := skipBytes c.offset c.rest

end Quoted

end Json

end QueryPayload
