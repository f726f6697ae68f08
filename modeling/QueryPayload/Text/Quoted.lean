import QueryPayload.Text.Hidden

/-!
# Strings in messages

A string inside a message stands between double quotes, so that its ends and all its characters can
be seen.

## Main definitions

* `Text.quoted` — the string between quotes, with everything that would not show written out.

## Design

Quote and backslash stand behind a backslash; the null character, tab and the two line ends have
their letters; every other character that does not show by itself (`Text.isHidden`) is written as
its number in hexadecimal.  All other characters stand for themselves.
-/

set_option relaxedAutoImplicit false
set_option autoImplicit false

namespace QueryPayload

namespace Text

/-- A character of a quoted string. -/
def quotedChar (c : Char) : List Char :=
  match c with
  | '"' => ['\\', '"']
  | '\\' => ['\\', '\\']
  | '\t' => ['\\', 't']
  | '\r' => ['\\', 'r']
  | '\n' => ['\\', 'n']
  | '\x00' => ['\\', '0']
  | c =>
    if isHidden c then '\\' :: 'u' :: '\x7b' :: (Nat.toDigits 16 c.toNat ++ ['\x7d']) else [c]

/-- A string between quotes, as messages show it. -/
def quoted (s : String) : String :=
  String.ofList ('"' :: (s.toList.flatMap quotedChar ++ ['"']))

end Text

end QueryPayload
