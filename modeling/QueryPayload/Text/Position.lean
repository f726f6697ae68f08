/-!
# Positions in a payload text

A problem met while reading a text is marked by the byte the reader stood at and by how it had
treated that byte.  The mark becomes a line and a column only when the problem is printed.

## Main definitions

* `Supply` — whether the bytes lie in memory or arrive one by one.
* `Mark` — an offset together with how the byte there was treated.
* `Position` — a line and a column; `Mark.position` computes it from the whole text.

## Design

Bytes before the offset have been consumed and always count.  The byte at the offset counts when
the problem is about it (`blamed`).  When the reader only looked at it (`seen`) it counts for a
stream, which had to fetch the byte to look at it, and does not count in memory.  Keeping the
three cases apart in the mark leaves one reader for both kinds of supply.
-/

set_option relaxedAutoImplicit false
set_option autoImplicit false

namespace QueryPayload

/-- Where the bytes of a text come from. -/
inductive Supply where
  /-- All bytes are at hand. -/
  | memory
  /-- The bytes arrive one by one, and looking at one fetches it. -/
  | stream
  deriving DecidableEq, Repr

/-- How a reader treated the byte it stands at. -/
inductive Regard where
  /-- It has not been looked at. -/
  | unseen
  /-- It has been looked at and left where it is. -/
  | seen
  /-- It is what is wrong. -/
  | blamed
  deriving DecidableEq, Repr

/-- A place in a text: the number of bytes consumed, and how the next one was treated. -/
structure Mark where
  offset : Nat
  regard : Regard
  deriving DecidableEq, Repr

namespace Mark

/-- After `n` bytes, none looked at beyond them. -/
abbrev after (n : Nat) : Mark := ⟨n, .unseen⟩

/-- At the byte of offset `n`, which has been looked at. -/
abbrev seeing (n : Nat) : Mark := ⟨n, .seen⟩

/-- At the byte of offset `n`, which is what is wrong. -/
abbrev blaming (n : Nat) : Mark := ⟨n, .blamed⟩

/-- How many bytes count as consumed at the mark, the text permitting. -/
def consumed (supply : Supply) (m : Mark) : Nat :=
  match m.regard, supply with
  | .unseen, _ => m.offset
  | .seen, .memory => m.offset
  | .seen, .stream => m.offset + 1
  | .blamed, _ => m.offset + 1

end Mark

/-- A place as a person counts it: lines from one, and the bytes consumed on the line. -/
structure Position where
  line : Nat
  column : Nat
  deriving DecidableEq, Repr

namespace Position

/-- The byte that ends a line. -/
def lineFeed : UInt8 := 0x0A

/-- The position reached from `p` by consuming one byte. -/
def step (p : Position) (b : UInt8) : Position :=
  if b = lineFeed then ⟨p.line + 1, 0⟩ else ⟨p.line, p.column + 1⟩

/-- The position reached by consuming all of `bs` from the start of a text. -/
def ofConsumed (bs : List UInt8) : Position := bs.foldl step ⟨1, 0⟩

/-- How a position is appended to a message. -/
def suffix (p : Position) : String :=
  " at line " ++ toString p.line ++ " column " ++ toString p.column

end Position

/-- The position of a mark in the text it was made in. -/
def Mark.position (supply : Supply) (text : List UInt8) (m : Mark) : Position :=
  Position.ofConsumed (text.take (m.consumed supply))

end QueryPayload
