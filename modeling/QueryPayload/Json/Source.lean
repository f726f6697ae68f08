import QueryPayload.Json.Numeral
import QueryPayload.Json.Quoted
import QueryPayload.Json.Word

/-!
# Source trees

What a text says, as far as it says anything: a tree of values that keeps every entry of every
object, the place of each value, and the place where the text stops being JSON.

## Main definitions

* `Json.Source` — the tree; `Json.Items` and `Json.Entries` are the insides of arrays and objects.
* `Json.Source.scan` — the source tree of a whole text.
* `Json.Source.skipFault?` — why a value cannot be passed over, if it cannot.

## Design

A reader of typed values meets problems of two kinds, those of the text and those of the values,
and must report whichever comes first.  It may also pass over a value without reading it, and a
value that cannot be read can sometimes still be passed over: a string with a lone surrogate, a
number that is too large, a nesting that is too deep.  So a source tree is built by passing over
values, which never stops earlier than reading does, and records at each string, number and
bracket what a reader would meet there.  Readers are then plain recursions on the tree.

Where passing over a value fails there is nothing behind it; `Items.stop` and `Entries.stop` with
the stop `cut` close the branch there.  They are never looked at, since the value itself is refused
by everyone.

The recursion that builds the tree is bounded by a number computed from the length of the text,
which `Source.scan` hides.
-/

set_option relaxedAutoImplicit false
set_option autoImplicit false

namespace QueryPayload

namespace Json

/-- Why a list of items or entries has no further one. -/
inductive Stop where
  /-- The text ends where a comma or a closing bracket is wanted. -/
  | cut
  /-- Something else stands where a comma or a closing bracket is wanted. -/
  | stray
  /-- The text ends behind a comma. -/
  | commaCut
  /-- The closing bracket stands behind a comma. -/
  | commaClose
  /-- Something that is no key stands where a key is wanted. -/
  | keyless
  deriving DecidableEq, Repr

namespace Stop

/-- What a reader of an array says about a stop. -/
def listCause : Stop → Fault.Cause
  | .cut => .endInList
  | .stray => .expectedListCommaOrEnd
  | .commaCut => .endInValue
  | .commaClose => .trailingComma
  | .keyless => .expectedValue

/-- What is said about a stop in an array that is passed over. -/
def listSkipCause : Stop → Fault.Cause
  | .commaClose => .expectedValue
  | s => s.listCause

/-- What is said about a stop when an array is closed with items left. -/
def listCloseCause : Stop → Fault.Cause
  | .cut => .endInList
  | .commaClose => .trailingComma
  | _ => .trailingCharacters

/-- What a reader of an object says about a stop. -/
def objectCause : Stop → Fault.Cause
  | .cut => .endInObject
  | .stray => .expectedObjectCommaOrEnd
  | .commaCut => .endInValue
  | .commaClose => .trailingComma
  | .keyless => .keyMustBeString

/-- What is said about a stop in an object that is passed over. -/
def objectSkipCause : Stop → Fault.Cause
  | .commaCut => .endInObject
  | .commaClose => .keyMustBeString
  | s => s.objectCause

end Stop

/-- The inside of an array whose items are given as `α`. -/
inductive Items (α : Type) where
  /-- The closing bracket is at the offset. -/
  | close (offset : Nat)
  /-- There is no further item, for the reason given, at the offset. -/
  | stop (why : Stop) (offset : Nat)
  /-- An item; `left` is where a reader stands that gives up behind it. -/
  | item (node : α) (left : Mark) (rest : Items α)
  deriving Repr

/-- A key of an object: what a reader makes of it, the offset behind it, and where a reader stands
that gives up there. -/
structure Key where
  text : Except Fault String
  stop : Nat
  left : Mark
  deriving Repr

/-- The inside of an object whose values are given as `α`. -/
inductive Entries (α : Type) where
  /-- The closing brace is at the offset. -/
  | close (offset : Nat)
  /-- There is no further entry, for the reason given, at the offset. -/
  | stop (why : Stop) (offset : Nat)
  /-- A key cannot be passed over: what a reader says about it, and what is said otherwise. -/
  | brokenKey (fault skipFault : Fault)
  /-- A key stands without a value. -/
  | unpaired (key : Key) (fault : Fault)
  /-- An entry; `left` is where a reader stands that gives up behind its value. -/
  | entry (key : Key) (node : α) (left : Mark) (rest : Entries α)
  deriving Repr

/-- A string, number or word, as a reader meets it. -/
inductive Scalar where
  | word (w : Word)
  | number (value : Except Fault Number)
  | text (value : Except Fault String)
  deriving Repr

/-- How a value that cannot be passed over begins. -/
inductive Beginning where
  /-- The text ends instead. -/
  | ended
  /-- With a quote. -/
  | quote
  /-- With some other byte. -/
  | other
  deriving DecidableEq, Repr

/-- What a text says at one place. -/
inductive Source where
  /-- A value without parts, from offset `start` to offset `stop`. -/
  | scalar (start : Nat) (value : Scalar) (stop : Nat)
  /-- No value, or one that is not followed through: what a reader says about it, and what is said
  when it is passed over. -/
  | broken (start : Nat) (beginning : Beginning) (fault skipFault : Fault)
  /-- An array; it is the `level`-th bracket opened and not closed. -/
  | array (start level : Nat) (items : Items Source)
  /-- An object; it is the `level`-th bracket opened and not closed. -/
  | object (start level : Nat) (entries : Entries Source)
  deriving Repr

namespace Source

/-- The offset at which a value begins. -/
def start : Source → Nat
  | .scalar start _ _ => start
  | .broken start _ _ _ => start
  | .array start _ _ => start
  | .object start _ _ => start

/-- The number of brackets a reader keeps open at most. -/
def maxLevel : Nat := 127

/-- What a reader says to a bracket at the given offset that would be the `level`-th open one. -/
def open? (start level : Nat) : Except Fault Unit :=
  if maxLevel < level then .error ⟨.tooDeep, .blaming start⟩ else .ok ()

/-- A value without parts, and the cursor behind it. -/
def scanScalar (c : Cursor) : Source × Option Cursor :=
  match c.rest with
  | [] =>
    let fault : Fault := ⟨.endInValue, .blaming c.offset⟩
    (.broken c.offset .ended fault fault, none)
  | b :: rest =>
    if b = Byte.quote then
      let inside : Cursor := ⟨c.offset + 1, rest⟩
      match Quoted.skip inside with
      | .ok after =>
        (.scalar c.offset (.text ((Quoted.scan inside).map (·.1))) after.offset, some after)
      | .error skipFault =>
        match Quoted.scan inside with
        | .error fault => (.broken c.offset .quote fault skipFault, none)
        | .ok _ => (.broken c.offset .quote skipFault skipFault, none)
    else if b = Byte.minus ∨ Byte.isDigit b then
      match Numeral.scan c with
      | .ok (n, after) =>
        (.scalar c.offset (.number (n.value after.offset)) after.offset, some after)
      | .error m => (.broken c.offset .other m.fault m.skipFault, none)
    else
      match Word.ofFirst? b with
      | some w =>
        match w.scan c with
        | .ok after => (.scalar c.offset (.word w) after.offset, some after)
        | .error fault => (.broken c.offset .other fault fault, none)
      | none =>
        let fault : Fault := ⟨.expectedValue, .blaming c.offset⟩
        (.broken c.offset .other fault fault, none)

mutual

/-- The value at the cursor behind its blanks, with `level` brackets open around it, and the
cursor behind the value if it can be passed over. -/
def scanValue (fuel level : Nat) (c : Cursor) : Source × Option Cursor :=
  match fuel with
  | 0 => scanScalar ⟨c.offset, []⟩
  | fuel + 1 =>
    let c := c.skipBlanks
    match c.rest with
    | b :: rest =>
      if b = Byte.openBracket then
        let (items, after) := scanItems fuel (level + 1) false ⟨c.offset + 1, rest⟩
        (.array c.offset (level + 1) items, after)
      else if b = Byte.openBrace then
        let (entries, after) := scanEntries fuel (level + 1) false ⟨c.offset + 1, rest⟩
        (.object c.offset (level + 1) entries, after)
      else scanScalar c
    | [] => scanScalar c

/-- The items from the cursor on, which stands behind an opening bracket or a comma. -/
def scanItems (fuel level : Nat) (comma : Bool) (c : Cursor) : Items Source × Option Cursor :=
  match fuel with
  | 0 => (.stop .cut c.offset, none)
  | fuel + 1 =>
    let c := c.skipBlanks
    match c.rest with
    | [] => (.stop (if comma then .commaCut else .cut) c.offset, none)
    | b :: rest =>
      if b = Byte.closeBracket then
        if comma then (.stop .commaClose c.offset, none)
        else (.close c.offset, some ⟨c.offset + 1, rest⟩)
      else
        let (node, after) := scanValue fuel level c
        match after with
        | none => (.item node (.seeing c.offset) (.stop .cut c.offset), none)
        | some after =>
          let left := after.leaveItem
          let c := after.skipBlanks
          match c.rest with
          | [] => (.item node left (.stop .cut c.offset), none)
          | b :: rest =>
            if b = Byte.comma then
              let (more, after) := scanItems fuel level true ⟨c.offset + 1, rest⟩
              (.item node left more, after)
            else if b = Byte.closeBracket then
              (.item node left (.close c.offset), some ⟨c.offset + 1, rest⟩)
            else (.item node left (.stop .stray c.offset), none)

/-- The entries from the cursor on, which stands behind an opening brace or a comma. -/
def scanEntries (fuel level : Nat) (comma : Bool) (c : Cursor) :
    Entries Source × Option Cursor :=
  match fuel with
  | 0 => (.stop .cut c.offset, none)
  | fuel + 1 =>
    let c := c.skipBlanks
    match c.rest with
    | [] => (.stop (if comma then .commaCut else .cut) c.offset, none)
    | b :: rest =>
      if b = Byte.closeBrace then
        if comma then (.stop .commaClose c.offset, none)
        else (.close c.offset, some ⟨c.offset + 1, rest⟩)
      else if b = Byte.quote then
        let inside : Cursor := ⟨c.offset + 1, rest⟩
        match Quoted.skip inside with
        | .error skipFault =>
          match Quoted.scan inside with
          | .error fault => (.brokenKey fault skipFault, none)
          | .ok _ => (.brokenKey skipFault skipFault, none)
        | .ok after =>
          let key : Key :=
            ⟨(Quoted.scan inside).map (·.1), after.offset, after.leave Byte.closeBrace⟩
          let c := after.skipBlanks
          match c.rest with
          | [] => (.unpaired key ⟨.endInObject, .blaming c.offset⟩, none)
          | b :: rest =>
            if b = Byte.colon then
              let (node, after) := scanValue fuel level ⟨c.offset + 1, rest⟩
              match after with
              | none => (.entry key node (.seeing c.offset) (.stop .cut c.offset), none)
              | some after =>
                let left := after.leave Byte.closeBrace
                let c := after.skipBlanks
                match c.rest with
                | [] => (.entry key node left (.stop .cut c.offset), none)
                | b :: rest =>
                  if b = Byte.comma then
                    let (more, after) := scanEntries fuel level true ⟨c.offset + 1, rest⟩
                    (.entry key node left more, after)
                  else if b = Byte.closeBrace then
                    (.entry key node left (.close c.offset), some ⟨c.offset + 1, rest⟩)
                  else (.entry key node left (.stop .stray c.offset), none)
            else (.unpaired key ⟨.expectedColon, .blaming c.offset⟩, none)
      else (.stop .keyless c.offset, none)

end

/-- What stands behind the value of a text, if that is not just blanks. -/
def trailing? (after : Cursor) : Option Fault :=
  let c := after.skipBlanks
  if c.rest.isEmpty then none else some ⟨.trailingCharacters, .blaming c.offset⟩

/-- A bound for the recursion on a text of the given length: every value, item or entry takes two
steps at most for each byte it consumes. -/
def fuelFor (length : Nat) : Nat := 2 * length + 2

/-- The source tree of a text, and what is wrong behind its value. -/
def scan (text : List UInt8) : Source × Option Fault :=
  let (value, after) := scanValue (fuelFor text.length) 0 (.start text)
  (value, after.bind trailing?)

mutual

/-- Why a value cannot be passed over, if it cannot. -/
def skipFault? : Source → Option Fault
  | .scalar .. => none
  | .broken _ _ _ skipFault => some skipFault
  | .array _ _ items => skipItemsFault? items
  | .object _ _ entries => skipEntriesFault? entries

/-- Why the inside of an array cannot be passed over, if it cannot. -/
def skipItemsFault? : Items Source → Option Fault
  | .close _ => none
  | .stop why offset => some ⟨why.listSkipCause, .blaming offset⟩
  | .item node _ rest =>
    match skipFault? node with
    | some fault => some fault
    | none => skipItemsFault? rest

/-- Why the inside of an object cannot be passed over, if it cannot. -/
def skipEntriesFault? : Entries Source → Option Fault
  | .close _ => none
  | .stop why offset => some ⟨why.objectSkipCause, .blaming offset⟩
  | .brokenKey _ skipFault => some skipFault
  | .unpaired _ fault => some fault
  | .entry _ node _ rest =>
    match skipFault? node with
    | some fault => some fault
    | none => skipEntriesFault? rest

end

end Source

end Json

end QueryPayload
