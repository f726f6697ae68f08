import QueryPayload.Schema.OfJson
import QueryPayload.Schema.SourceTree

/-!
# Reading source trees

## Main definitions

* `Json.Source.read` — reads a value of a text as a shape.

## Design

The recursion is that of `Json.read`: every part is given its reading, and the node chooses the
shapes its parts are read as.  A part of a text can also be passed over, so that a part is given as
a `Part`: its reading together with its source.

Problems come in the order of the text.  A problem of the values has no mark when it is met; the
innermost array or object around it gives it the mark where a reader stands that gives up there and
tries to close what it was reading.  Those marks are recorded in the source tree.

A selection and the value of an argument are first made a tree, in which no key may be repeated, and
then read as `Json.read` reads trees.
-/

set_option relaxedAutoImplicit false
set_option autoImplicit false

namespace QueryPayload

namespace Json

namespace Source

/-- A part of a node: what the text says there, and how that is read. -/
structure Part where
  source : Source
  read : Reading

/-- What a value is to someone who wants something else, and where a reader stands then. -/
def found : Source → Except Fault (Found × Mark)
  | .scalar _ (.word .null) stop => .ok (.null, .after stop)
  | .scalar _ (.word (.bool b)) stop => .ok (.bool b, .after stop)
  | .scalar _ (.number value) stop => value.map fun n => (.number n, .seeing stop)
  | .scalar _ (.text value) stop => value.map fun s => (.string s, .after stop)
  | .broken _ _ fault _ => .error fault
  | .array start _ _ => .ok (.sequence, .seeing start)
  | .object start _ _ => .ok (.map, .seeing start)

/-- A value of another type is wanted. -/
def wrongType {α : Type} (v : Source) (s : Shape) : Except Failure α :=
  match v.found with
  | .ok (what, mark) => .error (.marked (.wrongType what s.expectation) mark)
  | .error fault => .error (.ofFault fault)

/-- Reads every item of an array as one shape, beginning with the item of the given index. -/
def readList (s : Shape) (index : Nat) : Items Part → Except Failure (List s.Val)
  | .close _ => .ok []
  | .stop why offset => .error (listFailure why offset)
  | .item part left rest =>
    match part.read s with
    | .error e => .error ((e.within (.index index)).markedAt left)
    | .ok v =>
      match readList s (index + 1) rest with
      | .ok vs => .ok (v :: vs)
      | .error e => .error e

/-- Reads the items of an array as the fields of a record, beginning with the item of the given
index, and gives the items left over. -/
def readTuple (r : Record) (index : Nat) :
    (fs : List Field) → Items Part → Except Failure (Tuple fs × Items Part)
  | [], items => .ok ((), items)
  | f :: fs, .close offset =>
    match f.absentFromArray? with
    | none => .error (.marked (.wrongLength index r.lengthExpectation) (.after (offset + 1)))
    | some v =>
      match readTuple r (index + 1) fs (.close offset) with
      | .ok (vs, items) => .ok ((v, vs), items)
      | .error e => .error e
  | _ :: _, .stop why offset => .error (listFailure why offset)
  | f :: fs, .item part left rest =>
    match part.read f.shape with
    | .error e => .error ((e.within (.index index)).markedAt left)
    | .ok v =>
      match readTuple r (index + 1) fs rest with
      | .ok (vs, items) => .ok ((v, vs), items)
      | .error e => .error e

/-- Closes an array of which the given items have not been read. -/
def closeItems : Items Part → Except Failure Unit
  | .close _ => .ok ()
  | .stop why offset => .error (.ofFault ⟨why.listCloseCause, .blaming offset⟩)
  | .item part _ _ => .error (.ofFault ⟨.trailingCharacters, .blaming part.source.start⟩)

/-- The value under a key that belongs to a field: its reading, marked and with the key in front of
its path. -/
def entryReading (key : String) (left : Mark) (part : Part) : Reading := fun s =>
  (part.read s).mapError fun e => (e.within (.key key)).markedAt left

/-- Reads entries into slots, and gives the offset of the closing brace.  Entries whose key belongs
to no field are passed over. -/
def fillSlots (fs : List Field) :
    Entries Part → Slots fs → Except Failure (Slots fs × Nat)
  | .close offset, slots => .ok (slots, offset)
  | .stop why offset, _ => .error (stopFailure why offset)
  | .brokenKey fault _, _ => .error (keyFailure fault)
  | .unpaired key fault, slots =>
    match key.text with
    | .error keyFault => .error (keyFailure keyFault)
    | .ok k =>
      match slots.place? k fun _ => .error (.ofFault fault) with
      | some (.error e) => .error (e.markedAt key.left)
      | _ => .error (.ofFault fault)
  | .entry key part left rest, slots =>
    match key.text with
    | .error keyFault => .error (keyFailure keyFault)
    | .ok k =>
      match slots.place? k (entryReading k left part) with
      | some (.ok slots) => fillSlots fs rest slots
      | some (.error e) => .error (e.markedAt key.left)
      | none =>
        match part.source.skipFault? with
        | some fault => .error ((Failure.ofFault fault).within (.key k))
        | none => fillSlots fs rest slots

/-- Reads the inside of an object as a record. -/
def readRecord (r : Record) (entries : Entries Part) : Except Failure r.Val :=
  match fillSlots r.fields entries (.empty r.fields) with
  | .error e => .error e
  | .ok (slots, offset) =>
    match slots.finish with
    | .error problem => .error (.marked problem (.after (offset + 1)))
    | .ok vs => r.conclude (.ok vs)

/-- Reads the inside of an array as a record. -/
def readRecordItems (r : Record) (items : Items Part) : Except Failure r.Val :=
  match readTuple r 0 r.fields items with
  | .error e => .error e
  | .ok (vs, left) =>
    match closeItems left with
    | .error e => .error e
    | .ok () => r.conclude (.ok vs)

/-- The kind of the family that a string spells, which ends at the given offset. -/
def readKind (family : KindFamily) (name : String) (stop : Nat) :
    Except Failure family.Member :=
  match family.find? name with
  | some k => .ok k
  | none => .error (.marked (.unknownKind name family) (.after stop))

/-- Nothing that could be a kind begins at the offset. -/
def noKind {α : Type} (offset : Nat) : Except Failure α :=
  .error (.ofFault ⟨.expectedValue, .blaming offset⟩)

/-- Reads the inside of an object as a kind: its one key spells the kind, there is nothing under
it, and nothing follows. -/
def readKindEntry (family : KindFamily) : Entries Part → Except Failure family.Member
  | .close offset => noKind offset
  | .stop why offset => .error (.ofFault ⟨why.objectCause, .blaming offset⟩)
  | .brokenKey fault _ => .error (.ofFault fault)
  | .unpaired key fault =>
    match key.text with
    | .error keyFault => .error (.ofFault keyFault)
    | .ok name =>
      match readKind family name key.stop with
      | .error e => .error e
      | .ok _ => .error (.ofFault fault)
  | .entry key part left rest =>
    match key.text with
    | .error keyFault => .error (.ofFault keyFault)
    | .ok name =>
      match readKind family name key.stop with
      | .error e => .error e
      | .ok k =>
        match part.read .nothing with
        | .error e => .error (e.within (.key name))
        | .ok () =>
          match rest with
          | .close _ => .ok k
          | .stop .cut offset => .error (.ofFault ⟨.endInObject, .blaming offset⟩)
          | _ => .error (.ofFault ⟨.expectedValue, left⟩)

/-- Reads a node as a shape, given the parts it has as an array or as an object. -/
def readAs (v : Source) (items : Items Part) (entries : Entries Part) : Reading
  | .text =>
    match v with
    | .scalar _ (.text (.ok s)) _ => .ok s
    | v => wrongType v .text
  | .flag =>
    match v with
    | .scalar _ (.word (.bool b)) _ => .ok b
    | v => wrongType v .flag
  | .nothing =>
    match v with
    | .scalar _ (.word .null) _ => .ok ()
    | v => wrongType v .nothing
  | .kind family =>
    match v with
    | .scalar _ (.text (.ok name)) stop => readKind family name stop
    | .scalar _ (.text (.error fault)) _ => .error (.ofFault fault)
    | .broken _ .ended fault _ => .error (.ofFault fault)
    | .broken _ .quote fault _ => .error (.ofFault fault)
    | .object start level _ =>
      match opening start level with
      | .error e => .error e
      | .ok () => readKindEntry family entries
    | v => noKind v.start
  | .argumentValue =>
    match tree .refused v with
    | .error e => .error e
    | .ok j => j.read .argumentValue
  | .selection =>
    match tree .refused v with
    | .error e => .error e
    | .ok j => j.read .selection
  | .names =>
    match v with
    | .array start level _ =>
      match opening start level with
      | .error e => .error e
      | .ok () => (readList .text 0 items).map firstOccurrences
    | v => wrongType v .names
  | .record r =>
    match v with
    | .object start level _ =>
      match opening start level with
      | .error e => .error e
      | .ok () => readRecord r entries
    | .array start level _ =>
      match opening start level with
      | .error e => .error e
      | .ok () => readRecordItems r items
    | v => wrongType v (.record r)
  | .list s =>
    match v with
    | .array start level _ =>
      match opening start level with
      | .error e => .error e
      | .ok () => readList s 0 items
    | v => wrongType v (.list s)
  | .optional s =>
    match v with
    | .scalar _ (.word .null) _ => .ok none
    | v => (readAs v items entries s).map some

mutual

/-- Reads a value of a text as a shape. -/
def read : Source → Reading
  | .array start level items =>
    readAs (.array start level items) (itemParts items) (.close 0)
  | .object start level entries =>
    readAs (.object start level entries) (.close 0) (entryParts entries)
  | v => readAs v (.close 0) (.close 0)

/-- The items of an array as parts. -/
def itemParts : Items Source → Items Part
  | .close offset => .close offset
  | .stop why offset => .stop why offset
  | .item node left rest => .item ⟨node, node.read⟩ left (itemParts rest)

/-- The values of an object as parts. -/
def entryParts : Entries Source → Entries Part
  | .close offset => .close offset
  | .stop why offset => .stop why offset
  | .brokenKey fault skipFault => .brokenKey fault skipFault
  | .unpaired key fault => .unpaired key fault
  | .entry key node left rest => .entry key ⟨node, node.read⟩ left (entryParts rest)

end

end Source

end Json

end QueryPayload
