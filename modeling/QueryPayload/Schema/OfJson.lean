import QueryPayload.Schema.Slots

/-!
# Reading JSON trees

## Main definitions

* `Json.read` — reads a tree as a shape.
* `Json.readRecord` — reads the entries of an object as a record.
* `takeOut?` — takes an entry out of an object.

## Design

Reading is a recursion over the tree: first every part is given its reading, a function that can
still read it as any shape, and then the node chooses the shapes its parts are read as.  So the
recursion needs no measure, and the rules of one node stand together in `Json.readAs`.

A selection gives up its entry `kind` before the other entries are read.  The last entry then takes
the place that became free, which shows only in which of two problems is met first.
-/

set_option relaxedAutoImplicit false
set_option autoImplicit false

namespace QueryPayload

/-- The value under a key, and the other entries, of which the last has taken its place. -/
def takeOut? {α : Type} (key : String) :
    List (String × α) → Option (α × List (String × α))
  | [] => none
  | (k, a) :: es =>
    if k = key then
      some (a, match es.getLast? with
        | some last => last :: es.dropLast
        | none => [])
    else (takeOut? key es).map fun (b, rest) => (b, (k, a) :: rest)

/-- The members of a list, each once, in the order of their first occurrence. -/
def firstOccurrences (names : List String) : List String :=
  names.foldl (fun seen name => if seen.contains name then seen else seen ++ [name]) []

namespace Json

/-- A value of another type is wanted. -/
def wrongType {α : Type} (v : Json) (s : Shape) : Except Failure α :=
  .error (.of (.wrongType (.ofJson v) s.expectation))

/-- Reads every item of an array as one shape, beginning with the item of the given index. -/
def readList (s : Shape) (index : Nat) : List Reading → Except Failure (List s.Val)
  | [] => .ok []
  | read :: reads =>
    match read s with
    | .error e => .error (e.within (.index index))
    | .ok v =>
      match readList s (index + 1) reads with
      | .ok vs => .ok (v :: vs)
      | .error e => .error e

/-- Reads the items of an array as the fields of a record, beginning with the item of the given
index, and gives the items left over. -/
def readTuple (r : Record) (index : Nat) :
    (fs : List Field) → List Reading → Except Failure (Tuple fs × List Reading)
  | [], reads => .ok ((), reads)
  | f :: fs, [] =>
    match f.absentFromArray? with
    | none => .error (.of (.wrongLength index r.lengthExpectation))
    | some v =>
      match readTuple r (index + 1) fs [] with
      | .ok (vs, reads) => .ok ((v, vs), reads)
      | .error e => .error e
  | f :: fs, read :: reads =>
    match read f.shape with
    | .error e => .error (e.within (.index index))
    | .ok v =>
      match readTuple r (index + 1) fs reads with
      | .ok (vs, reads) => .ok ((v, vs), reads)
      | .error e => .error e

/-- Reads entries into slots.  Entries whose key belongs to no field are passed over. -/
def fillSlots (fs : List Field) :
    List (String × Reading) → Slots fs → Except Failure (Slots fs)
  | [], slots => .ok slots
  | (key, read) :: es, slots =>
    match slots.place? key fun s => (read s).mapError (Failure.within (.key key)) with
    | none => fillSlots fs es slots
    | some (.ok slots) => fillSlots fs es slots
    | some (.error e) => .error e

/-- Reads the entries of an object as a record. -/
def readRecord (r : Record) (entries : List (String × Reading)) : Except Failure r.Val :=
  match fillSlots r.fields entries (.empty r.fields) with
  | .ok slots => r.conclude (slots.finish)
  | .error e => .error e

/-- Reads the items of an array as a record. -/
def readRecordItems (r : Record) (items : List Reading) : Except Failure r.Val :=
  match readTuple r 0 r.fields items with
  | .error e => .error e
  | .ok (vs, []) => r.conclude (.ok vs)
  | .ok (_, _ :: _) => .error (.of (.wrongLength items.length "fewer elements in array"))

/-- The kind of the family that a string spells. -/
def readKind (family : KindFamily) (name : String) : Except Failure family.Member :=
  match family.find? name with
  | some k => .ok k
  | none => .error (.of (.unknownKind name family))

/-- Reads an object as a kind: its one key spells the kind, and there is nothing under it. -/
def readKindEntry (family : KindFamily) :
    List (String × Reading) → Except Failure family.Member
  | [(name, read)] =>
    match readKind family name with
    | .error e => .error e
    | .ok k =>
      match read .nothing with
      | .ok () => .ok k
      | .error e => .error (e.within (.key name))
  | _ => .error (.of .notSingleKey)

/-- Reads the entries of a selection that are left without its kind. -/
def readOfKind (entries : List (String × Reading)) : Selection.Kind → Except Failure Selection
  | .booleanCondition => readRecord .booleanCondition entries
  | .field => readRecord .field entries
  | .fragmentSpread => readRecord .fragmentSpread entries
  | .typeCondition => readRecord .typeCondition entries

/-- Reads the entries of an object as a selection.  A problem inside is reported at the selection
as a whole, together with the path from there. -/
def readSelection (entries : List (String × Reading)) : Except Failure Selection :=
  match takeOut? "kind" entries with
  | none => .error (.of (.lacksField "Selection" "kind"))
  | some (read, rest) =>
    match read (.kind .selection) with
    | .error e => .error (.of e.problem)
    | .ok kind =>
      match readOfKind rest kind with
      | .ok selection => .ok selection
      | .error e => .error (.of (.inSelection kind e.path e.problem))

/-- Reads a node as a shape, given the readings of its items or entries. -/
def readAs (v : Json) (items : List Reading) (entries : List (String × Reading)) : Reading
  | .text =>
    match v with
    | .str s => .ok s
    | v => wrongType v .text
  | .flag =>
    match v with
    | .bool b => .ok b
    | v => wrongType v .flag
  | .nothing =>
    match v with
    | .null => .ok ()
    | v => wrongType v .nothing
  | .kind family =>
    match v with
    | .str s => readKind family s
    | .obj _ => readKindEntry family entries
    | v => wrongType v (.kind family)
  | .argumentValue =>
    match ArgumentValue.ofJson? v with
    | .ok a => .ok a
    | .error n => .error (.of (.unrepresentable n))
  | .selection =>
    match v with
    | .obj _ => readSelection entries
    | v => wrongType v .selection
  | .names =>
    match v with
    | .arr _ => (readList .text 0 items).map firstOccurrences
    | v => wrongType v .names
  | .record r =>
    match v with
    | .obj _ => readRecord r entries
    | .arr _ => readRecordItems r items
    | v => wrongType v (.record r)
  | .list s =>
    match v with
    | .arr _ => readList s 0 items
    | v => wrongType v (.list s)
  | .optional s =>
    match v with
    | .null => .ok none
    | v => (readAs v items entries s).map some

mutual

/-- Reads a tree as a shape. -/
def read : Json → Reading
  | .arr items => readAs (.arr items) (itemReadings items) []
  | .obj entries => readAs (.obj entries) [] (entryReadings entries)
  | v => readAs v [] []

/-- The readings of the items of an array. -/
def itemReadings : List Json → List Reading
  | [] => []
  | v :: vs => v.read :: itemReadings vs

/-- The readings of the entries of an object. -/
def entryReadings : List (String × Json) → List (String × Reading)
  | [] => []
  | (k, v) :: es => (k, v.read) :: entryReadings es

end

/-- The readings of items are the items' readings. -/
theorem itemReadings_eq (vs : List Json) : itemReadings vs = vs.map read := by
  induction vs with
  | nil => rfl
  | cons v vs ih => simp [itemReadings, ih]

/-- The readings of entries are the entries' readings. -/
theorem entryReadings_eq (es : List (String × Json)) :
    entryReadings es = es.map fun e => (e.1, e.2.read) := by
  induction es with
  | nil => rfl
  | cons e es ih => simp [entryReadings, ih]

end Json

end QueryPayload
