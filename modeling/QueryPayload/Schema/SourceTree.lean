import QueryPayload.Schema.Problem

/-!
# From source trees to JSON trees

## Main definitions

* `Repeats` — what is done with the second entry under one key of an object.
* `Json.Source.tree` — the JSON tree of a value, if the text holds one.

## Design

There are two ways to make a tree of a text.  Where the text is read for its own sake a later entry
replaces the value of an earlier one and leaves it at its place.  Where a node is kept as a tree in
order to be read again, a repeated key is refused, since what was lost once could not be found
again.  A repeated key is noticed when it has been read, before its value is.
-/

set_option relaxedAutoImplicit false
set_option autoImplicit false

namespace QueryPayload

/-- What is done with a key that an object already has. -/
inductive Repeats where
  /-- The later value replaces the earlier one, at its place. -/
  | lastWins
  /-- The object is refused. -/
  | refused
  deriving DecidableEq, Repr

namespace Json

/-- Entries with one more value: at the place of the first entry with its key, or at the end. -/
def putEntry (key : String) (value : Json) : List (String × Json) → List (String × Json)
  | [] => [(key, value)]
  | (k, v) :: es => if k = key then (k, value) :: es else (k, v) :: putEntry key value es

namespace Source

/-- A problem where a key is wanted. -/
def keyFailure (fault : Fault) : Failure := (Failure.ofFault fault).within .unknown

/-- What a reader says of an object that has no further entry, for the reason given. -/
def stopFailure (why : Stop) (offset : Nat) : Failure :=
  keyFailure ⟨why.objectCause, .blaming offset⟩

/-- What a reader says of an array that has no further item, for the reason given. -/
def listFailure (why : Stop) (offset : Nat) : Failure :=
  .ofFault ⟨why.listCause, .blaming offset⟩

/-- What a reader says to a bracket, if it does not open it. -/
def opening (start level : Nat) : Except Failure Unit := (open? start level).mapError .ofFault

/-- The text of a key that can be taken up when the given entries are there already. -/
def accept (repeats : Repeats) (done : List (String × Json)) (key : Key) :
    Except Failure String :=
  match key.text with
  | .error fault => .error (keyFailure fault)
  | .ok k =>
    match repeats with
    | .lastWins => .ok k
    | .refused =>
      if done.any (·.1 == k) then .error (.marked (.repeatedKey k) key.left) else .ok k

mutual

/-- The tree of a value. -/
def tree (repeats : Repeats) : Source → Except Failure Json
  | .scalar _ (.word .null) _ => .ok .null
  | .scalar _ (.word (.bool b)) _ => .ok (.bool b)
  | .scalar _ (.number (.ok n)) _ => .ok (.num n)
  | .scalar _ (.text (.ok s)) _ => .ok (.str s)
  | .scalar _ (.number (.error fault)) _ => .error (.ofFault fault)
  | .scalar _ (.text (.error fault)) _ => .error (.ofFault fault)
  | .broken _ _ fault _ => .error (.ofFault fault)
  | .array start level items =>
    match opening start level with
    | .error e => .error e
    | .ok () => (itemTrees repeats 0 items).map .arr
  | .object start level entries =>
    match opening start level with
    | .error e => .error e
    | .ok () => (entryTrees repeats [] entries).map .obj

/-- The trees of the items of an array, beginning with the item of the given index. -/
def itemTrees (repeats : Repeats) (index : Nat) : Items Source → Except Failure (List Json)
  | .close _ => .ok []
  | .stop why offset => .error (listFailure why offset)
  | .item node _ rest =>
    match tree repeats node with
    | .error e => .error (e.within (.index index))
    | .ok v => (itemTrees repeats (index + 1) rest).map (v :: ·)

/-- The entries of an object, of which some are done. -/
def entryTrees (repeats : Repeats) (done : List (String × Json)) :
    Entries Source → Except Failure (List (String × Json))
  | .close _ => .ok done
  | .stop why offset => .error (stopFailure why offset)
  | .brokenKey fault _ => .error (keyFailure fault)
  | .unpaired key fault =>
    match accept repeats done key with
    | .error e => .error e
    | .ok _ => .error (.ofFault fault)
  | .entry key node _ rest =>
    match accept repeats done key with
    | .error e => .error e
    | .ok k =>
      match tree repeats node with
      | .error e => .error (e.within (.key k))
      | .ok v => entryTrees repeats (putEntry k v done) rest

end

end Source

end Json

end QueryPayload
