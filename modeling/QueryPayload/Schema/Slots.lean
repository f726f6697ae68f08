import QueryPayload.Schema.Shape

/-!
# Collecting the fields of a record

The entries of an object come in any order.  While they are read, the record is a row of slots, one
for each field.

## Main definitions

* `Reading` — how a node is read as each shape.
* `Slots` — a value or nothing for each field; `Slots.empty`.
* `Slots.place?` — reads an entry into the slot its key belongs to.
* `Slots.finish` — the values of all fields, once the entries are exhausted.

## Design

A record is refused at the second entry for one field, before its value is looked at, and at the end
for the first field, in the order of the record, that is absent and may not be.  An entry whose key
belongs to no field is left to the caller.
-/

set_option relaxedAutoImplicit false
set_option autoImplicit false

namespace QueryPayload

/-- How a node is read as each shape. -/
abbrev Reading := (s : Shape) → Except Failure s.Val

/-- A value or nothing for each field. -/
@[reducible] def Slots : List Field → Type
  | [] => Unit
  | f :: fs => Option f.shape.Val × Slots fs

namespace Slots

/-- No values. -/
def empty : (fs : List Field) → Slots fs
  | [] => ()
  | _ :: fs => (none, empty fs)

/-- The slots after an entry with the given key has been read; `none` if the key belongs to no
field. -/
def place? (key : String) (read : Reading) :
    (fs : List Field) → Slots fs → Option (Except Failure (Slots fs))
  | [], _ => none
  | f :: fs, (slot, slots) =>
    if f.answersTo key then
      some <|
        match slot with
        | some _ => .error (.of (.duplicateField f.key))
        | none =>
          match read f.shape with
          | .ok v => .ok (some v, slots)
          | .error e => .error e
    else
      match place? key read fs slots with
      | some (.ok slots) => some (.ok (slot, slots))
      | some (.error e) => some (.error e)
      | none => none

/-- The values of all fields. -/
def finish : (fs : List Field) → Slots fs → Except Problem (Tuple fs)
  | [], _ => .ok ()
  | f :: fs, (slot, slots) =>
    match slot.or f.absentFromObject? with
    | none => .error (.missingField f.key)
    | some v =>
      match finish fs slots with
      | .ok vs => .ok (v, vs)
      | .error e => .error e

end Slots

/-- The value of a finished record, or what keeps it from being one. -/
def Record.conclude (r : Record) (values : Except Problem (Tuple r.fields)) :
    Except Failure r.Val :=
  match values with
  | .error problem => .error (.of problem)
  | .ok vs =>
    match r.build vs with
    | .ok v => .ok v
    | .error problem => .error (.of problem)

end QueryPayload
