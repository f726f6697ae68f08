import Mathlib.Tactic.Lemma
import QueryPayload.Proofs.Schema.Fields

/-!
# Objects laid out as arrays

A record may be given as an object or as an array of its fields.  If all of its fields are required,
then both say the same: an object has one value under each key, and these values are the array.

## Main definitions

* `Json.parts?` — the values of the fields of a record, from an object or from an array.
* `Record.Plain` — every field is required and has one key.

## Main results

* `Json.read_plain_iff` — reading a plain record is reading its parts, each on its own.
-/

set_option relaxedAutoImplicit false
set_option autoImplicit false

namespace QueryPayload

/-- What stands under a key, if the key stands once among some entries. -/
def sole? {α : Type} (key : String) (entries : List (String × α)) : Option α :=
  match entries.filter (·.1 == key) with
  | [(_, a)] => some a
  | _ => none

namespace Json

/-- The values of some fields in an object. -/
def partsUnder? (entries : List (String × Json)) : List Field → Option (List Json)
  | [] => some []
  | f :: fs =>
    match sole? f.key entries, partsUnder? entries fs with
    | some v, some vs => some (v :: vs)
    | _, _ => none

/-- The values of the fields of a record in an object or in an array. -/
def parts? (r : Record) : Json → Option (List Json)
  | .obj entries => partsUnder? entries r.fields
  | .arr items => if items.length = r.fields.length then some items else none
  | _ => none

end Json

/-- A field that is required and has one key. -/
def Field.Plain (f : Field) : Prop := f.presence = .required ∧ f.otherKey = none

instance (f : Field) : Decidable f.Plain :=
  inferInstanceAs (Decidable (_ ∧ _))

/-- Every field of a record is required and has one key. -/
def Record.Plain (r : Record) : Prop := ∀ f ∈ r.fields, f.Plain

instance (r : Record) : Decidable r.Plain :=
  inferInstanceAs (Decidable (∀ f ∈ r.fields, f.Plain))

namespace Field

variable {f : Field} {entries : List (String × Json)} {x : f.shape.Val}

/-- A field with one key is given by what stands under its key. -/
lemma foundIn_entryReadings_iff (h : f.otherKey = none) :
    f.FoundIn (Json.entryReadings entries) x ↔
      f.GivenBy ((entries.filter (·.1 == f.key)).map fun e => (e.1, e.2.read)) x := by
  have hown : (Json.entryReadings entries).filter (fun e => f.answersTo e.1) =
      (entries.filter (·.1 == f.key)).map fun e => (e.1, e.2.read) := by
    rw [Json.entryReadings_eq, List.filter_map]
    refine congrArg _ (List.filter_congr fun e _ => ?_)
    simp [answersTo, h]
  rw [FoundIn, hown]

/-- A plain field is the value under its key. -/
lemma Plain.foundIn_iff (h : f.Plain) :
    f.FoundIn (Json.entryReadings entries) x ↔
      ∃ v, sole? f.key entries = some v ∧ v.read f.shape = .ok x := by
  have habsent : f.absentFromObject? = none := by rw [absentFromObject?, h.1]
  rw [foundIn_entryReadings_iff h.2, sole?]
  generalize entries.filter (·.1 == f.key) = own
  match own with
  | [] => simp [GivenBy, habsent]
  | [(_, v)] => simp [GivenBy]
  | _ :: _ :: _ => simp [GivenBy]

end Field

namespace Tuple

variable {fs : List Field} {entries : List (String × Json)} {vs : Tuple fs}

/-- Plain fields are read from an object as they are from its values. -/
lemma foundIn_iff_of_plain (h : ∀ f ∈ fs, f.Plain) :
    FoundIn (Json.entryReadings entries) fs vs ↔
      ∃ items, Json.partsUnder? entries fs = some items ∧
        ReadFrom fs (items.map Json.read) vs := by
  induction fs with
  | nil => simp [FoundIn, Json.partsUnder?, ReadFrom]
  | cons f fs ih =>
    obtain ⟨x, xs⟩ := vs
    obtain ⟨hf, hfs⟩ := List.forall_mem_cons.1 h
    rw [FoundIn, hf.foundIn_iff, ih hfs, Json.partsUnder?]
    cases sole? f.key entries with
    | none => simp
    | some v => cases Json.partsUnder? entries fs <;> simp [ReadFrom]

/-- Plain fields are read from as many items as there are fields. -/
lemma ReadFrom.length_eq (h : ∀ f ∈ fs, f.Plain) {reads : List Reading}
    (hread : ReadFrom fs reads vs) : reads.length = fs.length := by
  induction fs generalizing reads with
  | nil =>
    obtain rfl : reads = [] := hread
    rfl
  | cons f fs ih =>
    obtain ⟨hf, hfs⟩ := List.forall_mem_cons.1 h
    cases reads with
    | nil =>
      have habsent : f.absentFromArray? = none := by rw [Field.absentFromArray?, hf.1]
      rw [ReadFrom, habsent] at hread
      cases hread.1
    | cons read reads => simpa using ih hfs hread.2

end Tuple

/-- **Reading a plain record** is reading its parts, whether it is an object or an array.

**Proof sketch.** In an object every field has the value under its key
(`Tuple.foundIn_iff_of_plain`); an array is its parts, if it has as many items as there are fields
(`Tuple.ReadFrom.length_eq`). -/
theorem Json.read_plain_iff {r : Record} (h : r.Plain) {v : Json} {x : r.Val} :
    v.read (.record r) = .ok x ↔
      ∃ items vs, v.parts? r = some items ∧ Tuple.ReadFrom r.fields (items.map read) vs ∧
        r.build vs = .ok x := by
  cases v with
  | obj entries =>
    refine read_obj_record_iff.trans ?_
    simp only [Tuple.foundIn_iff_of_plain h, parts?]
    constructor
    · rintro ⟨vs, ⟨items, hitems, hvs⟩, hbuild⟩
      exact ⟨items, vs, hitems, hvs, hbuild⟩
    · rintro ⟨items, vs, hitems, hvs, hbuild⟩
      exact ⟨vs, ⟨items, hitems, hvs⟩, hbuild⟩
  | arr items =>
    refine read_arr_record_iff.trans ?_
    simp only [parts?, Option.ite_none_right_eq_some, Option.some.injEq]
    constructor
    · rintro ⟨vs, hvs, hbuild⟩
      have hlength : items.length = r.fields.length := by simpa using hvs.length_eq h
      exact ⟨items, vs, ⟨hlength, rfl⟩, hvs, hbuild⟩
    · rintro ⟨items', vs, ⟨-, rfl⟩, hvs, hbuild⟩
      exact ⟨vs, hvs, hbuild⟩
  | _ => simp [read, readAs, wrongType, parts?]

end QueryPayload
