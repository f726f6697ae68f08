import Mathlib.Data.List.Pairwise
import Mathlib.Data.List.Perm.Basic
import Mathlib.Tactic.Lemma
import QueryPayload.Proofs.Schema.Readings

/-!
# Records are read field by field

No two fields of a record answer to one key.  So a field can look for its value among all entries of
an object, and need not leave any to the fields behind it.  It has at most one there, so that their
order does not matter.

## Main definitions

* `Field.Apart` — two fields share no key.
* `Field.FoundIn`, `Tuple.FoundIn` — the value that a field has among some entries, and the values
  that the fields of a record have.

## Main results

* `Record.readFrom_iff_foundIn` — what the record that some entries make consists of.
* `Field.foundIn_congr_middle`, `Field.foundIn_middle_iff` — a field looks at its own entry only.
* `Json.read_obj_record_iff`, `read_arr_record_iff`, `read_list_iff` — what the nodes of a tree are
  read as.
-/

set_option relaxedAutoImplicit false
set_option autoImplicit false

namespace QueryPayload

/-! ## One field -/

namespace Field

/-- The keys of a field. -/
def keys (f : Field) : List String := f.key :: f.otherKey.toList

/-- Two fields share no key. -/
def Apart (f g : Field) : Prop := ∀ key ∈ f.keys, key ∉ g.keys

instance (f g : Field) : Decidable (Apart f g) :=
  inferInstanceAs (Decidable (∀ key ∈ f.keys, key ∉ g.keys))

/-- The value that a field has by its own entries: that of the only one, or the one it has without
any. -/
def GivenBy (f : Field) : List (String × Reading) → f.shape.Val → Prop
  | [], x => f.absentFromObject? = some x
  | [(_, read)], x => read f.shape = .ok x
  | _ :: _ :: _, _ => False

/-- The value that a field has among some entries. -/
def FoundIn (f : Field) (es : List (String × Reading)) (x : f.shape.Val) : Prop :=
  f.GivenBy (es.filter fun e => f.answersTo e.1) x

variable {f g : Field} {key : String} {es es' : List (String × Reading)} {x : f.shape.Val}

/-- A field answers to its keys. -/
lemma answersTo_iff : f.answersTo key = true ↔ key ∈ f.keys := by
  rw [answersTo, keys, List.mem_cons, Option.mem_toList, Bool.or_eq_true, beq_iff_eq, beq_iff_eq]

/-- A field that is apart from another one does not answer to its keys. -/
lemma Apart.answersTo_eq_false (h : Apart f g) (hf : f.answersTo key = true) :
    g.answersTo key = false :=
  Bool.eq_false_iff.2 fun hg => h key (answersTo_iff.1 hf) (answersTo_iff.1 hg)

instance : Std.Symm Apart := ⟨fun _ _ h key hg hf => h key hf hg⟩

/-- A field has the value that it has among its own entries. -/
lemma foundIn_congr
    (h : (es.filter fun e => f.answersTo e.1) = es'.filter fun e => f.answersTo e.1) :
    f.FoundIn es x ↔ f.FoundIn es' x := by
  rw [FoundIn, FoundIn, h]

/-- The entries of one field are no loss to another. -/
lemma Apart.foundIn_filter_iff (h : Apart g f) :
    f.FoundIn (es.filter fun e => !g.answersTo e.1) x ↔ f.FoundIn es x := by
  refine foundIn_congr ?_
  rw [List.filter_filter]
  refine List.filter_congr fun e _ => ?_
  cases hf : f.answersTo e.1 with
  | false => rfl
  | true => simp [(symm h : Apart f g).answersTo_eq_false hf]

/-- The value of a field is what its slot holds at the end, or the one it has without any. -/
lemma foundIn_iff_answered :
    f.FoundIn es x ↔
      ∃ slot, Slots.Answered f none (es.filter fun e => f.answersTo e.1) slot ∧
        slot.or f.absentFromObject? = some x := by
  rw [FoundIn]
  generalize (es.filter fun e => f.answersTo e.1) = own
  match own with
  | [] => simp [Slots.Answered, GivenBy]
  | [(_, read)] => simp [Slots.Answered, GivenBy, and_comm]
  | _ :: _ :: _ => simp [Slots.Answered, GivenBy]

/-- A field has the value that it has by its own entries in any order: there is one at most. -/
lemma GivenBy.perm (h : es.Perm es') (hgiven : f.GivenBy es x) : f.GivenBy es' x := by
  match es with
  | [] =>
    obtain rfl := List.nil_perm.1 h
    exact hgiven
  | [e] =>
    obtain rfl := List.singleton_perm.1 h
    exact hgiven
  | _ :: _ :: _ => exact hgiven.elim

/-- The order of entries does not matter to a field. -/
lemma foundIn_perm_iff (h : es.Perm es') : f.FoundIn es x ↔ f.FoundIn es' x :=
  ⟨.perm (h.filter _), .perm (h.symm.filter _)⟩

/-- A field does not look at an entry that it does not answer to. -/
lemma foundIn_middle_iff {e : String × Reading} (h : f.answersTo e.1 = false) :
    f.FoundIn (es ++ e :: es') x ↔ f.FoundIn (es ++ es') x :=
  foundIn_congr (by simp [h])

/-- A field looks at the value of its own entry as what it holds. -/
lemma foundIn_congr_middle {read read' : Reading}
    (h : ∀ y, read f.shape = .ok y ↔ read' f.shape = .ok y) (hkey : f.answersTo key = true) :
    f.FoundIn (es ++ (key, read) :: es') x ↔ f.FoundIn (es ++ (key, read') :: es') x := by
  simp only [FoundIn, List.filter_append, List.filter_cons, hkey, if_true]
  generalize (es.filter fun e => f.answersTo e.1) = own
  generalize (es'.filter fun e => f.answersTo e.1) = own'
  match own, own' with
  | [], [] => exact h x
  | [], _ :: _ => exact Iff.rfl
  | [_], _ => exact Iff.rfl
  | _ :: _ :: _, _ => exact Iff.rfl

end Field

/-! ## All fields of a record -/

namespace Tuple

/-- The values that fields have among some entries. -/
def FoundIn (es : List (String × Reading)) : (fs : List Field) → Tuple fs → Prop
  | [], _ => True
  | f :: fs, (x, xs) => f.FoundIn es x ∧ FoundIn es fs xs

variable {fs : List Field} {es es' : List (String × Reading)} {vs : Tuple fs}

/-- Fields have the same values wherever each of them has. -/
lemma foundIn_congr (h : ∀ f ∈ fs, ∀ x, f.FoundIn es x ↔ f.FoundIn es' x) :
    FoundIn es fs vs ↔ FoundIn es' fs vs := by
  induction fs with
  | nil => exact Iff.rfl
  | cons f fs ih =>
    obtain ⟨x, xs⟩ := vs
    obtain ⟨hf, hfs⟩ := List.forall_mem_cons.1 h
    exact and_congr (hf x) (ih hfs)

end Tuple

namespace Slots

variable {fs : List Field} {f : Field} {es : List (String × Reading)}

/-- The values of all fields are those of the slots, or those that fields have without any. -/
lemma finish_cons_eq_ok_iff {slot : Option f.shape.Val} {slots : Slots fs} {x : f.shape.Val}
    {xs : Tuple fs} :
    finish (f :: fs) (slot, slots) = .ok (x, xs) ↔
      slot.or f.absentFromObject? = some x ∧ finish fs slots = .ok xs := by
  rw [finish]
  cases slot.or f.absentFromObject? with
  | none => simp
  | some y => cases finish fs slots <;> simp

/-- **Entries that fill the slots of fields apart** give each of them the value that it has among
all of the entries.

**Proof sketch.** Induction on the fields.  The first field takes up the entries that answer to it.
The others lose nothing by that (`Field.Apart.foundIn_filter_iff`). -/
theorem filled_finish_iff_foundIn (h : fs.Pairwise Field.Apart) {vs : Tuple fs} :
    (∃ slots, Filled fs es (.empty fs) slots ∧ finish fs slots = .ok vs) ↔
      Tuple.FoundIn es fs vs := by
  induction fs generalizing es with
  | nil => exact ⟨fun _ => True.intro, fun _ => ⟨(), True.intro, rfl⟩⟩
  | cons f fs ih =>
    obtain ⟨x, xs⟩ := vs
    obtain ⟨hf, hfs⟩ := List.pairwise_cons.1 h
    have hrest : (∃ slots, Filled fs (es.filter fun e => !f.answersTo e.1) (.empty fs) slots ∧
        finish fs slots = .ok xs) ↔ Tuple.FoundIn es fs xs := by
      rw [ih hfs]
      exact Tuple.foundIn_congr fun g hg y => (hf g hg).foundIn_filter_iff
    rw [Tuple.FoundIn, ← hrest, Field.foundIn_iff_answered]
    constructor
    · rintro ⟨⟨slot, slots⟩, ⟨hanswered, hfilled⟩, hfinish⟩
      obtain ⟨hslot, hslots⟩ := finish_cons_eq_ok_iff.1 hfinish
      exact ⟨⟨slot, hanswered, hslot⟩, slots, hfilled, hslots⟩
    · rintro ⟨⟨slot, hanswered, hslot⟩, slots, hfilled, hslots⟩
      exact ⟨(slot, slots), ⟨hanswered, hfilled⟩, finish_cons_eq_ok_iff.2 ⟨hslot, hslots⟩⟩

end Slots

namespace Record

variable {r : Record} {es : List (String × Reading)} {v : r.Val}

/-- The fields of a record are apart from each other. -/
lemma pairwise_apart (r : Record) : r.fields.Pairwise Field.Apart := by
  cases r <;> decide

/-- The fields of a record that answer to one key are one field. -/
lemma eq_of_answersTo {f g : Field} (hf : f ∈ r.fields) (hg : g ∈ r.fields) {key : String}
    (hfkey : f.answersTo key = true) (hgkey : g.answersTo key = true) : f = g := by
  by_contra hne
  have hapart : Field.Apart f g := r.pairwise_apart.forall hf hg hne
  simp [hapart.answersTo_eq_false hfkey] at hgkey

/-- **Entries make a record** exactly if every field has a value among them and a record can be
built of these. -/
theorem readFrom_iff_foundIn :
    r.ReadFrom es v ↔ ∃ vs, Tuple.FoundIn es r.fields vs ∧ r.build vs = .ok v := by
  simp only [ReadFrom, ← Slots.filled_finish_iff_foundIn r.pairwise_apart]
  constructor
  · rintro ⟨slots, vs, hfilled, hfinish, hbuild⟩
    exact ⟨vs, ⟨slots, hfilled, hfinish⟩, hbuild⟩
  · rintro ⟨vs, ⟨slots, hfilled, hfinish⟩, hbuild⟩
    exact ⟨slots, vs, hfilled, hfinish, hbuild⟩

end Record

/-! ## Nodes of a tree -/

namespace Json

variable {r : Record} {entries : List (String × Json)} {items : List Json}

/-- Reading an object as a record, field by field. -/
lemma read_obj_record_iff {x : r.Val} :
    (obj entries).read (.record r) = .ok x ↔
      ∃ vs, Tuple.FoundIn (entryReadings entries) r.fields vs ∧ r.build vs = .ok x := by
  rw [← Record.readFrom_iff_foundIn, ← readRecord_eq_ok_iff, read, readAs]

/-- Reading an array as a record, field by field. -/
lemma read_arr_record_iff {x : r.Val} :
    (arr items).read (.record r) = .ok x ↔
      ∃ vs, Tuple.ReadFrom r.fields (items.map read) vs ∧ r.build vs = .ok x := by
  rw [← readRecordItems_eq_ok_iff, read, itemReadings_eq, readAs]

/-- Reading an array as a list, item by item. -/
lemma read_arr_list_iff {s : Shape} {xs : List s.Val} :
    (arr items).read (.list s) = .ok xs ↔
      List.Forall₂ (fun j x => j.read s = .ok x) items xs := by
  rw [read, itemReadings_eq, readAs, readList_eq_ok_iff, List.forall₂_map_left_iff]

/-- Only arrays are read as lists. -/
lemma read_list_iff {s : Shape} {v : Json} {xs : List s.Val} :
    v.read (.list s) = .ok xs ↔
      ∃ items, v = arr items ∧ List.Forall₂ (fun j x => j.read s = .ok x) items xs := by
  cases v with
  | arr items => simpa using read_arr_list_iff
  | _ => simp [read, readAs, wrongType]

end Json

end QueryPayload
