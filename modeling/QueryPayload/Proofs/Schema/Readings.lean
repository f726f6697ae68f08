import Mathlib.Data.List.Forall2
import Mathlib.Tactic.Lemma
import QueryPayload.Schema.OfJson

/-!
# What the parts of a node are read as

The readers of nodes run through items and entries and give up at the first problem.  When they do
not give up, what they find can be said without running: each item of a list is read as its shape,
each field of a record has one entry or none.  This module says it, and shows that the readers of
trees find nothing else.

## Main definitions

* `Reading.Entails` — a reading finds whatever another one finds.
* `Slots.Filled` — the slots that some entries fill, field by field.
* `Tuple.ReadFrom` — the values that some items are read as, field by field.
* `Record.ReadFrom` — the record that some entries make.

## Main results

* `Json.readRecord_eq_ok_iff`, `readRecordItems_eq_ok_iff`, `readList_eq_ok_iff`,
  `readKindEntry_eq_ok_iff` — what the readers of trees find.
* `Slots.filled_cons_iff` — filling slots entry by entry is filling them field by field.
* `Json.readAs_mono` — a node finds as much as its parts do.

## Implementation notes

`Slots.Filled` is a recursion on the fields, while the readers are recursions on the entries.  The
order of the entries and those that belong to no field are gone in the former, so that entries which
are merged or passed over need no argument about the readers.
-/

set_option relaxedAutoImplicit false
set_option autoImplicit false

namespace QueryPayload

/-- One reading finds whatever the other one finds. -/
def Reading.Entails (p q : Reading) : Prop := ∀ s v, p s = .ok v → q s = .ok v

/-- Two entries have one key, and the second one's value finds whatever the first one's does. -/
def Reading.EntryEntails (e e' : String × Reading) : Prop := e.1 = e'.1 ∧ e.2.Entails e'.2

/-- Entries with the same keys, of which some are kept by their key. -/
lemma Reading.EntryEntails.filter {es es' : List (String × Reading)}
    (h : List.Forall₂ EntryEntails es es') (p : String → Bool) :
    List.Forall₂ EntryEntails (es.filter fun e => p e.1) (es'.filter fun e => p e.1) :=
  List.rel_filter (fun e e' (he : EntryEntails e e') => by simp [he.1]) h

/-- What is found does not depend on how errors are reported. -/
lemma mapError_eq_ok_iff {ε ε' α : Type} {g : ε → ε'} {x : Except ε α} {a : α} :
    x.mapError g = .ok a ↔ x = .ok a := by
  cases x <;> simp [Except.mapError]

/-- What is found behind a function. -/
lemma map_eq_ok_iff {ε α β : Type} {f : α → β} {x : Except ε α} {b : β} :
    x.map f = .ok b ↔ ∃ a, x = .ok a ∧ f a = b := by
  cases x <;> simp [Except.map]

/-! ## Slots -/

namespace Slots

/-- What the slot of a field becomes by the entries that belong to the field: it stays as it was
without any, and takes up one if it was free. -/
def Answered (f : Field) (slot : Option f.shape.Val) :
    List (String × Reading) → Option f.shape.Val → Prop
  | [], slot' => slot' = slot
  | [(_, read)], slot' => slot = none ∧ ∃ v, read f.shape = .ok v ∧ slot' = some v
  | _ :: _ :: _, _ => False

/-- What slots become by some entries: each field takes up those that answer to it, and leaves the
others to the fields behind. -/
def Filled : (fs : List Field) → List (String × Reading) → Slots fs → Slots fs → Prop
  | [], _, _, _ => True
  | f :: fs, es, (slot, slots), (slot', slots') =>
    Answered f slot (es.filter fun e => f.answersTo e.1) slot' ∧
      Filled fs (es.filter fun e => !f.answersTo e.1) slots slots'

variable {fs : List Field} {f : Field} {key : String} {read : Reading}
  {es : List (String × Reading)}

/-- The slot of a field that is taken takes up no entry. -/
lemma answered_some_iff {v : f.shape.Val} {slot' : Option f.shape.Val} :
    Answered f (some v) es slot' ↔ es = [] ∧ slot' = some v := by
  match es with
  | [] => simp [Answered]
  | [_] => simp [Answered]
  | _ :: _ :: _ => simp [Answered]

/-- The slot of a field that is free takes up the first entry, and no second one. -/
lemma answered_none_cons_iff {slot' : Option f.shape.Val} :
    Answered f none ((key, read) :: es) slot' ↔
      es = [] ∧ ∃ v, read f.shape = .ok v ∧ slot' = some v := by
  cases es <;> simp [Answered]

/-- Without entries slots stay as they are. -/
lemma filled_nil_iff {slots slots' : Slots fs} : Filled fs [] slots slots' ↔ slots' = slots := by
  induction fs with
  | nil => simp [Filled]
  | cons f fs ih =>
    obtain ⟨slot, slots⟩ := slots
    obtain ⟨slot', slots'⟩ := slots'
    simp [Filled, Answered, ih]

/-- **Filling slots by one more entry**: it is passed over if it belongs to no field, and is
otherwise placed before the others.

**Proof sketch.** Induction on the fields.  An entry that answers to the first field is the first of
those that do, and is placed if the slot is free; then the slot is taken and there must be no other.
An entry that does not answer to it is left to the fields behind. -/
theorem filled_cons_iff {placed : Reading} (h : ∀ s v, placed s = .ok v ↔ read s = .ok v)
    {slots slots' : Slots fs} :
    Filled fs ((key, read) :: es) slots slots' ↔
      (place? key placed fs slots = none ∧ Filled fs es slots slots') ∨
        ∃ next, place? key placed fs slots = some (.ok next) ∧ Filled fs es next slots' := by
  induction fs generalizing es with
  | nil => simp [Filled, place?]
  | cons f fs ih =>
    obtain ⟨slot, slots⟩ := slots
    obtain ⟨slot', slots'⟩ := slots'
    cases hkey : f.answersTo key with
    | true =>
      have hown : ((key, read) :: es).filter (fun e => f.answersTo e.1) =
          (key, read) :: es.filter fun e => f.answersTo e.1 := by simp [hkey]
      have hothers : ((key, read) :: es).filter (fun e => !f.answersTo e.1) =
          es.filter fun e => !f.answersTo e.1 := by simp [hkey]
      simp only [Filled, place?, hkey, hown, hothers, if_true]
      cases slot with
      -- a second entry of one field is refused, on both sides
      | some v => simp [answered_some_iff]
      | none =>
        rw [answered_none_cons_iff]
        cases hread : placed f.shape with
        | error e =>
          have hnone : ∀ v, read f.shape ≠ .ok v := fun v hv => by
            rw [(h f.shape v).2 hv] at hread
            cases hread
          simp [hnone]
        | ok v =>
          simp [(h f.shape v).1 hread, answered_some_iff]
    | false =>
      have hown : ((key, read) :: es).filter (fun e => f.answersTo e.1) =
          es.filter fun e => f.answersTo e.1 := by simp [hkey]
      have hothers : ((key, read) :: es).filter (fun e => !f.answersTo e.1) =
          (key, read) :: es.filter fun e => !f.answersTo e.1 := by simp [hkey]
      simp only [Filled, place?, hkey, hown, hothers, ih]
      cases place? key placed fs slots with
      | none => simp
      | some outcome =>
        cases outcome with
        | error e => simp
        | ok next => simp

/-- A slot takes up an entry as it does another one that finds as much. -/
lemma Answered.mono {es' : List (String × Reading)}
    (h : List.Forall₂ Reading.EntryEntails es es') {slot slot' : Option f.shape.Val}
    (hanswered : Answered f slot es slot') : Answered f slot es' slot' := by
  cases h with
  | nil => exact hanswered
  | cons he htail =>
    cases htail with
    | nil =>
      obtain ⟨hfree, v, hv, hslot'⟩ := hanswered
      exact ⟨hfree, v, he.2 f.shape v hv, hslot'⟩
    | cons _ _ => exact hanswered

/-- Entries fill slots as others do with the same keys and values that find as much. -/
lemma Filled.mono {es' : List (String × Reading)}
    (h : List.Forall₂ Reading.EntryEntails es es')
    {slots slots' : Slots fs} (hfilled : Filled fs es slots slots') :
    Filled fs es' slots slots' := by
  induction fs generalizing es es' with
  | nil => trivial
  | cons f fs ih =>
    obtain ⟨slot, slots⟩ := slots
    obtain ⟨slot', slots'⟩ := slots'
    obtain ⟨hanswered, hrest⟩ := hfilled
    have hown := Reading.EntryEntails.filter h f.answersTo
    have hothers := Reading.EntryEntails.filter h fun key => !f.answersTo key
    exact ⟨hanswered.mono hown, ih hothers hrest⟩

end Slots

/-! ## Records -/

/-- The record that some entries make. -/
def Record.ReadFrom (r : Record) (es : List (String × Reading)) (v : r.Val) : Prop :=
  ∃ slots vs, Slots.Filled r.fields es (.empty r.fields) slots ∧
    Slots.finish r.fields slots = .ok vs ∧ r.build vs = .ok v

/-- The values that some items are read as, one for each field; a field may stand for itself where
the items have come to an end. -/
def Tuple.ReadFrom : (fs : List Field) → List Reading → Tuple fs → Prop
  | [], reads, _ => reads = []
  | f :: fs, [], (v, vs) => f.absentFromArray? = some v ∧ ReadFrom fs [] vs
  | f :: fs, read :: reads, (v, vs) => read f.shape = .ok v ∧ ReadFrom fs reads vs

/-- Values are read from items as they are from others that find as much. -/
lemma Tuple.ReadFrom.mono {fs : List Field} {reads reads' : List Reading} {vs : Tuple fs}
    (h : List.Forall₂ Reading.Entails reads reads') (hread : Tuple.ReadFrom fs reads vs) :
    Tuple.ReadFrom fs reads' vs := by
  induction fs generalizing reads reads' with
  | nil =>
    cases h with
    | nil => exact hread
    | cons _ _ => cases hread
  | cons f fs ih =>
    cases h with
    | nil => exact hread
    | cons hp hps => exact ⟨hp _ _ hread.1, ih hps hread.2⟩

/-- A record is concluded if it can be built. -/
lemma Record.conclude_eq_ok_iff {r : Record} {values : Except Problem (Tuple r.fields)}
    {v : r.Val} :
    r.conclude values = .ok v ↔ ∃ vs, values = .ok vs ∧ r.build vs = .ok v := by
  cases values with
  | error problem => simp [conclude]
  | ok vs => cases hbuild : r.build vs <;> simp [conclude, hbuild]

/-- A record is made from entries as it is from others that find as much. -/
lemma Record.ReadFrom.mono {r : Record} {es es' : List (String × Reading)} {v : r.Val}
    (h : List.Forall₂ Reading.EntryEntails es es') (hread : r.ReadFrom es v) :
    r.ReadFrom es' v := by
  obtain ⟨slots, vs, hfilled, hrest⟩ := hread
  exact ⟨slots, vs, hfilled.mono h, hrest⟩

/-- The shapes for which a whole tree is kept before it is looked at. -/
def Shape.keepsTree : Shape → Bool
  | .argumentValue => true
  | .selection => true
  | .optional inner => inner.keepsTree
  | _ => false

/-! ## What the readers of trees find -/

namespace Json

variable {r : Record} {es es' : List (String × Reading)} {reads reads' : List Reading}

/-- Filling slots entry by entry. -/
lemma fillSlots_eq_ok_iff {fs : List Field} {slots slots' : Slots fs} :
    fillSlots fs es slots = .ok slots' ↔ Slots.Filled fs es slots slots' := by
  induction es generalizing slots with
  | nil => simp [fillSlots, Slots.filled_nil_iff, eq_comm]
  | cons e es ih =>
    obtain ⟨key, read⟩ := e
    have hplaced : ∀ s v, (read s).mapError (Failure.within (.key key)) = .ok v ↔
        read s = .ok v := fun s v => mapError_eq_ok_iff
    rw [fillSlots, Slots.filled_cons_iff hplaced]
    cases Slots.place? key (fun s => (read s).mapError (Failure.within (.key key))) fs slots with
    | none => simp [ih]
    | some outcome => cases outcome <;> simp [ih]

/-- Reading entries as a record. -/
lemma readRecord_eq_ok_iff {v : r.Val} : readRecord r es = .ok v ↔ r.ReadFrom es v := by
  rw [readRecord, Record.ReadFrom]
  cases hfill : fillSlots r.fields es (.empty r.fields) with
  | error e => simp [← fillSlots_eq_ok_iff, hfill]
  | ok slots => simp [← fillSlots_eq_ok_iff, hfill, Record.conclude_eq_ok_iff]

/-- Reading items as the fields of a record, where none is left over. -/
lemma readTuple_eq_ok_iff {i : Nat} {fs : List Field} {vs : Tuple fs} :
    readTuple r i fs reads = .ok (vs, []) ↔ Tuple.ReadFrom fs reads vs := by
  induction fs generalizing i reads with
  | nil => simp [readTuple, Tuple.ReadFrom]
  | cons f fs ih =>
    obtain ⟨v, vs⟩ := vs
    cases reads with
    | nil =>
      rw [readTuple, Tuple.ReadFrom, ← ih (i := i + 1)]
      cases f.absentFromArray? with
      | none => simp
      | some w =>
        rcases readTuple r (i + 1) fs [] with e | ⟨ws, left⟩ <;> simp [and_assoc]
    | cons read reads =>
      rw [readTuple, Tuple.ReadFrom, ← ih (i := i + 1)]
      cases read f.shape with
      | error e => simp
      | ok w =>
        rcases readTuple r (i + 1) fs reads with e | ⟨ws, left⟩ <;> simp [and_assoc]

/-- Reading items as a record. -/
lemma readRecordItems_eq_ok_iff {v : r.Val} :
    readRecordItems r reads = .ok v ↔
      ∃ vs, Tuple.ReadFrom r.fields reads vs ∧ r.build vs = .ok v := by
  simp only [← readTuple_eq_ok_iff (r := r) (i := 0), readRecordItems]
  rcases readTuple r 0 r.fields reads with e | ⟨vs, _ | _⟩ <;> simp [Record.conclude_eq_ok_iff]

/-- Reading items as one shape. -/
lemma readList_eq_ok_iff {s : Shape} {i : Nat} {vs : List s.Val} :
    readList s i reads = .ok vs ↔ List.Forall₂ (fun read v => read s = .ok v) reads vs := by
  induction reads generalizing i vs with
  | nil => simp [readList, eq_comm]
  | cons read reads ih =>
    rw [readList, List.forall₂_cons_left_iff]
    cases hread : read s with
    | error e => simp
    | ok v =>
      simp only [← ih (i := i + 1)]
      cases readList s (i + 1) reads <;> simp [eq_comm]

/-- Items are read as others are that find as much. -/
lemma readList_mono (h : List.Forall₂ Reading.Entails reads reads') {s : Shape} {i : Nat}
    {vs : List s.Val} (hread : readList s i reads = .ok vs) :
    readList s i reads' = .ok vs := by
  rw [readList_eq_ok_iff] at hread ⊢
  induction h generalizing vs with
  | nil => exact hread
  | cons hp _ ih =>
    cases hread with
    | cons hv hvs => exact .cons (hp _ _ hv) (ih hvs)

/-- Reading a string as a kind. -/
lemma readKind_eq_ok_iff {family : KindFamily} {name : String} {k : family.Member} :
    readKind family name = .ok k ↔ family.find? name = some k := by
  rw [readKind]
  cases family.find? name <;> simp

/-- Reading an object as a kind. -/
lemma readKindEntry_eq_ok_iff {family : KindFamily} {k : family.Member} :
    readKindEntry family es = .ok k ↔
      ∃ name read, es = [(name, read)] ∧ family.find? name = some k ∧
        read .nothing = .ok () := by
  match es with
  | [] => simp [readKindEntry]
  | _ :: _ :: _ => simp [readKindEntry]
  | [(name, read)] =>
    simp only [readKindEntry, readKind]
    cases hfind : family.find? name with
    | none => simp [hfind]
    | some k' => cases hread : read .nothing <;> simp [hfind, hread]

/-! ## Nodes -/

/-- A node finds whatever another one finds that reads its parts as lists, records and kinds alike,
apart from the shapes for which a whole tree is kept. -/
lemma readAs_of_parts {v : Json}
    (hlist : ∀ s vs, readList s 0 reads = .ok vs → readList s 0 reads' = .ok vs)
    (hitems : ∀ r x, readRecordItems r reads = .ok x → readRecordItems r reads' = .ok x)
    (hrecord : ∀ r x, readRecord r es = .ok x → readRecord r es' = .ok x)
    (hkind : ∀ family k, readKindEntry family es = .ok k → readKindEntry family es' = .ok k)
    {s : Shape} (hs : s.keepsTree = false) {x : s.Val} (hread : readAs v reads es s = .ok x) :
    readAs v reads' es' s = .ok x := by
  induction s with
  -- shapes that do not ask the parts
  | text => cases v <;> exact hread
  | flag => cases v <;> exact hread
  | nothing => cases v <;> exact hread
  | argumentValue => cases hs
  | selection => cases hs
  -- shapes that do
  | kind family =>
    cases v with
    | obj entries => exact hkind family x hread
    | _ => exact hread
  | names =>
    cases v with
    | arr items =>
      rw [readAs, map_eq_ok_iff] at hread ⊢
      obtain ⟨names, hnames, hx⟩ := hread
      exact ⟨names, hlist .text names hnames, hx⟩
    | _ => exact hread
  | record r =>
    cases v with
    | obj entries => exact hrecord r x hread
    | arr items => exact hitems r x hread
    | _ => exact hread
  | list s _ =>
    cases v with
    | arr items => exact hlist s x hread
    | _ => exact hread
  | optional s ih =>
    cases v with
    | null => exact hread
    | _ =>
      simp only [readAs, map_eq_ok_iff] at hread ⊢
      obtain ⟨y, hy, hx⟩ := hread
      exact ⟨y, ih hs hy, hx⟩

/-- Items are read as a record as others are that find as much. -/
lemma readRecordItems_mono (h : List.Forall₂ Reading.Entails reads reads') {x : r.Val}
    (hread : readRecordItems r reads = .ok x) : readRecordItems r reads' = .ok x := by
  rw [readRecordItems_eq_ok_iff] at hread ⊢
  obtain ⟨vs, hvs, hbuild⟩ := hread
  exact ⟨vs, hvs.mono h, hbuild⟩

/-- Entries are read as a record as others are that find as much. -/
lemma readRecord_mono (h : List.Forall₂ Reading.EntryEntails es es') {x : r.Val}
    (hread : readRecord r es = .ok x) : readRecord r es' = .ok x := by
  rw [readRecord_eq_ok_iff] at hread ⊢
  exact hread.mono h

/-- Entries are read as a kind as others are that find as much. -/
lemma readKindEntry_mono (h : List.Forall₂ Reading.EntryEntails es es') {family : KindFamily}
    {k : family.Member} (hread : readKindEntry family es = .ok k) :
    readKindEntry family es' = .ok k := by
  rw [readKindEntry_eq_ok_iff] at hread ⊢
  obtain ⟨name, read, rfl, hk, hnothing⟩ := hread
  cases h with
  | cons he htail =>
    cases htail
    exact ⟨_, _, rfl, he.1 ▸ hk, he.2 _ _ hnothing⟩

/-- **A node finds as much as its parts do**, apart from the shapes for which a whole tree is
kept. -/
theorem readAs_mono {v : Json} (hitems : List.Forall₂ Reading.Entails reads reads')
    (hentries : List.Forall₂ Reading.EntryEntails es es') {s : Shape}
    (hs : s.keepsTree = false) {x : s.Val} (hread : readAs v reads es s = .ok x) :
    readAs v reads' es' s = .ok x :=
  readAs_of_parts (fun _ _ => readList_mono hitems) (fun _ _ => readRecordItems_mono hitems)
    (fun _ _ => readRecord_mono hentries) (fun _ _ => readKindEntry_mono hentries) hs hread

end Json

end QueryPayload
