import Mathlib.Tactic.Lemma
import QueryPayload.Proofs.Schema.OfSource
import QueryPayload.Proofs.Schema.Selections

/-!
# Failures point at the offending node

A failure carries a path.  The path leads from the node that was read to a node below it, through
places of known shapes, and that node fails for the same reason when it is read alone.

## Main definitions

* `Json.Part` — the parts of a node at a place of a shape, with the segments that lead to them and
  the shapes of their own places.
* `Json.Leads` — the nodes that paths lead to.

## Main results

* `Json.part_of_read_error` — a node fails by itself, or one of its parts does.
* `Json.leads_of_read_error` — the path of a failure leads to a node that fails by itself.
* `Json.leads_of_readSelection_error` — so does the path inside a selection.

## Implementation notes

A path ends at a selection, whose own failures tell the path from there; it also ends at the value
of an argument, which is refused as a whole.  So neither shape has parts here.
-/

set_option relaxedAutoImplicit false
set_option autoImplicit false

namespace QueryPayload

/-! ## Entries and items that fail -/

/-- The failure of a part is seen from the node with a segment in front. -/
lemma mapError_eq_error_iff {ε ε' α : Type} {g : ε → ε'} {x : Except ε α} {e : ε'} :
    x.mapError g = .error e ↔ ∃ e', x = .error e' ∧ g e' = e := by
  cases x <;> simp [Except.mapError]

/-- What fails behind a function failed before it. -/
lemma map_eq_error_iff {ε α β : Type} {f : α → β} {x : Except ε α} {e : ε} :
    x.map f = .error e ↔ x = .error e := by
  cases x <;> simp [Except.map]

/-- What a finished record fails with is met at the record itself. -/
lemma Record.path_of_conclude_error {r : Record} {values : Except Problem (Tuple r.fields)}
    {e : Failure} (h : r.conclude values = .error e) : e.path = [] := by
  cases values with
  | error problem =>
    cases h
    rfl
  | ok vs =>
    rw [conclude] at h
    cases hbuild : r.build vs with
    | error problem =>
      rw [hbuild] at h
      cases h
      rfl
    | ok v =>
      rw [hbuild] at h
      cases h

/-- No field of a selection has a second key. -/
lemma Selection.Kind.otherKey_eq_none (k : Selection.Kind) :
    ∀ f ∈ k.record.fields, f.otherKey = none := by
  cases k <;> decide

namespace Slots

variable {fs : List Field} {slots : Slots fs} {key : String} {read : Reading} {e : Failure}

/-- An entry that is not placed, and is not one of the first field, is not placed behind it. -/
lemma place?_error_of_cons {f : Field} {slot : Option f.shape.Val} (hkey : f.answersTo key = false)
    (h : place? key read (f :: fs) (slot, slots) = some (.error e)) :
    place? key read fs slots = some (.error e) := by
  simp only [place?, hkey, if_neg Bool.false_ne_true] at h
  cases hplace : place? key read fs slots with
  | none =>
    rw [hplace] at h
    cases h
  | some outcome =>
    rw [hplace] at h
    cases outcome with
    | ok next => cases h
    | error e' =>
      cases h
      rfl

/-- An entry that is not placed is a second one of its field, or is not read as its field. -/
lemma exists_of_place?_error (h : place? key read fs slots = some (.error e)) :
    ∃ f ∈ fs, f.answersTo key = true ∧
      (e = .of (.duplicateField f.key) ∨ read f.shape = .error e) := by
  induction fs with
  | nil => cases h
  | cons f fs ih =>
    obtain ⟨slot, slots⟩ := slots
    cases hkey : f.answersTo key with
    | true =>
      simp only [place?, hkey, if_true, Option.some.injEq] at h
      refine ⟨f, List.mem_cons_self, hkey, ?_⟩
      cases slot with
      | some v => exact .inl (Except.error.inj h).symm
      | none =>
        cases hread : read f.shape with
        | ok v =>
          rw [hread] at h
          cases h
        | error e' =>
          rw [hread] at h
          cases h
          exact .inr rfl
    | false =>
      obtain ⟨g, hg, hgkey⟩ := ih (place?_error_of_cons hkey h)
      exact ⟨g, List.mem_cons_of_mem _ hg, hgkey⟩

/-- An entry under a key of no field is not placed. -/
lemma place?_eq_none (h : ∀ f ∈ fs, f.answersTo key = false) : place? key read fs slots = none := by
  induction fs with
  | nil => rfl
  | cons f fs ih =>
    obtain ⟨slot, slots⟩ := slots
    obtain ⟨hf, hfs⟩ := List.forall_mem_cons.1 h
    simp [place?, hf, ih hfs]

/-- An entry under a key that none of the entries before it has is not placed only if it is not
read as its field. -/
lemma exists_of_place?_error_of_filled {es : List (String × Reading)}
    (hplain : ∀ f ∈ fs, f.otherKey = none) (hkey : key ∉ es.map (·.1))
    (hfilled : Filled fs es (.empty fs) slots) (h : place? key read fs slots = some (.error e)) :
    ∃ f ∈ fs, read f.shape = .error e := by
  induction fs generalizing es with
  | nil => cases h
  | cons f fs ih =>
    obtain ⟨slot, slots⟩ := slots
    obtain ⟨hanswered, hrest⟩ := hfilled
    obtain ⟨hf, hfs⟩ := List.forall_mem_cons.1 hplain
    cases hfkey : f.answersTo key with
    | true =>
      -- another entry of this field would have the same key
      have hown : es.filter (fun e => f.answersTo e.1) = [] := by
        refine List.filter_eq_nil_iff.2 fun entry hentry hanswers => hkey ?_
        rw [Field.answersTo_iff, Field.keys, hf, Option.toList_none, List.mem_singleton] at *
        exact List.mem_map.2 ⟨entry, hentry, hanswers.trans hfkey.symm⟩
      rw [hown] at hanswered
      obtain rfl : slot = none := hanswered
      simp only [place?, hfkey, if_true, Option.some.injEq] at h
      refine ⟨f, List.mem_cons_self, ?_⟩
      cases hread : read f.shape with
      | ok v =>
        rw [hread] at h
        cases h
      | error e' =>
        rw [hread] at h
        cases h
        rfl
    | false =>
      have hkey' : key ∉ (es.filter fun e => !f.answersTo e.1).map (·.1) := fun hmem =>
        hkey (List.map_subset _ (List.filter_subset_self _) hmem)
      obtain ⟨g, hg, hread⟩ := ih hfs hkey' hrest (place?_error_of_cons hfkey h)
      exact ⟨g, List.mem_cons_of_mem _ hg, hread⟩

/-- A slot takes up entries in any order. -/
lemma Answered.perm {f : Field} {es es' : List (String × Reading)} (h : es.Perm es')
    {slot slot' : Option f.shape.Val} (hanswered : Answered f slot es slot') :
    Answered f slot es' slot' := by
  match es with
  | [] =>
    obtain rfl := List.nil_perm.1 h
    exact hanswered
  | [entry] =>
    obtain rfl := List.singleton_perm.1 h
    exact hanswered
  | _ :: _ :: _ => exact hanswered.elim

/-- Entries fill slots in any order. -/
lemma Filled.perm {es es' : List (String × Reading)} (h : es.Perm es') {slots' : Slots fs}
    (hfilled : Filled fs es slots slots') : Filled fs es' slots slots' := by
  induction fs generalizing es es' with
  | nil => trivial
  | cons f fs ih =>
    obtain ⟨slot, slots⟩ := slots
    obtain ⟨slot', slots'⟩ := slots'
    obtain ⟨hanswered, hrest⟩ := hfilled
    exact ⟨hanswered.perm (h.filter _), ih (h.filter _) hrest⟩

end Slots

namespace Json

variable {r : Record} {e : Failure}

/-- Filling slots fails at the first entry that is not placed. -/
lemma exists_of_fillSlots_error {fs : List Field} {es : List (String × Reading)} {slots : Slots fs}
    (h : fillSlots fs es slots = .error e) :
    ∃ before key read behind next, es = before ++ (key, read) :: behind ∧
      fillSlots fs before slots = .ok next ∧
      next.place? key (fun s => (read s).mapError (Failure.within (.key key))) =
        some (.error e) := by
  induction es generalizing slots with
  | nil => cases h
  | cons entry es ih =>
    obtain ⟨key, read⟩ := entry
    rw [fillSlots] at h
    cases hplace : slots.place? key fun s => (read s).mapError (Failure.within (.key key)) with
    | none =>
      rw [hplace] at h
      obtain ⟨before, key', read', behind, next, rfl, hbefore, herror⟩ := ih h
      refine ⟨(key, read) :: before, key', read', behind, next, rfl, ?_, herror⟩
      rw [fillSlots, hplace]
      exact hbefore
    | some outcome =>
      rw [hplace] at h
      cases outcome with
      | error e' =>
        cases h
        exact ⟨[], key, read, es, slots, rfl, rfl, hplace⟩
      | ok placed =>
        obtain ⟨before, key', read', behind, next, rfl, hbefore, herror⟩ := ih h
        refine ⟨(key, read) :: before, key', read', behind, next, rfl, ?_, herror⟩
        rw [fillSlots, hplace]
        exact hbefore

/-- Reading a list fails at an item. -/
lemma exists_of_readList_error {s : Shape} {items : List Json} {i : Nat}
    (h : readList s i (items.map read) = .error e) :
    ∃ (j : Nat) (w : Json) (e' : Failure), items[j]? = some w ∧ w.read s = .error e' ∧
      e = e'.within (.index (i + j)) := by
  induction items generalizing i with
  | nil => cases h
  | cons v items ih =>
    rw [List.map_cons, readList] at h
    cases hv : v.read s with
    | error e' =>
      rw [hv] at h
      cases h
      exact ⟨0, v, e', rfl, hv, rfl⟩
    | ok x =>
      rw [hv] at h
      cases hrest : readList s (i + 1) (items.map read) with
      | ok xs =>
        rw [hrest] at h
        cases h
      | error e' =>
        rw [hrest] at h
        cases h
        obtain ⟨j, w, e', hw, he', rfl⟩ := ih hrest
        exact ⟨j + 1, w, e', hw, he', by rw [Nat.add_right_comm, Nat.add_assoc]⟩

/-- Reading the items of an array as fields fails at an item, or because there are too few. -/
lemma exists_of_readTuple_error {fs : List Field} {items : List Json} {i : Nat}
    (h : readTuple r i fs (items.map read) = .error e) :
    e.path = [] ∨ ∃ (j : Nat) (f : Field) (w : Json) (e' : Failure),
      fs[j]? = some f ∧ items[j]? = some w ∧ w.read f.shape = .error e' ∧
        e = e'.within (.index (i + j)) := by
  induction fs generalizing i items with
  | nil => cases h
  | cons f fs ih =>
    cases items with
    | nil =>
      rw [List.map_nil, readTuple] at h
      cases hf : f.absentFromArray? with
      | none =>
        rw [hf] at h
        cases h
        exact .inl rfl
      | some x =>
        rw [hf] at h
        cases hrest : readTuple r (i + 1) fs [] with
        | ok xs =>
          rw [hrest] at h
          cases h
        | error e' =>
          rw [hrest] at h
          cases h
          have hempty : readTuple r (i + 1) fs ([].map read) = .error e := hrest
          refine (ih hempty).imp_right ?_
          rintro ⟨_, _, _, _, _, hw, _⟩
          cases hw
    | cons v items =>
      rw [List.map_cons, readTuple] at h
      cases hv : v.read f.shape with
      | error e' =>
        rw [hv] at h
        cases h
        exact .inr ⟨0, f, v, e', rfl, rfl, hv, rfl⟩
      | ok x =>
        rw [hv] at h
        cases hrest : readTuple r (i + 1) fs (items.map read) with
        | ok xs =>
          rw [hrest] at h
          cases h
        | error e' =>
          rw [hrest] at h
          cases h
          refine (ih hrest).imp_right ?_
          rintro ⟨j, g, w, e', hg, hw, he', rfl⟩
          exact ⟨j + 1, g, w, e', hg, hw, he', by rw [Nat.add_right_comm, Nat.add_assoc]⟩

/-! ## Parts -/

/-- The parts of a node at a place of a shape: the segment that leads to the part, the shape of the
place of the part, and the part itself. -/
inductive Part : Shape → Json → Segment → Shape → Json → Prop where
  /-- An entry of a record, under a key of a field. -/
  | entry {r : Record} {f : Field} {key : String} {w : Json} {entries : List (String × Json)}
    (hf : f ∈ r.fields) (hkey : f.answersTo key = true) (hw : (key, w) ∈ entries) :
    Part (.record r) (.obj entries) (.key key) f.shape w
  /-- An item of a record that is given as an array of its fields. -/
  | field {r : Record} {f : Field} {i : Nat} {w : Json} {items : List Json}
    (hf : r.fields[i]? = some f) (hw : items[i]? = some w) :
    Part (.record r) (.arr items) (.index i) f.shape w
  /-- An item of a list. -/
  | item {s : Shape} {i : Nat} {w : Json} {items : List Json} (hw : items[i]? = some w) :
    Part (.list s) (.arr items) (.index i) s w
  /-- A string of a list of strings of which each counts once. -/
  | name {i : Nat} {w : Json} {items : List Json} (hw : items[i]? = some w) :
    Part .names (.arr items) (.index i) .text w
  /-- What stands under the spelling of a kind. -/
  | kind {family : KindFamily} {name : String} {w : Json} :
    Part (.kind family) (.obj [(name, w)]) (.key name) .nothing w
  /-- The parts of a node that may be null. -/
  | optional {s s' : Shape} {v w : Json} {segment : Segment} (h : Part s v segment s' w) :
    Part (.optional s) v segment s' w

/-- The nodes that paths lead to from a node at a place of a shape, and the shapes of their own
places. -/
inductive Leads : Shape → Json → Path → Shape → Json → Prop where
  /-- A path of no segments leads nowhere else. -/
  | here (s : Shape) (v : Json) : Leads s v [] s v
  /-- A path leads on from a part. -/
  | part {s s' s'' : Shape} {v w u : Json} {segment : Segment} {path : Path}
    (hpart : Part s v segment s' w) (h : Leads s' w path s'' u) :
    Leads s v (segment :: path) s'' u

/-- A node at a place of a shape fails because one of its parts does. -/
def FailsInPart (s : Shape) (v : Json) (e : Failure) : Prop :=
  ∃ segment s' w e', Part s v segment s' w ∧ w.read s' = .error e' ∧ e = e'.within segment

/-- Entries of an object that do not make a record have one that fails, or do not go together. -/
lemma part_of_readRecord_error {es : List (String × Reading)} {entries : List (String × Json)}
    (hes : es ⊆ entryReadings entries) (h : readRecord r es = .error e) :
    e.path = [] ∨ FailsInPart (.record r) (.obj entries) e := by
  rw [readRecord] at h
  cases hfill : fillSlots r.fields es (.empty r.fields) with
  | ok slots =>
    rw [hfill] at h
    exact .inl (r.path_of_conclude_error h)
  | error e' =>
    rw [hfill] at h
    cases h
    obtain ⟨before, key, read, behind, next, rfl, -, hplace⟩ := exists_of_fillSlots_error hfill
    obtain ⟨f, hf, hkey, rfl | hread⟩ := Slots.exists_of_place?_error hplace
    · exact .inl rfl
    · obtain ⟨e', he', rfl⟩ := mapError_eq_error_iff.1 hread
      have hmem : (key, read) ∈ entryReadings entries := hes (by simp)
      rw [entryReadings_eq, List.mem_map] at hmem
      obtain ⟨⟨k, w⟩, hw, heq⟩ := hmem
      obtain ⟨rfl, rfl⟩ := Prod.mk.inj heq
      exact .inr ⟨_, _, w, e', .entry hf hkey hw, he', rfl⟩

/-- Items that do not make a record have one that fails, or are too few or too many. -/
lemma part_of_readRecordItems_error {items : List Json}
    (h : readRecordItems r (items.map read) = .error e) :
    e.path = [] ∨ FailsInPart (.record r) (.arr items) e := by
  rw [readRecordItems] at h
  cases htuple : readTuple r 0 r.fields (items.map read) with
  | error e' =>
    rw [htuple] at h
    cases h
    refine (exists_of_readTuple_error htuple).imp_right ?_
    rintro ⟨j, f, w, e', hf, hw, he', rfl⟩
    rw [Nat.zero_add]
    exact ⟨_, _, w, e', .field hf hw, he', rfl⟩
  | ok values =>
    obtain ⟨vs, left⟩ := values
    rw [htuple] at h
    cases left with
    | nil => exact .inl (r.path_of_conclude_error h)
    | cons _ _ =>
      cases h
      exact .inl rfl

/-- A string that spells no kind fails by itself. -/
lemma readKind_eq_error {family : KindFamily} {name : String}
    (h : readKind family name = .error e) : e = .of (.unknownKind name family) := by
  rw [readKind] at h
  cases hfind : family.find? name with
  | none =>
    rw [hfind] at h
    exact (Except.error.inj h).symm
  | some k =>
    rw [hfind] at h
    cases h

/-- An object that is no kind has something under its spelling, or does not spell one. -/
lemma part_of_readKindEntry_error {family : KindFamily} {entries : List (String × Json)}
    (h : readKindEntry family (entryReadings entries) = .error e) :
    e.path = [] ∨ FailsInPart (.kind family) (.obj entries) e := by
  match entries with
  | [] =>
    cases h
    exact .inl rfl
  | _ :: _ :: _ =>
    cases h
    exact .inl rfl
  | [(name, w)] =>
    rw [entryReadings, entryReadings, readKindEntry] at h
    cases hkind : readKind family name with
    | error e' =>
      rw [hkind] at h
      cases h
      obtain rfl := readKind_eq_error hkind
      exact .inl rfl
    | ok k =>
      simp only [hkind] at h
      cases hw : w.read .nothing with
      | ok x =>
        rw [hw] at h
        cases h
      | error e' =>
        rw [hw] at h
        cases h
        exact .inr ⟨_, _, w, e', .kind, hw, rfl⟩

/-- A selection fails as a whole. -/
lemma path_of_readSelection_error {es : List (String × Reading)}
    (h : readSelection es = .error e) : e.path = [] := by
  rw [readSelection] at h
  cases htake : takeOut? "kind" es with
  | none =>
    rw [htake] at h
    cases h
    rfl
  | some taken =>
    obtain ⟨read, rest⟩ := taken
    simp only [htake] at h
    cases hkind : read (.kind .selection) with
    | error e' =>
      rw [hkind] at h
      cases h
      rfl
    | ok k =>
      rw [hkind] at h
      cases hrest : readOfKind rest k with
      | error e' =>
        simp only [hrest] at h
        cases h
        rfl
      | ok sel =>
        simp only [hrest] at h
        cases h

/-- A node of a wrong type fails by itself. -/
lemma path_of_wrongType_error {s : Shape} {v : Json}
    (h : wrongType (α := s.Val) v s = .error e) : e.path = [] := by
  cases h
  rfl

/-- A node that is no string fails by itself where a string is wanted. -/
lemma path_of_read_text_error {v : Json} (h : v.read .text = .error e) : e.path = [] := by
  cases v with
  | str t => cases h
  | _ => exact path_of_wrongType_error h

/-- A node that is no Boolean fails by itself where a Boolean is wanted. -/
lemma path_of_read_flag_error {v : Json} (h : v.read .flag = .error e) : e.path = [] := by
  cases v with
  | bool b => cases h
  | _ => exact path_of_wrongType_error h

/-- What is not null is of a wrong type where nothing is wanted. -/
lemma read_nothing_eq_error {v : Json} (h : v.read .nothing = .error e) :
    e = .of (.wrongType (.ofJson v) "unit") := by
  cases v with
  | null => cases h
  | _ => exact (Except.error.inj h).symm

/-- A node that is not null fails by itself where nothing is wanted. -/
lemma path_of_read_nothing_error {v : Json} (h : v.read .nothing = .error e) : e.path = [] := by
  rw [read_nothing_eq_error h]
  rfl

/-- A node that is no kind fails by itself, or what stands under the spelling of the kind does. -/
lemma part_of_read_kind_error {family : KindFamily} {v : Json}
    (h : v.read (.kind family) = .error e) : e.path = [] ∨ FailsInPart (.kind family) v e := by
  cases v with
  | str t =>
    obtain rfl := readKind_eq_error h
    exact .inl rfl
  | obj entries => exact part_of_readKindEntry_error h
  | _ => exact .inl (path_of_wrongType_error h)

/-- The value of an argument is refused as a whole. -/
lemma path_of_read_argumentValue_error {v : Json} (h : v.read .argumentValue = .error e) :
    e.path = [] := by
  have hread : v.read .argumentValue = readAs v [] [] .argumentValue := by cases v <;> rfl
  rw [hread, readAs] at h
  cases ha : ArgumentValue.ofJson? v with
  | ok a =>
    rw [ha] at h
    cases h
  | error n =>
    rw [ha] at h
    cases h
    rfl

/-- A selection is refused as a whole. -/
lemma path_of_read_selection_error {v : Json} (h : v.read .selection = .error e) :
    e.path = [] := by
  cases v with
  | obj entries => exact path_of_readSelection_error h
  | _ => exact path_of_wrongType_error h

/-- A node that is no list of names fails by itself, or one of its items does. -/
lemma part_of_read_names_error {v : Json} (h : v.read .names = .error e) :
    e.path = [] ∨ FailsInPart .names v e := by
  cases v with
  | arr items =>
    rw [read, itemReadings_eq, readAs, map_eq_error_iff] at h
    obtain ⟨j, w, e', hw, he', rfl⟩ := exists_of_readList_error h
    rw [Nat.zero_add]
    exact .inr ⟨_, _, w, e', .name hw, he', rfl⟩
  | _ => exact .inl (path_of_wrongType_error h)

/-- A node that is no record fails by itself, or what stands at one of the fields does. -/
lemma part_of_read_record_error {v : Json} (h : v.read (.record r) = .error e) :
    e.path = [] ∨ FailsInPart (.record r) v e := by
  cases v with
  | obj entries => exact part_of_readRecord_error (List.Subset.refl _) h
  | arr items =>
    rw [read, itemReadings_eq] at h
    exact part_of_readRecordItems_error h
  | _ => exact .inl (path_of_wrongType_error h)

/-- A node that is no list fails by itself, or one of its items does. -/
lemma part_of_read_list_error {s : Shape} {v : Json} (h : v.read (.list s) = .error e) :
    e.path = [] ∨ FailsInPart (.list s) v e := by
  cases v with
  | arr items =>
    rw [read, itemReadings_eq] at h
    obtain ⟨j, w, e', hw, he', rfl⟩ := exists_of_readList_error h
    rw [Nat.zero_add]
    exact .inr ⟨_, _, w, e', .item hw, he', rfl⟩
  | _ => exact .inl (path_of_wrongType_error h)

/-- A node that may be null fails as it does where it may not. -/
lemma part_of_read_optional_error {s : Shape} {v : Json}
    (ih : v.read s = .error e → e.path = [] ∨ FailsInPart s v e)
    (h : v.read (.optional s) = .error e) : e.path = [] ∨ FailsInPart (.optional s) v e := by
  by_cases hnull : v = .null
  · subst hnull
    cases h
  · rw [read_optional hnull, map_eq_error_iff] at h
    refine (ih h).imp_right ?_
    rintro ⟨segment, s', w, e', hpart, he', rfl⟩
    exact ⟨segment, s', w, e', .optional hpart, he', rfl⟩

/-- **A node fails by itself, or one of its parts does.**

**Proof sketch.** Where a node of another type stands, it fails by itself.  Everywhere else the
reader of the shape goes through the parts, and gives up at the first one that fails. -/
theorem part_of_read_error {s : Shape} {v : Json} (h : v.read s = .error e) :
    e.path = [] ∨ FailsInPart s v e := by
  induction s with
  | text => exact .inl (path_of_read_text_error h)
  | flag => exact .inl (path_of_read_flag_error h)
  | nothing => exact .inl (path_of_read_nothing_error h)
  | kind family => exact part_of_read_kind_error h
  | argumentValue => exact .inl (path_of_read_argumentValue_error h)
  | selection => exact .inl (path_of_read_selection_error h)
  | names => exact part_of_read_names_error h
  | record r => exact part_of_read_record_error h
  | list s _ => exact part_of_read_list_error h
  | optional s ih => exact part_of_read_optional_error ih h

/-- **The path of a failure leads to a node that fails by itself**, with the same problem.

**Proof sketch.** Induction on the path.  An empty one leads to the node that was read.  Another one
begins with the segment of a part that fails (`part_of_read_error`), and leads on from there. -/
theorem leads_of_read_error {s : Shape} {v : Json} (h : v.read s = .error e) :
    ∃ s' w, Leads s v e.path s' w ∧ w.read s' = .error ⟨[], e.problem, e.mark⟩ := by
  obtain ⟨path, problem, mark⟩ := e
  induction path generalizing s v with
  | nil => exact ⟨s, v, .here s v, h⟩
  | cons segment path ih =>
    obtain hnil | ⟨segment', s', w, e', hpart, he', heq⟩ := part_of_read_error h
    · cases hnil
    · cases heq
      obtain ⟨s'', u, hleads, hu⟩ := ih he'
      exact ⟨s'', u, .part hpart hleads, hu⟩

/-! ## Inside selections -/

/-- Reading entries as a selection of a kind is reading them as its record. -/
lemma readOfKind_eq_error_iff {es : List (String × Reading)} {k : Selection.Kind} :
    readOfKind es k = .error e ↔ readRecord k.record es = .error e := by
  cases k <;> exact Iff.rfl

/-- What is wrong with a kind is not inside a selection. -/
lemma problem_of_read_kind_error {family : KindFamily} {v : Json}
    (h : v.read (.kind family) = .error e) (k : Selection.Kind) (path : Path) (problem : Problem) :
    e.problem ≠ .inSelection k path problem := by
  cases v with
  | str t =>
    obtain rfl := readKind_eq_error h
    rintro ⟨⟩
  | obj entries =>
    -- an object with one entry stands for a kind, too, if the value of the entry is null
    rcases entries with _ | ⟨⟨name, w⟩, _ | ⟨_, _⟩⟩
    · cases h
      rintro ⟨⟩
    · rw [read, readAs, entryReadings, entryReadings, readKindEntry] at h
      cases hkind : readKind family name with
      | error e' =>
        rw [hkind] at h
        cases h
        obtain rfl := readKind_eq_error hkind
        rintro ⟨⟩
      | ok k' =>
        simp only [hkind] at h
        cases hw : w.read .nothing with
        | ok x =>
          rw [hw] at h
          cases h
        | error e' =>
          rw [hw] at h
          cases h
          obtain rfl := read_nothing_eq_error hw
          rintro ⟨⟩
    · cases h
      rintro ⟨⟩
  | _ =>
    cases h
    rintro ⟨⟩

/-- A selection with a problem inside: its kind is known, and what is left without it does not make
the record of its kind. -/
lemma exists_of_readSelection_error {entries : List (String × Json)} {k : Selection.Kind}
    {path : Path} {problem : Problem} (h : (obj entries).read .selection = .error e)
    (hproblem : e.problem = .inSelection k path problem) :
    kindOf? entries = some k ∧ ∃ (v : Json) (rest : List (String × Reading)) (mark : Option Mark),
      (entryReadings entries).Perm (("kind", v.read) :: rest) ∧
        readRecord k.record rest = .error ⟨path, problem, mark⟩ := by
  have hfst := map_fst_takeOut? "kind" (entryReadings entries)
  rw [read, readAs, readSelection] at h
  cases htake : takeOut? "kind" (entryReadings entries) with
  | none =>
    rw [htake] at h
    cases h
    cases hproblem
  | some taken =>
    obtain ⟨read, rest⟩ := taken
    have hperm := perm_of_takeOut? htake
    rw [htake, find?_entryReadings] at hfst
    cases hfind : entries.find? (·.1 == "kind") with
    | none =>
      rw [hfind] at hfst
      cases hfst
    | some entry =>
      obtain ⟨key, v⟩ := entry
      rw [hfind] at hfst
      cases hfst
      simp only [htake] at h
      rw [kindOf?, hfind]
      cases hkind : v.read (.kind .selection) with
      | error e' =>
        rw [hkind] at h
        cases h
        exact absurd hproblem (problem_of_read_kind_error hkind k path problem)
      | ok k' =>
        rw [hkind] at h
        cases hrest : readOfKind rest k' with
        | ok sel =>
          simp only [hrest] at h
          cases h
        | error e' =>
          simp only [hrest] at h
          cases h
          cases hproblem
          exact ⟨congrArg Except.toOption hkind, v, rest, e'.mark, hperm,
            readOfKind_eq_error_iff.1 hrest⟩

/-- Entries that do not make a record by themselves, and not because of one of them, do not make it
in another order and with an entry under a foreign key. -/
lemma readRecord_error_of_perm {r : Record} {es rest : List (String × Reading)} {key : String}
    {read : Reading} (hplain : ∀ f ∈ r.fields, f.otherKey = none)
    (hforeign : ∀ f ∈ r.fields, f.answersTo key = false) (hperm : es.Perm ((key, read) :: rest))
    (hnd : (es.map (·.1)).Nodup) (h : readRecord r rest = .error e) (hpath : e.path = []) :
    readRecord r es = .error e := by
  rw [readRecord] at h
  cases hfill : fillSlots r.fields rest (.empty r.fields) with
  | error e' =>
    rw [hfill] at h
    cases h
    obtain ⟨before, key', read', behind, next, rfl, hbefore, hplace⟩ :=
      exists_of_fillSlots_error hfill
    have hkey' : key' ∉ before.map (·.1) := by
      have hnd' := ((hperm.map (·.1)).nodup_iff.1 hnd).of_cons
      rw [List.map_append, List.nodup_append] at hnd'
      exact fun hmem => hnd'.2.2 key' hmem key' List.mem_cons_self rfl
    obtain ⟨f, -, hread⟩ :=
      Slots.exists_of_place?_error_of_filled hplain hkey' (fillSlots_eq_ok_iff.1 hbefore) hplace
    obtain ⟨e'', -, rfl⟩ := mapError_eq_error_iff.1 hread
    cases hpath
  | ok slots =>
    rw [hfill] at h
    have hread : ∀ s v, read s = .ok v ↔ read s = .ok v := fun _ _ => Iff.rfl
    have hfilled : Slots.Filled r.fields ((key, read) :: rest) (.empty r.fields) slots :=
      (Slots.filled_cons_iff hread).2
        (.inl ⟨Slots.place?_eq_none hforeign, fillSlots_eq_ok_iff.1 hfill⟩)
    rw [readRecord, fillSlots_eq_ok_iff.2 (hfilled.perm hperm.symm)]
    exact h

/-- **The path inside a selection leads to a node that fails by itself**, with the same problem, if
no key stands twice in the selection.  It leads from the selection, as a record of its kind.

**Proof sketch.** What is left without the kind does not make the record.  Because of one entry: the
entry stands in the selection, too.  By itself: then neither do all entries, since neither the kind
nor the order matters (`readRecord_error_of_perm`). -/
theorem leads_of_readSelection_error {v : Json} {k : Selection.Kind} {path : Path}
    {problem : Problem} (h : v.read .selection = .error e)
    (hproblem : e.problem = .inSelection k path problem) :
    e.path = [] ∧ ∃ entries, v = .obj entries ∧ kindOf? entries = some k ∧
      ((entries.map (·.1)).Nodup → ∃ s w mark, Leads (.record k.record) v path s w ∧
        w.read s = .error ⟨[], problem, mark⟩) := by
  cases v with
  | obj entries =>
    obtain ⟨hkind, u, rest, mark, hperm, hrest⟩ := exists_of_readSelection_error h hproblem
    refine ⟨path_of_readSelection_error h, entries, rfl, hkind, fun hnd => ?_⟩
    have hsubset : rest ⊆ entryReadings entries := fun entry hentry =>
      hperm.mem_iff.2 (List.mem_cons_of_mem _ hentry)
    cases path with
    | nil =>
      have hnd' : ((entryReadings entries).map (·.1)).Nodup := by
        rw [entryReadings_eq, List.map_map]
        exact hnd
      exact ⟨.record k.record, .obj entries, mark, .here _ _,
        readRecord_error_of_perm k.otherKey_eq_none k.answersTo_kind hperm hnd' hrest rfl⟩
    | cons segment path =>
      obtain hnil | ⟨segment', s', w, e', hpart, he', heq⟩ :=
        part_of_readRecord_error hsubset hrest
      · cases hnil
      · cases heq
        obtain ⟨s, n, hleads, hn⟩ := leads_of_read_error he'
        exact ⟨s, n, _, .part hpart hleads, hn⟩
  | _ =>
    cases h
    cases hproblem

end Json

end QueryPayload
