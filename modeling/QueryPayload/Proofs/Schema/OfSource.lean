import Mathlib.Tactic.Lemma
import QueryPayload.Proofs.Schema.Readings
import QueryPayload.Proofs.Schema.SourceTree
import QueryPayload.Schema.OfSource

/-!
# What the readers of source trees find

Where the inside of a node is closed, the readers of source trees find what those of trees find in
the readings of the parts.  They differ in the marks and the order of what they report only, and in
that they must be able to pass over the values that belong to no field.

## Main definitions

* `Json.Source.itemReads`, `entryReads` — the readings of the parts of a node.

## Main results

* `Json.Source.readRecord_eq_ok_iff`, `readRecordItems_eq_ok_iff`, `readList_eq_ok_iff`,
  `readKindEntry_eq_ok_iff` — what the readers of insides find.
* `Json.Source.readAs_array_eq_ok_iff`, `readAs_object_eq_ok_iff`, `readAs_scalar_eq_ok_iff` — a
  node is read as its tree is, given the readings of the same parts.
* `Json.Source.readAs_eq_ok_iff_of_keepsTree` — how a node is read of which a tree is kept.
-/

set_option relaxedAutoImplicit false
set_option autoImplicit false

namespace QueryPayload

namespace Json

/-- A tree that is not null is read as an optional value if it is read as one. -/
lemma read_optional {j : Json} {s : Shape} (h : j ≠ .null) :
    j.read (.optional s) = (j.read s).map some := by
  cases j with
  | null => exact absurd rfl h
  | _ => rfl

namespace Source

/-- The readings of the items of an array. -/
def itemReads (items : Items Part) : List Reading := items.toList.map Part.read

/-- The readings of the values of an object, under their keys. -/
def entryReads (entries : Entries Part) : List (String × Reading) :=
  entries.toList.map fun e => (e.1, e.2.read)

variable {r : Record} {items : Items Part} {entries : Entries Part}

/-! ## Arrays -/

/-- Reading items as one shape. -/
lemma readList_eq_ok_iff (hc : items.Closed) {s : Shape} {i : Nat} {vs : List s.Val} :
    readList s i items = .ok vs ↔
      List.Forall₂ (fun read v => read s = .ok v) (itemReads items) vs := by
  induction items generalizing i vs with
  | close _ => simp [readList, itemReads, Items.toList, eq_comm]
  | stop _ _ => exact hc.elim
  | item part left rest ih =>
    rw [readList, itemReads, Items.toList, List.map_cons, List.forall₂_cons_left_iff, ← itemReads]
    cases part.read s with
    | error e => simp
    | ok v =>
      simp only [← ih hc (i := i + 1)]
      cases readList s (i + 1) rest <;> simp [eq_comm]

/-- Reading items as the fields of a record, after which the array can be closed. -/
lemma readTuple_eq_ok_iff (hc : items.Closed) {i : Nat} {fs : List Field} {vs : Tuple fs} :
    (∃ left, readTuple r i fs items = .ok (vs, left) ∧ closeItems left = .ok ()) ↔
      Tuple.ReadFrom fs (itemReads items) vs := by
  induction fs generalizing i items with
  | nil =>
    cases items with
    | close _ => simp [readTuple, closeItems, Tuple.ReadFrom, itemReads, Items.toList]
    | stop _ _ => exact hc.elim
    | item part left rest =>
      simp [readTuple, closeItems, Tuple.ReadFrom, itemReads, Items.toList]
  | cons f fs ih =>
    obtain ⟨v, vs⟩ := vs
    cases items with
    | stop _ _ => exact hc.elim
    | close offset =>
      have hrest : (∃ left, readTuple r (i + 1) fs (.close offset) = .ok (vs, left) ∧
          closeItems left = .ok ()) ↔ Tuple.ReadFrom fs [] vs := ih hc
      rw [itemReads, Items.toList, List.map_nil]
      rw [Tuple.ReadFrom, ← hrest, readTuple]
      cases f.absentFromArray? with
      | none => simp
      | some w =>
        rcases readTuple r (i + 1) fs (.close offset) with e | ⟨ws, left⟩ <;>
          simp [and_assoc]
    | item part left rest =>
      have hrest : (∃ left, readTuple r (i + 1) fs rest = .ok (vs, left) ∧
          closeItems left = .ok ()) ↔ Tuple.ReadFrom fs (itemReads rest) vs :=
        ih (show rest.Closed from hc)
      rw [itemReads, Items.toList, List.map_cons, ← itemReads, Tuple.ReadFrom, ← hrest, readTuple]
      cases part.read f.shape with
      | error e => simp
      | ok w =>
        rcases readTuple r (i + 1) fs rest with e | ⟨ws, left⟩ <;> simp [and_assoc]

/-- Reading the inside of an array as a record. -/
lemma readRecordItems_eq_ok_iff (hc : items.Closed) {v : r.Val} :
    readRecordItems r items = .ok v ↔
      ∃ vs, Tuple.ReadFrom r.fields (itemReads items) vs ∧ r.build vs = .ok v := by
  simp only [← readTuple_eq_ok_iff hc (r := r) (i := 0), readRecordItems]
  rcases readTuple r 0 r.fields items with e | ⟨vs, left⟩
  · simp
  · cases hclose : closeItems left <;> simp [hclose, Record.conclude_eq_ok_iff]

/-! ## Objects -/

/-- Filling slots entry by entry, where values that belong to no field can be passed over. -/
lemma fillSlots_eq_ok_iff (hc : entries.Closed)
    (hskip : ∀ e ∈ entries.toList, e.2.source.skipFault? = none) {fs : List Field}
    {slots slots' : Slots fs} :
    (∃ offset, fillSlots fs entries slots = .ok (slots', offset)) ↔
      Slots.Filled fs (entryReads entries) slots slots' := by
  induction entries generalizing slots with
  | close offset =>
    simp [fillSlots, entryReads, Entries.toList, Slots.filled_nil_iff, eq_comm]
  | stop _ _ => exact hc.elim
  | brokenKey _ _ => exact hc.elim
  | unpaired _ _ => exact hc.elim
  | entry key part left rest ih =>
    obtain ⟨⟨k, hk⟩, hc⟩ := hc
    rw [Entries.toList, hk] at hskip
    obtain ⟨hpart, hskip⟩ := List.forall_mem_cons.1 hskip
    have hplaced : ∀ s v, entryReading k left part s = .ok v ↔ part.read s = .ok v :=
      fun s v => mapError_eq_ok_iff
    rw [fillSlots, entryReads, Entries.toList, hk, List.map_cons, ← entryReads,
      Slots.filled_cons_iff hplaced]
    cases hplace : Slots.place? k (entryReading k left part) fs slots with
    | none => simp [hplace, hpart, ih hc hskip]
    | some outcome => cases outcome <;> simp [hplace, ih hc hskip]

/-- Reading the inside of an object as a record. -/
lemma readRecord_eq_ok_iff (hc : entries.Closed)
    (hskip : ∀ e ∈ entries.toList, e.2.source.skipFault? = none) {v : r.Val} :
    readRecord r entries = .ok v ↔ r.ReadFrom (entryReads entries) v := by
  simp only [Record.ReadFrom, ← fillSlots_eq_ok_iff hc hskip, readRecord]
  rcases fillSlots r.fields entries (.empty r.fields) with e | ⟨slots, offset⟩
  · simp
  · cases hfinish : slots.finish <;> simp [hfinish, Record.conclude_eq_ok_iff]

/-- Reading a string as a kind. -/
lemma readKind_eq_ok_iff {family : KindFamily} {name : String} {stop : Nat} {k : family.Member} :
    readKind family name stop = .ok k ↔ family.find? name = some k := by
  rw [readKind]
  cases family.find? name <;> simp

/-- Reading the inside of an object as a kind. -/
lemma readKindEntry_eq_ok_iff (hc : entries.Closed) {family : KindFamily} {k : family.Member} :
    readKindEntry family entries = .ok k ↔
      ∃ name read, entryReads entries = [(name, read)] ∧ family.find? name = some k ∧
        read .nothing = .ok () := by
  cases entries with
  | close offset => simp [readKindEntry, noKind, entryReads, Entries.toList]
  | stop _ _ => exact hc.elim
  | brokenKey _ _ => exact hc.elim
  | unpaired _ _ => exact hc.elim
  | entry key part left rest =>
    obtain ⟨⟨name, hname⟩, hc⟩ := hc
    simp only [readKindEntry, entryReads, Entries.toList, hname, List.map_cons, List.cons.injEq,
      Prod.mk.injEq, List.map_eq_nil_iff, readKind]
    cases hfind : family.find? name with
    | none => simp [hfind]
    | some k' =>
      cases hread : part.read .nothing with
      | error e => simp [hfind, hread]
      | ok u =>
        cases rest with
        | close offset => simp [Entries.toList, hfind, hread]
        | stop _ _ => exact hc.elim
        | brokenKey _ _ => exact hc.elim
        | unpaired _ _ => exact hc.elim
        | entry key' part' left' rest' =>
          obtain ⟨⟨name', hname'⟩, -⟩ := hc
          simp [Entries.toList, hname']

/-! ## Nodes -/

/-- A value that is not null is read as an optional one if it is read as one. -/
lemma readAs_optional {v : Source} {s : Shape}
    (h : ∀ start stop, v ≠ .scalar start (.word .null) stop) :
    readAs v items entries (.optional s) = (readAs v items entries s).map some := by
  rw [readAs]
  · exact h

/-- An array is read as its tree is, given the readings of the same items. -/
lemma readAs_array_eq_ok_iff (hc : items.Closed) {start level : Nat} (hlevel : level ≤ maxLevel)
    {nodes : Items Source} {vs : List Json} {s : Shape} (hs : s.keepsTree = false) {x : s.Val} :
    readAs (.array start level nodes) items entries s = .ok x ↔
      Json.readAs (.arr vs) (itemReads items) [] s = .ok x := by
  have hopen : opening start level = .ok () := opening_eq_ok_iff.2 hlevel
  induction s with
  | text => simp [readAs, Json.readAs, wrongType, Json.wrongType, found]
  | flag => simp [readAs, Json.readAs, wrongType, Json.wrongType, found]
  | nothing => simp [readAs, Json.readAs, wrongType, Json.wrongType, found]
  | kind family => simp [readAs, Json.readAs, noKind, Json.wrongType]
  | argumentValue => cases hs
  | selection => cases hs
  | names =>
    simp only [readAs, hopen, Json.readAs, map_eq_ok_iff, readList_eq_ok_iff hc]
    exact exists_congr fun names => and_congr_left fun _ => Json.readList_eq_ok_iff.symm
  | record r =>
    simp only [readAs, hopen, Json.readAs, readRecordItems_eq_ok_iff hc,
      Json.readRecordItems_eq_ok_iff]
  | list s _ =>
    simp only [readAs, hopen, Json.readAs, readList_eq_ok_iff hc, Json.readList_eq_ok_iff]
  | optional s ih =>
    simp only [readAs, Json.readAs, map_eq_ok_iff, ih hs]

/-- An object is read as its tree is, given the readings of the same entries. -/
lemma readAs_object_eq_ok_iff (hc : entries.Closed)
    (hskip : ∀ e ∈ entries.toList, e.2.source.skipFault? = none) {start level : Nat}
    (hlevel : level ≤ maxLevel) {nodes : Entries Source} {es : List (String × Json)} {s : Shape}
    (hs : s.keepsTree = false) {x : s.Val} :
    readAs (.object start level nodes) items entries s = .ok x ↔
      Json.readAs (.obj es) [] (entryReads entries) s = .ok x := by
  have hopen : opening start level = .ok () := opening_eq_ok_iff.2 hlevel
  induction s with
  | text => simp [readAs, Json.readAs, wrongType, Json.wrongType, found]
  | flag => simp [readAs, Json.readAs, wrongType, Json.wrongType, found]
  | nothing => simp [readAs, Json.readAs, wrongType, Json.wrongType, found]
  | kind family =>
    simp only [readAs, hopen, Json.readAs, readKindEntry_eq_ok_iff hc,
      Json.readKindEntry_eq_ok_iff]
  | argumentValue => cases hs
  | selection => cases hs
  | names => simp [readAs, Json.readAs, wrongType, Json.wrongType, found]
  | record r =>
    simp only [readAs, hopen, Json.readAs, readRecord_eq_ok_iff hc hskip,
      Json.readRecord_eq_ok_iff]
  | list s _ => simp [readAs, Json.readAs, wrongType, Json.wrongType, found]
  | optional s ih =>
    simp only [readAs, Json.readAs, map_eq_ok_iff, ih hs]

/-- A value without parts is read as its tree is. -/
lemma readAs_scalar_eq_ok_iff {start stop : Nat} {value : Scalar} {repeats : Repeats} {j : Json}
    (hj : (scalar start value stop).tree repeats = .ok j) {s : Shape} (hs : s.keepsTree = false)
    {x : s.Val} :
    readAs (.scalar start value stop) items entries s = .ok x ↔
      Json.readAs j [] [] s = .ok x := by
  rcases tree_scalar_eq_ok_iff.1 hj with
    ⟨rfl, rfl⟩ | ⟨b, rfl, rfl⟩ | ⟨n, rfl, rfl⟩ | ⟨t, rfl, rfl⟩
  · cases s with
    | argumentValue => cases hs
    | selection => cases hs
    | _ => simp [readAs, Json.readAs, wrongType, Json.wrongType, found, noKind]
  · induction s with
    | argumentValue => cases hs
    | selection => cases hs
    | optional s ih => simp only [readAs, Json.readAs, map_eq_ok_iff, ih hs]
    | _ => simp [readAs, Json.readAs, wrongType, Json.wrongType, found, noKind]
  · induction s with
    | argumentValue => cases hs
    | selection => cases hs
    | optional s ih => simp only [readAs, Json.readAs, map_eq_ok_iff, ih hs]
    | _ => simp [readAs, Json.readAs, wrongType, Json.wrongType, found, noKind, Except.map]
  · induction s with
    | argumentValue => cases hs
    | selection => cases hs
    | optional s ih => simp only [readAs, Json.readAs, map_eq_ok_iff, ih hs]
    | kind family =>
      simp only [readAs, Json.readAs, readKind_eq_ok_iff, Json.readKind_eq_ok_iff]
    | _ => simp [readAs, Json.readAs, wrongType, Json.wrongType, found, Except.map]

/-- The tree of a value is null for null only. -/
lemma tree_eq_null_iff {repeats : Repeats} {v : Source} :
    v.tree repeats = .ok .null ↔ ∃ start stop, v = .scalar start (.word .null) stop := by
  cases v with
  | scalar start value stop => simp [tree_scalar_eq_ok_iff]
  | broken start beginning fault skipFault => simp [tree]
  | array start level items => simp [tree_array_eq_ok_iff]
  | object start level entries => simp [tree_object_eq_ok_iff]

/-- **A value of which a tree is kept** is read as that tree, in which no key may be repeated. -/
theorem readAs_eq_ok_iff_of_keepsTree {v : Source} {s : Shape} (hs : s.keepsTree = true)
    {x : s.Val} :
    readAs v items entries s = .ok x ↔ ∃ j, v.tree .refused = .ok j ∧ j.read s = .ok x := by
  induction s with
  | argumentValue =>
    rw [readAs]
    cases v.tree .refused <;> simp
  | selection =>
    rw [readAs]
    cases v.tree .refused <;> simp
  | optional s ih =>
    -- null is an absent value before a tree is made of it
    by_cases hnull : ∃ start stop, v = .scalar start (.word .null) stop
    · obtain ⟨start, stop, rfl⟩ := hnull
      simp [readAs, tree, Json.read, Json.readAs]
    · have hv : ∀ start stop, v ≠ .scalar start (.word .null) stop :=
        fun start stop heq => hnull ⟨start, stop, heq⟩
      have hoptional : ∀ j, v.tree .refused = .ok j →
          j.read (.optional s) = (j.read s).map some := fun j hj =>
        Json.read_optional fun heq => hnull (tree_eq_null_iff.1 (heq ▸ hj))
      simp only [readAs_optional hv, map_eq_ok_iff, ih hs]
      constructor
      · rintro ⟨y, ⟨j, hj, hy⟩, rfl⟩
        exact ⟨j, hj, by rw [hoptional j hj, hy]; rfl⟩
      · rintro ⟨j, hj, hx⟩
        rw [hoptional j hj] at hx
        obtain ⟨y, hy, rfl⟩ := map_eq_ok_iff.1 hx
        exact ⟨y, ⟨j, hj, hy⟩, rfl⟩
  | _ => cases hs

end Source

end Json

end QueryPayload
