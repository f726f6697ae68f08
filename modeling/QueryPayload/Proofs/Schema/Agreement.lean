import Mathlib.Tactic.Lemma
import QueryPayload.Proofs.Schema.OfSource
import QueryPayload.Schema.Decode

/-!
# Texts are read as their trees are

A text can be read as a shape directly, or be made a tree which is then read.  On the second way an
entry may be lost to a later one with the same key, which the first way either refuses or passes
over.  So whatever the first way finds the second way finds as well, and the converse holds where no
key is repeated.

## Main results

* `Json.readAs_putAll` — an object is read as before after its entries have been merged.
* `Json.Source.read_entails_of_tree`, `read_entailed_of_distinctKeys` — the readings of a value and
  of its tree.
* `Shape.decode_eq_ok_iff`, `Json.ofText_eq_ok_iff` — what a whole text is decoded as.

## Implementation notes

Entries that are merged have a key in common.  If the key belongs to a field of a record, then the
record is refused at the second entry; otherwise both entries are passed over.  `Slots.Filled` sees
the entries of one field at a time, and merging does not mix them (`Json.filter_putAll`).
-/

set_option relaxedAutoImplicit false
set_option autoImplicit false

namespace QueryPayload

namespace Json

/-! ## Merged entries -/

/-- The readings of the entries of some keys. -/
lemma filter_entryReadings (p : String → Bool) (es : List (String × Json)) :
    (entryReadings es).filter (fun e => p e.1) = entryReadings (es.filter fun e => p e.1) := by
  rw [entryReadings_eq, entryReadings_eq, List.filter_map]
  rfl

/-- A slot takes up what it took up before the entries were merged: there was one at most. -/
lemma answered_putAll {f : Field} {slot slot' : Option f.shape.Val} {es : List (String × Json)}
    (h : Slots.Answered f slot (entryReadings es) slot') :
    Slots.Answered f slot (entryReadings (putAll [] es)) slot' := by
  match es with
  | [] => exact h
  | [_] => exact h
  | _ :: _ :: _ => exact h.elim

/-- Slots are filled as they were before the entries were merged. -/
lemma filled_putAll {fs : List Field} {slots slots' : Slots fs} {es : List (String × Json)}
    (h : Slots.Filled fs (entryReadings es) slots slots') :
    Slots.Filled fs (entryReadings (putAll [] es)) slots slots' := by
  induction fs generalizing es with
  | nil => trivial
  | cons f fs ih =>
    obtain ⟨slot, slots⟩ := slots
    obtain ⟨slot', slots'⟩ := slots'
    obtain ⟨hanswered, hrest⟩ := h
    rw [filter_entryReadings] at hanswered
    rw [filter_entryReadings fun key => !f.answersTo key] at hrest
    constructor
    · rw [filter_entryReadings, filter_putAll]
      exact answered_putAll hanswered
    · rw [filter_entryReadings fun key => !f.answersTo key,
        filter_putAll fun key => !f.answersTo key]
      exact ih hrest

/-- A record is read as it was before the entries were merged. -/
lemma readRecord_putAll {r : Record} {es : List (String × Json)} {x : r.Val}
    (h : readRecord r (entryReadings es) = .ok x) :
    readRecord r (entryReadings (putAll [] es)) = .ok x := by
  rw [readRecord_eq_ok_iff] at h ⊢
  obtain ⟨slots, vs, hfilled, hrest⟩ := h
  exact ⟨slots, vs, filled_putAll hfilled, hrest⟩

/-- A kind is read as it was before the entries were merged: there was one. -/
lemma readKindEntry_putAll {family : KindFamily} {k : family.Member} {es : List (String × Json)}
    (h : readKindEntry family (entryReadings es) = .ok k) :
    readKindEntry family (entryReadings (putAll [] es)) = .ok k := by
  match es with
  | [] => exact h
  | [_] => exact h
  | _ :: _ :: _ => cases h

/-- **An object is read as it was before its entries were merged**, apart from the shapes for which
a tree is kept.

**Proof sketch.** A kind has one entry.  The slots of a record are filled by entries of their own
(`filled_putAll`), of which there was one at most. -/
theorem readAs_putAll {v : Json} {es : List (String × Json)} {s : Shape}
    (hs : s.keepsTree = false) {x : s.Val} (h : readAs v [] (entryReadings es) s = .ok x) :
    readAs v [] (entryReadings (putAll [] es)) s = .ok x :=
  readAs_of_parts (fun _ _ => id) (fun _ _ => id) (fun _ _ => readRecord_putAll)
    (fun _ _ => readKindEntry_putAll) hs h

/-! ## Texts and trees -/

namespace Source

/-- The items of an array as parts. -/
lemma itemParts_eq (items : Items Source) :
    itemParts items = items.map fun node => ⟨node, node.read⟩ := by
  induction items with
  | close _ => rfl
  | stop _ _ => rfl
  | item node left rest ih => rw [itemParts, Items.map, ih]

/-- The values of an object as parts. -/
lemma entryParts_eq (entries : Entries Source) :
    entryParts entries = entries.map fun node => ⟨node, node.read⟩ := by
  induction entries with
  | close _ => rfl
  | stop _ _ => rfl
  | brokenKey _ _ => rfl
  | unpaired _ _ => rfl
  | entry key node left rest ih => rw [entryParts, Entries.map, ih]

/-- The readings of the items of an array are the items' readings. -/
lemma itemReads_itemParts (items : Items Source) :
    itemReads (itemParts items) = items.toList.map read := by
  simp [itemReads, itemParts_eq, Function.comp_def]

/-- The readings of the entries of an object are the values' readings. -/
lemma entryReads_entryParts (entries : Entries Source) :
    entryReads (entryParts entries) = entries.toList.map fun e => (e.1, e.2.read) := by
  simp [entryReads, entryParts_eq, Function.comp_def]

/-- A value without parts is read as its tree is. -/
lemma read_scalar_eq_ok_iff {start stop : Nat} {value : Scalar} {j : Json}
    (hj : (scalar start value stop).tree .lastWins = .ok j) {s : Shape} (hs : s.keepsTree = false)
    {x : s.Val} : (scalar start value stop).read s = .ok x ↔ j.read s = .ok x := by
  refine (readAs_scalar_eq_ok_iff hj hs).trans ?_
  rcases tree_scalar_eq_ok_iff.1 hj with
    ⟨-, rfl⟩ | ⟨b, -, rfl⟩ | ⟨n, -, rfl⟩ | ⟨t, -, rfl⟩ <;> rfl

/-- An array is read as its tree is, given the readings of its items. -/
lemma read_array_eq_ok_iff {start level : Nat} {items : Items Source} (hc : items.Closed)
    (hlevel : level ≤ maxLevel) (vs : List Json) {s : Shape} (hs : s.keepsTree = false)
    {x : s.Val} :
    (array start level items).read s = .ok x ↔
      Json.readAs (.arr vs) (items.toList.map read) [] s = .ok x := by
  have hc' : (itemParts items).Closed := by
    rw [itemParts_eq]
    exact (Items.closed_map _ _).2 hc
  rw [read, readAs_array_eq_ok_iff hc' hlevel hs, itemReads_itemParts]

/-- An object is read as its tree is, given the readings of its entries. -/
lemma read_object_eq_ok_iff {start level : Nat} {entries : Entries Source} (hc : entries.Closed)
    (hskip : ∀ e ∈ entries.toList, e.2.skipFault? = none) (hlevel : level ≤ maxLevel)
    (es : List (String × Json)) {s : Shape} (hs : s.keepsTree = false) {x : s.Val} :
    (object start level entries).read s = .ok x ↔
      Json.readAs (.obj es) [] (entries.toList.map fun e => (e.1, e.2.read)) s = .ok x := by
  have hc' : (entryParts entries).Closed := by
    rw [entryParts_eq]
    exact (Entries.closed_map _ _).2 hc
  have hskip' : ∀ e ∈ (entryParts entries).toList, e.2.source.skipFault? = none := by
    rw [entryParts_eq, Entries.toList_map]
    exact List.forall_mem_map.2 hskip
  rw [read, readAs_object_eq_ok_iff hc' hskip' hlevel hs, entryReads_entryParts]

/-- A value of which a tree is kept is read as that tree. -/
lemma read_eq_ok_iff_of_keepsTree {v : Source} {s : Shape} (hs : s.keepsTree = true) {x : s.Val} :
    v.read s = .ok x ↔ ∃ j, v.tree .refused = .ok j ∧ j.read s = .ok x := by
  cases v <;> exact readAs_eq_ok_iff_of_keepsTree hs

/-- It suffices to look at the shapes for which no tree is kept. -/
lemma entails_of_plain {v : Source} {j : Json} (hj : v.tree .lastWins = .ok j)
    (h : ∀ s, s.keepsTree = false → ∀ x, v.read s = .ok x → j.read s = .ok x) :
    v.read.Entails j.read := by
  intro s x hread
  cases hs : s.keepsTree with
  | false => exact h s hs x hread
  | true =>
    obtain ⟨j', hj', hx⟩ := (read_eq_ok_iff_of_keepsTree hs).1 hread
    obtain rfl : j = j' := Except.ok.inj (hj.symm.trans (tree_refused_eq_ok_iff.1 hj').1)
    exact hx

/-- It suffices to look at the shapes for which no tree is kept, also in the other direction if no
key is repeated. -/
lemma entailed_of_plain {v : Source} {j : Json} (hj : v.tree .lastWins = .ok j)
    (hdistinct : v.distinctKeys = true)
    (h : ∀ s, s.keepsTree = false → ∀ x, j.read s = .ok x → v.read s = .ok x) :
    j.read.Entails v.read := by
  intro s x hread
  cases hs : s.keepsTree with
  | false => exact h s hs x hread
  | true =>
    have hrefused := tree_refused_eq_ok_iff.2 ⟨hj, hdistinct⟩
    exact (read_eq_ok_iff_of_keepsTree hs).2 ⟨j, hrefused, hread⟩

/-- **Whatever is found in a text is found in its tree.**

**Proof sketch.** Induction on the source tree.  What is found in a node is found with the readings
of its parts (`read_array_eq_ok_iff`, `read_object_eq_ok_iff`), which find no more than those of the
trees of the parts (`Json.readAs_mono`); these still find it when the entries of an object have been
merged (`Json.readAs_putAll`). -/
theorem read_entails_of_tree {v : Source} : ∀ j, v.tree .lastWins = .ok j →
    v.read.Entails j.read := by
  induction v using induction with
  | scalar start value stop =>
    intro j hj
    exact entails_of_plain hj fun s hs x => (read_scalar_eq_ok_iff hj hs).1
  | broken start beginning fault skipFault =>
    intro j hj
    simp [tree] at hj
  | array start level items ih =>
    intro j hj
    refine entails_of_plain hj fun s hs x hread => ?_
    obtain ⟨hlevel, hc, vs, hvs, rfl⟩ := tree_array_eq_ok_iff.1 hj
    have hparts : List.Forall₂ Reading.Entails (items.toList.map read) (vs.map Json.read) := by
      rw [List.forall₂_map_left_iff, List.forall₂_map_right_iff]
      exact ((List.forall₂_and_left _ _).2 ⟨ih, hvs⟩).imp fun node v h => h.1 v h.2
    rw [read_array_eq_ok_iff hc hlevel vs hs] at hread
    rw [Json.read, itemReadings_eq]
    exact readAs_mono hparts .nil hs hread
  | object start level entries ih =>
    intro j hj
    refine entails_of_plain hj fun s hs x hread => ?_
    obtain ⟨hlevel, hc, -, es, hes, rfl⟩ := tree_object_eq_ok_iff.1 hj
    have hparts : List.Forall₂ Reading.EntryEntails
        (entries.toList.map fun e => (e.1, e.2.read)) (entryReadings es) := by
      rw [entryReadings_eq, List.forall₂_map_left_iff, List.forall₂_map_right_iff]
      exact ((List.forall₂_and_left _ _).2 ⟨ih, hes⟩).imp fun e p h => ⟨h.2.1, h.1 p.2 h.2.2⟩
    rw [read_object_eq_ok_iff hc (skipFault?_of_entries hes) hlevel (putAll [] es) hs] at hread
    -- first from the readings of the text to those of its tree, then to the merged entries
    exact readAs_putAll hs (readAs_mono .nil hparts hs hread)

/-- **Whatever is found in the tree of a text is found in the text**, if no key is repeated.

**Proof sketch.** The induction of `read_entails_of_tree` with the hypotheses the other way round:
where no key is repeated nothing is merged. -/
theorem read_entailed_of_distinctKeys {v : Source} : ∀ j, v.tree .lastWins = .ok j →
    v.distinctKeys = true → j.read.Entails v.read := by
  induction v using induction with
  | scalar start value stop =>
    intro j hj hdistinct
    exact entailed_of_plain hj hdistinct fun s hs x => (read_scalar_eq_ok_iff hj hs).2
  | broken start beginning fault skipFault =>
    intro j hj
    simp [tree] at hj
  | array start level items ih =>
    intro j hj hdistinct
    refine entailed_of_plain hj hdistinct fun s hs x hread => ?_
    obtain ⟨hlevel, hc, vs, hvs, rfl⟩ := tree_array_eq_ok_iff.1 hj
    have hentailed : ∀ node ∈ items.toList, ∀ v, node.tree .lastWins = .ok v →
        v.read.Entails node.read := fun node hnode v hv =>
      ih node hnode v hv (itemsDistinctKeys_iff.1 hdistinct node hnode)
    have hparts : List.Forall₂ Reading.Entails (vs.map Json.read) (items.toList.map read) := by
      rw [List.forall₂_map_left_iff, List.forall₂_map_right_iff]
      exact (((List.forall₂_and_left _ _).2 ⟨hentailed, hvs⟩).imp fun node v h => h.1 v h.2).flip
    rw [Json.read, itemReadings_eq] at hread
    rw [read_array_eq_ok_iff hc hlevel vs hs]
    exact readAs_mono hparts .nil hs hread
  | object start level entries ih =>
    intro j hj hdistinct
    refine entailed_of_plain hj hdistinct fun s hs x hread => ?_
    obtain ⟨hlevel, hc, -, es, hes, rfl⟩ := tree_object_eq_ok_iff.1 hj
    rw [distinctKeys, Bool.and_eq_true, decide_eq_true_eq, entriesDistinctKeys_iff hc] at hdistinct
    obtain ⟨hkeys, hvalues⟩ := hdistinct
    have hentailed : ∀ e ∈ entries.toList, ∀ v, e.2.tree .lastWins = .ok v →
        v.read.Entails e.2.read := fun e he v hv => ih e he v hv (hvalues e he)
    have hparts : List.Forall₂ Reading.EntryEntails (entryReadings es)
        (entries.toList.map fun e => (e.1, e.2.read)) := by
      rw [entryReadings_eq, List.forall₂_map_left_iff, List.forall₂_map_right_iff]
      exact (((List.forall₂_and_left _ _).2 ⟨hentailed, hes⟩).imp
        fun e p h => ⟨h.2.1.symm, h.1 p.2 h.2.2⟩).flip
    have hunmerged : putAll [] es = es :=
      putAll_of_nodup (keys_eq_of_entries hes ▸ hkeys) fun _ _ => List.not_mem_nil
    rw [hunmerged, Json.read] at hread
    rw [read_object_eq_ok_iff hc (skipFault?_of_entries hes) hlevel es hs]
    exact readAs_mono .nil hparts hs hread

end Source

end Json

/-! ## Whole texts -/

/-- A text is decoded if its value is read and nothing follows. -/
lemma Shape.decode_eq_ok_iff {s : Shape} {text : List UInt8} {x : s.Val} :
    s.decode text = .ok x ↔
      (Json.Source.scan text).1.read s = .ok x ∧ (Json.Source.scan text).2 = none := by
  rw [decode]
  rcases Json.Source.scan text with ⟨source, trailing⟩
  cases hread : source.read s <;> cases trailing <;> simp [concludeText, hread]

/-- A text has a tree if its value has one and nothing follows. -/
lemma Json.ofText_eq_ok_iff {text : List UInt8} {v : Json} :
    Json.ofText text = .ok v ↔
      (Json.Source.scan text).1.tree .lastWins = .ok v ∧ (Json.Source.scan text).2 = none := by
  rw [Json.ofText]
  rcases Json.Source.scan text with ⟨source, trailing⟩
  cases htree : source.tree .lastWins <;> cases trailing <;> simp [concludeText, htree]

end QueryPayload
