import Mathlib.Tactic.Lemma
import QueryPayload.Proofs.Schema.Sound

/-!
# What is read can be passed over

Passing over a value asks less than reading it.  So where anything is found in a value, the value is
JSON up to its end, and whoever does not want it could have passed over it.

## Main results

* `Json.Source.skipFault?_of_read` — a value in which something is found can be passed over.

## Implementation notes

A reader looks at every part of a value, or passes over it.  The only parts that it does not read
are the values under keys that belong to no field, so that these are checked on the way.
-/

set_option relaxedAutoImplicit false
set_option autoImplicit false

namespace QueryPayload

/-- Something is found by a reading. -/
def Reading.Finds (read : Reading) : Prop := ∃ s v, read s = .ok v

/-- A slot takes up an entry only if something is found there. -/
lemma Slots.finds_of_place? {key : String} {read : Reading} {fs : List Field}
    {slots next : Slots fs} (h : place? key read fs slots = some (.ok next)) : read.Finds := by
  induction fs with
  | nil => cases h
  | cons f fs ih =>
    obtain ⟨slot, slots⟩ := slots
    simp only [place?] at h
    split at h
    · cases slot with
      | some v => cases h
      | none =>
        cases hread : read f.shape with
        | error e => simp [hread] at h
        | ok v => exact ⟨_, v, hread⟩
    · split at h
      · rename_i hplace
        exact ih hplace
      · cases h
      · cases h

/-- Every item that is read as a field is one where something is found. -/
lemma Tuple.ReadFrom.finds {fs : List Field} {reads : List Reading} {vs : Tuple fs}
    (h : Tuple.ReadFrom fs reads vs) : ∀ read ∈ reads, read.Finds := by
  induction fs generalizing reads with
  | nil =>
    obtain rfl : reads = [] := h
    exact fun _ hmem => absurd hmem List.not_mem_nil
  | cons f fs ih =>
    cases reads with
    | nil => exact fun _ hmem => absurd hmem List.not_mem_nil
    | cons read reads => exact List.forall_mem_cons.2 ⟨⟨_, _, h.1⟩, ih h.2⟩

namespace Json

namespace Source

variable {r : Record} {items : Items Part} {entries : Entries Part}

/-- A part has been read, or passed over. -/
def Part.Passed (part : Part) : Prop := part.read.Finds ∨ part.source.skipFault? = none

/-- Items in which a list is found have been read. -/
lemma passed_of_readList {s : Shape} {i : Nat} {vs : List s.Val}
    (h : readList s i items = .ok vs) : items.Closed ∧ ∀ part ∈ items.toList, part.Passed := by
  have hc := closed_of_readList h
  refine ⟨hc, fun part hmem => ?_⟩
  obtain ⟨v, -, hv⟩ := exists_rel_of_mem_left ((readList_eq_ok_iff hc).1 h)
    (List.mem_map_of_mem hmem)
  exact .inl ⟨s, v, hv⟩

/-- Items in which a record is found have been read. -/
lemma passed_of_readRecordItems {x : r.Val} (h : readRecordItems r items = .ok x) :
    items.Closed ∧ ∀ part ∈ items.toList, part.Passed := by
  refine ⟨closed_of_readRecordItems h, fun part hmem => .inl ?_⟩
  obtain ⟨vs, hvs, -⟩ := readFrom_of_readRecordItems h
  exact hvs.finds _ (List.mem_map_of_mem hmem)

/-- Entries by which slots are filled have been read, or passed over. -/
lemma passed_of_fillSlots {fs : List Field} {slots : Slots fs} {out : Slots fs × Nat}
    (h : fillSlots fs entries slots = .ok out) :
    entries.Closed ∧ ∀ e ∈ entries.toList, e.2.Passed := by
  induction entries generalizing slots with
  | close _ => exact ⟨True.intro, fun _ hmem => absurd hmem List.not_mem_nil⟩
  | stop _ _ => cases h
  | brokenKey _ _ => cases h
  | unpaired key fault =>
    rw [fillSlots] at h
    split at h
    · cases h
    · split at h <;> cases h
  | entry key part left rest ih =>
    rw [fillSlots] at h
    cases hkey : key.text with
    | error fault => simp [hkey] at h
    | ok k =>
      simp only [hkey] at h
      rw [Entries.toList, hkey]
      -- whether the entry has been placed or passed over, the others have been read behind it
      have hmore : ∀ {next : Slots fs}, fillSlots fs rest next = .ok out → part.Passed →
          (Entries.entry key part left rest).Closed ∧
            ∀ e ∈ (k, part) :: rest.toList, e.2.Passed := fun hrest hpart =>
        ⟨⟨⟨k, hkey⟩, (ih hrest).1⟩, List.forall_mem_cons.2 ⟨hpart, (ih hrest).2⟩⟩
      split at h
      · rename_i next hplace
        obtain ⟨s, v, hv⟩ := Slots.finds_of_place? hplace
        exact hmore h (.inl ⟨s, v, mapError_eq_ok_iff.1 hv⟩)
      · cases h
      · split at h
        · cases h
        · rename_i hskip
          exact hmore h (.inr hskip)

/-- Entries in which a record is found have been read, or passed over. -/
lemma passed_of_readRecord {x : r.Val} (h : readRecord r entries = .ok x) :
    entries.Closed ∧ ∀ e ∈ entries.toList, e.2.Passed := by
  rw [readRecord] at h
  split at h
  · cases h
  · rename_i hfill
    exact passed_of_fillSlots hfill

/-- Entries in which a kind is found have been read. -/
lemma passed_of_readKindEntry {family : KindFamily} {k : family.Member}
    (h : readKindEntry family entries = .ok k) :
    entries.Closed ∧ ∀ e ∈ entries.toList, e.2.Passed := by
  cases entries with
  | close _ => cases h
  | stop _ _ => cases h
  | brokenKey _ _ => cases h
  | unpaired key fault =>
    simp only [readKindEntry] at h
    split at h
    · cases h
    · split at h <;> cases h
  | entry key part left rest =>
    simp only [readKindEntry] at h
    rw [Entries.toList]
    cases hkey : key.text with
    | error fault => simp [hkey] at h
    | ok name =>
      simp only [hkey] at h
      split at h
      · cases h
      · split at h
        · cases h
        · rename_i hread
          split at h
          · refine ⟨⟨⟨name, hkey⟩, True.intro⟩, List.forall_mem_singleton.2 (.inl ⟨_, _, hread⟩)⟩
          · cases h
          · cases h

/-- Where something is found in an array, the items have been read, or a tree has been made. -/
lemma passed_of_readAs_array {start level : Nat} {nodes : Items Source} {s : Shape} {x : s.Val}
    (h : readAs (.array start level nodes) items entries s = .ok x) :
    (items.Closed ∧ ∀ part ∈ items.toList, part.Passed) ∨
      ∃ j, (array start level nodes).tree .refused = .ok j := by
  induction s with
  | text => simp [readAs, wrongType_ne_ok] at h
  | flag => simp [readAs, wrongType_ne_ok] at h
  | nothing => simp [readAs, wrongType_ne_ok] at h
  | kind family => cases h
  | argumentValue =>
    obtain ⟨j, hj, -⟩ := (readAs_eq_ok_iff_of_keepsTree rfl).1 h
    exact .inr ⟨j, hj⟩
  | selection =>
    obtain ⟨j, hj, -⟩ := (readAs_eq_ok_iff_of_keepsTree rfl).1 h
    exact .inr ⟨j, hj⟩
  | names =>
    rw [readAs] at h
    split at h
    · cases h
    · obtain ⟨names, hnames, -⟩ := map_eq_ok_iff.1 h
      exact .inl (passed_of_readList hnames)
  | record r =>
    rw [readAs] at h
    split at h
    · cases h
    · exact .inl (passed_of_readRecordItems h)
  | list s _ =>
    rw [readAs] at h
    split at h
    · cases h
    · exact .inl (passed_of_readList h)
  | optional s ih =>
    obtain ⟨y, hy, -⟩ := map_eq_ok_iff.1 h
    exact ih hy

/-- Where something is found in an object, the entries have been read, or a tree has been made. -/
lemma passed_of_readAs_object {start level : Nat} {nodes : Entries Source} {s : Shape} {x : s.Val}
    (h : readAs (.object start level nodes) items entries s = .ok x) :
    (entries.Closed ∧ ∀ e ∈ entries.toList, e.2.Passed) ∨
      ∃ j, (object start level nodes).tree .refused = .ok j := by
  induction s with
  | text => simp [readAs, wrongType_ne_ok] at h
  | flag => simp [readAs, wrongType_ne_ok] at h
  | nothing => simp [readAs, wrongType_ne_ok] at h
  | names => simp [readAs, wrongType_ne_ok] at h
  | list s _ => simp [readAs, wrongType_ne_ok] at h
  | argumentValue =>
    obtain ⟨j, hj, -⟩ := (readAs_eq_ok_iff_of_keepsTree rfl).1 h
    exact .inr ⟨j, hj⟩
  | selection =>
    obtain ⟨j, hj, -⟩ := (readAs_eq_ok_iff_of_keepsTree rfl).1 h
    exact .inr ⟨j, hj⟩
  | kind family =>
    rw [readAs] at h
    split at h
    · cases h
    · exact .inl (passed_of_readKindEntry h)
  | record r =>
    rw [readAs] at h
    split at h
    · cases h
    · exact .inl (passed_of_readRecord h)
  | optional s ih =>
    obtain ⟨y, hy, -⟩ := map_eq_ok_iff.1 h
    exact ih hy

/-- Nothing is found where no value has been followed through. -/
lemma readAs_broken_ne_ok {start : Nat} {beginning : Beginning} {fault skipFault : Fault}
    {s : Shape} {x : s.Val} :
    readAs (.broken start beginning fault skipFault) items entries s ≠ .ok x := by
  intro h
  induction s with
  | kind family =>
    cases beginning <;> cases h
  | argumentValue => cases h
  | selection => cases h
  | optional s ih =>
    obtain ⟨y, hy, -⟩ := map_eq_ok_iff.1 h
    exact ih hy
  | _ => simp [readAs, wrongType_ne_ok] at h

/-- **A value in which something is found can be passed over.**

**Proof sketch.** Induction on the source tree: every part has been read or passed over, and the
bracket has been reached.  Where a tree has been made first, that can be passed over as a whole. -/
theorem skipFault?_of_read {v : Source} (h : v.read.Finds) : v.skipFault? = none := by
  induction v using induction with
  | scalar start value stop => rfl
  | broken start beginning fault skipFault =>
    obtain ⟨s, x, hx⟩ := h
    exact absurd hx readAs_broken_ne_ok
  | array start level items ih =>
    obtain ⟨s, x, hx⟩ := h
    rw [read] at hx
    rcases passed_of_readAs_array hx with ⟨hc, hall⟩ | ⟨j, hj⟩
    · rw [itemParts_eq] at hc hall
      rw [Items.toList_map] at hall
      refine skipItemsFault?_eq_none ((Items.closed_map _ _).1 hc) fun node hnode => ?_
      exact (hall _ (List.mem_map_of_mem hnode)).elim (ih node hnode) id
    · exact skipFault?_of_tree hj
  | object start level entries ih =>
    obtain ⟨s, x, hx⟩ := h
    rw [read] at hx
    rcases passed_of_readAs_object hx with ⟨hc, hall⟩ | ⟨j, hj⟩
    · rw [entryParts_eq] at hc hall
      rw [Entries.toList_map] at hall
      refine skipEntriesFault?_eq_none ((Entries.closed_map _ _).1 hc) fun e he => ?_
      exact (hall _ (List.mem_map_of_mem he)).elim (ih e he) id
    · exact skipFault?_of_tree hj

end Source

end Json

end QueryPayload
