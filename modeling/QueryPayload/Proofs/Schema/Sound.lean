import Mathlib.Tactic.Lemma
import QueryPayload.Proofs.Schema.Agreement
import QueryPayload.Proofs.Schema.Proper

/-!
# Readings are sound

Every reading of a tree or of a text finds proper values only.  A tree must not repeat a key for
that, since the value of an argument keeps the keys of its tree; the trees that are made of texts do
not repeat any.

## Main results

* `Json.Source.distinctKeys_of_tree` — the tree of a value of a text repeats no key.
* `Json.sound_read` — reading a tree without repeated keys is sound.
* `Json.Source.sound_read` — reading a value of a text is sound, whatever the text is.

## Implementation notes

A text may be read although it has no tree: a value that is passed over may be nested too deeply, or
be a string that spells no characters.  So the readers of texts are gone through here without asking
for a tree, unlike where both are compared.  That a reader finds anything says enough about the
inside of a node: it has been read up to its bracket.
-/

set_option relaxedAutoImplicit false
set_option autoImplicit false

namespace QueryPayload

namespace Json

/-! ## Trees -/

section Trees

variable {v : Json} {items : List Reading} {entries : List (String × Reading)}

/-- Values read from a list of items with sound readings are proper. -/
lemma forall_proper_of_forall₂ {s : Shape} {vs : List s.Val} (hitems : ∀ read ∈ items, read.Sound)
    (h : List.Forall₂ (fun read v => read s = .ok v) items vs) : ∀ v ∈ vs, s.Proper v := by
  intro v hv
  obtain ⟨read, hread, hfound⟩ := exists_rel_of_mem_right h hv
  exact hitems read hread s v hfound

/-- A node is read soundly if its parts are and the value it stands for is proper. -/
lemma sound_readAs (hitems : ∀ read ∈ items, read.Sound) (hentries : ∀ e ∈ entries, e.2.Sound)
    (hvalue : ∀ a, ArgumentValue.ofJson? v = .ok a → a.Proper) :
    Reading.Sound (readAs v items entries) := by
  intro s x h
  induction s with
  | text => exact True.intro
  | flag => exact True.intro
  | nothing => exact True.intro
  | kind family => exact True.intro
  | argumentValue =>
    rw [readAs] at h
    cases ha : ArgumentValue.ofJson? v with
    | error n => simp [ha] at h
    | ok a =>
      simp only [ha, Except.ok.injEq] at h
      exact h ▸ hvalue a ha
  | selection =>
    cases v with
    | obj es =>
      obtain ⟨read, k, -, -, hfrom⟩ := readSelection_eq_ok_iff.1 h
      exact hfrom.proper hentries
    | _ => cases h
  | names =>
    cases v with
    | arr vs =>
      obtain ⟨names, -, rfl⟩ := map_eq_ok_iff.1 h
      exact nodup_firstOccurrences names
    | _ => cases h
  | record r =>
    cases v with
    | obj es => exact (readRecord_eq_ok_iff.1 h).proper hentries
    | arr vs =>
      obtain ⟨vs, hvs, hbuild⟩ := readRecordItems_eq_ok_iff.1 h
      exact Record.proper_of_build r hbuild (hvs.proper hitems)
    | _ => cases h
  | list s _ =>
    cases v with
    | arr vs => exact forall_proper_of_forall₂ hitems (readList_eq_ok_iff.1 h)
    | _ => cases h
  | optional s ih =>
    cases v with
    | null =>
      obtain rfl : none = x := Except.ok.inj h
      exact fun w hw => (by cases hw)
    | _ =>
      obtain ⟨y, hy, rfl⟩ := map_eq_ok_iff.1 h
      intro w hw
      obtain rfl := Option.some.inj hw
      exact ih _ hy

end Trees

/-- **Reading a tree is sound**, if the tree repeats no key.

**Proof sketch.** Induction on the tree: the readings of its parts are sound
(`sound_readAs`), and what it stands for as the value of an argument is proper
(`ArgumentValue.proper_of_ofJson?`). -/
theorem sound_read {v : Json} (hv : v.distinctKeys = true) : v.read.Sound := by
  have hvalue : ∀ a, ArgumentValue.ofJson? v = .ok a → a.Proper :=
    fun a => ArgumentValue.proper_of_ofJson? hv
  have hnone : ∀ read ∈ ([] : List Reading), read.Sound := fun _ h => absurd h List.not_mem_nil
  have hempty : ∀ e ∈ ([] : List (String × Reading)), e.2.Sound :=
    fun _ h => absurd h List.not_mem_nil
  induction v using Json.induction with
  | null => exact sound_readAs hnone hempty hvalue
  | bool b => exact sound_readAs hnone hempty hvalue
  | num n => exact sound_readAs hnone hempty hvalue
  | str s => exact sound_readAs hnone hempty hvalue
  | arr items ih =>
    have hparts := distinctKeys_arr_iff.1 hv
    rw [read, itemReadings_eq]
    refine sound_readAs (List.forall_mem_map.2 fun v hmem => ?_) hempty hvalue
    exact ih v hmem (hparts v hmem) fun a => ArgumentValue.proper_of_ofJson? (hparts v hmem)
  | obj entries ih =>
    have hparts := (distinctKeys_obj_iff.1 hv).2
    rw [read, entryReadings_eq]
    refine sound_readAs hnone (List.forall_mem_map.2 fun e hmem => ?_) hvalue
    exact ih e hmem (hparts e hmem) fun a => ArgumentValue.proper_of_ofJson? (hparts e hmem)

/-! ## The trees of texts -/

/-- Putting an entry keeps the keys of an object distinct. -/
lemma nodup_putEntry {key : String} {v : Json} {done : List (String × Json)}
    (h : (done.map (·.1)).Nodup) : ((putEntry key v done).map (·.1)).Nodup := by
  induction done with
  | nil => exact List.nodup_singleton key
  | cons e done ih =>
    obtain ⟨k, w⟩ := e
    obtain ⟨hk, hdone⟩ := List.nodup_cons.1 h
    rw [putEntry]
    by_cases heq : k = key
    · rw [if_pos heq]
      exact h
    · rw [if_neg heq, List.map_cons, List.nodup_cons, mem_map_fst_putEntry]
      exact ⟨not_or.2 ⟨heq, hk⟩, ih hdone⟩

/-- A value in an object after an entry has been put into it was there before or is the new one. -/
lemma mem_putEntry {key : String} {v : Json} {done : List (String × Json)} {e : String × Json}
    (h : e ∈ putEntry key v done) : e = (key, v) ∨ e ∈ done := by
  induction done with
  | nil => exact Or.inl (List.mem_singleton.1 h)
  | cons e' done ih =>
    obtain ⟨k, w⟩ := e'
    rw [putEntry] at h
    split at h
    · rename_i hk
      rcases List.mem_cons.1 h with he | he
      · exact Or.inl (hk ▸ he)
      · exact Or.inr (List.mem_cons_of_mem _ he)
    · rcases List.mem_cons.1 h with rfl | he
      · exact Or.inr List.mem_cons_self
      · exact (ih he).imp_right (List.mem_cons_of_mem _)

/-- Putting entries keeps the keys of an object distinct, and its values are those put. -/
lemma distinctKeys_putAll {done es : List (String × Json)} (hdone : (done.map (·.1)).Nodup)
    (hvalues : ∀ e ∈ done, e.2.distinctKeys = true) (hes : ∀ e ∈ es, e.2.distinctKeys = true) :
    (Json.obj (putAll done es)).distinctKeys = true := by
  induction es generalizing done with
  | nil => exact distinctKeys_obj_iff.2 ⟨hdone, hvalues⟩
  | cons e es ih =>
    obtain ⟨he, hes⟩ := List.forall_mem_cons.1 hes
    rw [putAll, List.foldl_cons, ← putAll]
    refine ih (nodup_putEntry hdone) (fun e' he' => ?_) hes
    rcases mem_putEntry he' with rfl | he'
    · exact he
    · exact hvalues e' he'

namespace Source

/-- **The tree of a value of a text repeats no key**, whether repeated keys are refused or
replaced. -/
theorem distinctKeys_of_tree {repeats : Repeats} {v : Source} {j : Json}
    (h : v.tree repeats = .ok j) : j.distinctKeys = true := by
  induction v using induction generalizing j with
  | scalar start value stop =>
    rcases tree_scalar_eq_ok_iff.1 h with
      ⟨-, rfl⟩ | ⟨b, -, rfl⟩ | ⟨n, -, rfl⟩ | ⟨t, -, rfl⟩ <;> rfl
  | broken start beginning fault skipFault => simp [tree] at h
  | array start level items ih =>
    obtain ⟨-, -, vs, hvs, rfl⟩ := tree_array_eq_ok_iff.1 h
    refine distinctKeys_arr_iff.2 fun v hv => ?_
    obtain ⟨node, hnode, htree⟩ := exists_rel_of_mem_right hvs hv
    exact ih node hnode htree
  | object start level entries ih =>
    obtain ⟨-, -, -, es, hes, rfl⟩ := tree_object_eq_ok_iff.1 h
    refine distinctKeys_putAll List.nodup_nil (fun _ h => absurd h List.not_mem_nil) fun e he => ?_
    obtain ⟨entry, hentry, -, htree⟩ := exists_rel_of_mem_right hes he
    exact ih entry hentry htree

/-! ## Texts -/

variable {r : Record} {items : Items Part} {entries : Entries Part}

/-- Items that are read as a list have been read up to the bracket. -/
lemma closed_of_readList {s : Shape} {i : Nat} {vs : List s.Val}
    (h : readList s i items = .ok vs) : items.Closed := by
  induction items generalizing i vs with
  | close _ => exact True.intro
  | stop _ _ => cases h
  | item part left rest ih =>
    rw [readList] at h
    split at h
    · cases h
    · split at h
      · rename_i hrest
        exact ih hrest
      · cases h

/-- Items that are read as fields, after which the array can be closed, have been read up to the
bracket. -/
lemma closed_of_readTuple {fs : List Field} {i : Nat} {items : Items Part} {vs : Tuple fs}
    {left : Items Part} (h : readTuple r i fs items = .ok (vs, left))
    (hclose : closeItems left = .ok ()) : items.Closed := by
  induction fs generalizing i items with
  | nil =>
    have hleft : items = left := congrArg Prod.snd (Except.ok.inj h)
    rw [← hleft] at hclose
    cases items with
    | close _ => exact True.intro
    | _ => cases hclose
  | cons f fs ih =>
    cases items with
    | close _ => exact True.intro
    | stop _ _ => cases h
    | item part mark rest =>
      rw [readTuple] at h
      split at h
      · cases h
      · split at h
        · rename_i hrest
          cases h
          exact (ih hrest : rest.Closed)
        · cases h

/-- Slots are filled by the entries that have been read. -/
lemma filled_of_fillSlots {fs : List Field} {slots slots' : Slots fs} {offset : Nat}
    (h : fillSlots fs entries slots = .ok (slots', offset)) :
    Slots.Filled fs (entryReads entries) slots slots' := by
  induction entries generalizing slots with
  | close _ =>
    cases h
    exact Slots.filled_nil_iff.2 rfl
  | stop _ _ => cases h
  | brokenKey _ _ => cases h
  | unpaired key fault =>
    rw [fillSlots] at h
    split at h
    · cases h
    · split at h <;> cases h
  | entry key part left rest ih =>
    rw [fillSlots] at h
    rw [entryReads, Entries.toList]
    cases hkey : key.text with
    | error fault => simp [hkey] at h
    | ok k =>
      have hplaced : ∀ s v, entryReading k left part s = .ok v ↔ part.read s = .ok v :=
        fun s v => mapError_eq_ok_iff
      simp only [hkey] at h
      rw [List.map_cons, ← entryReads, Slots.filled_cons_iff hplaced]
      cases hplace : Slots.place? k (entryReading k left part) fs slots with
      | none =>
        simp only [hplace] at h
        split at h
        · cases h
        · exact Or.inl ⟨rfl, ih h⟩
      | some outcome =>
        cases outcome with
        | error e => simp [hplace] at h
        | ok next =>
          simp only [hplace] at h
          exact Or.inr ⟨next, rfl, ih h⟩

/-- A record read from the inside of an object is made from its entries. -/
lemma readFrom_of_readRecord {x : r.Val} (h : readRecord r entries = .ok x) :
    r.ReadFrom (entryReads entries) x := by
  rw [readRecord] at h
  split at h
  · cases h
  · rename_i slots offset hfill
    split at h
    · cases h
    · rename_i vs hfinish
      obtain ⟨ws, hws, hbuild⟩ := Record.conclude_eq_ok_iff.1 h
      obtain rfl := Except.ok.inj hws
      exact ⟨slots, vs, filled_of_fillSlots hfill, hfinish, hbuild⟩

/-- Items that are read as a record have been read up to the bracket. -/
lemma closed_of_readRecordItems {x : r.Val} (h : readRecordItems r items = .ok x) :
    items.Closed := by
  rw [readRecordItems] at h
  split at h
  · cases h
  · rename_i htuple
    split at h
    · cases h
    · rename_i hclose
      exact closed_of_readTuple htuple hclose

/-- A record read from the inside of an array is made from its items. -/
lemma readFrom_of_readRecordItems {x : r.Val} (h : readRecordItems r items = .ok x) :
    ∃ vs, Tuple.ReadFrom r.fields (itemReads items) vs ∧ r.build vs = .ok x :=
  (readRecordItems_eq_ok_iff (closed_of_readRecordItems h)).1 h

/-- Nothing is found where a value of another type is wanted. -/
lemma wrongType_ne_ok {α : Type} {v : Source} {s : Shape} {x : α} : wrongType v s ≠ .ok x := by
  rw [wrongType]
  split <;> simp

/-- A node of a text is read soundly if its parts are. -/
lemma sound_readAs {v : Source} (hitems : ∀ read ∈ itemReads items, read.Sound)
    (hentries : ∀ e ∈ entryReads entries, e.2.Sound) :
    Reading.Sound (readAs v items entries) := by
  intro s x h
  induction s with
  | text => exact True.intro
  | flag => exact True.intro
  | nothing => exact True.intro
  | kind family => exact True.intro
  | argumentValue =>
    obtain ⟨j, hj, hx⟩ := (readAs_eq_ok_iff_of_keepsTree rfl).1 h
    exact Json.sound_read (distinctKeys_of_tree hj) _ _ hx
  | selection =>
    obtain ⟨j, hj, hx⟩ := (readAs_eq_ok_iff_of_keepsTree rfl).1 h
    exact Json.sound_read (distinctKeys_of_tree hj) _ _ hx
  | names =>
    cases v with
    | array start level nodes =>
      rw [readAs] at h
      split at h
      · cases h
      · obtain ⟨names, -, rfl⟩ := map_eq_ok_iff.1 h
        exact nodup_firstOccurrences names
    | _ => simp [readAs, wrongType_ne_ok] at h
  | record r =>
    cases v with
    | object start level nodes =>
      rw [readAs] at h
      split at h
      · cases h
      · exact (readFrom_of_readRecord h).proper hentries
    | array start level nodes =>
      rw [readAs] at h
      split at h
      · cases h
      · obtain ⟨vs, hvs, hbuild⟩ := readFrom_of_readRecordItems h
        exact Record.proper_of_build r hbuild (hvs.proper hitems)
    | _ => simp [readAs, wrongType_ne_ok] at h
  | list s _ =>
    cases v with
    | array start level nodes =>
      rw [readAs] at h
      split at h
      · cases h
      · have hread := (readList_eq_ok_iff (closed_of_readList h)).1 h
        exact forall_proper_of_forall₂ hitems hread
    | _ => simp [readAs, wrongType_ne_ok] at h
  | optional s ih =>
    by_cases hnull : ∃ start stop, v = .scalar start (.word .null) stop
    · obtain ⟨start, stop, rfl⟩ := hnull
      obtain rfl : none = x := Except.ok.inj h
      exact fun w hw => (by cases hw)
    · have hv : ∀ start stop, v ≠ .scalar start (.word .null) stop :=
        fun start stop heq => hnull ⟨start, stop, heq⟩
      rw [readAs_optional hv] at h
      obtain ⟨y, hy, rfl⟩ := map_eq_ok_iff.1 h
      intro w hw
      obtain rfl := Option.some.inj hw
      exact ih _ hy

/-- **Reading a value of a text is sound.**

**Proof sketch.** Induction on the source tree, by `sound_readAs`; where a tree is kept it repeats
no key (`distinctKeys_of_tree`), and `Json.sound_read` applies to it. -/
theorem sound_read (v : Source) : v.read.Sound := by
  have hnone : ∀ read ∈ itemReads (.close 0), read.Sound := fun _ h => absurd h List.not_mem_nil
  have hempty : ∀ e ∈ entryReads (.close 0), e.2.Sound := fun _ h => absurd h List.not_mem_nil
  induction v using induction with
  | scalar start value stop => exact sound_readAs hnone hempty
  | broken start beginning fault skipFault => exact sound_readAs hnone hempty
  | array start level items ih =>
    rw [read]
    refine sound_readAs ?_ hempty
    rw [itemReads_itemParts]
    exact List.forall_mem_map.2 ih
  | object start level entries ih =>
    rw [read]
    refine sound_readAs hnone ?_
    rw [entryReads_entryParts]
    exact List.forall_mem_map.2 ih

end Source

end Json

end QueryPayload
