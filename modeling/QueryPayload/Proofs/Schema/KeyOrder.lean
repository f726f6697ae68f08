import Mathlib.Tactic.Lemma
import QueryPayload.Proofs.Schema.OfSource
import QueryPayload.Proofs.Schema.Places

/-!
# Reading trees in which entries are reordered

What a tree is read as does not depend on the order of entries, but for the values of arguments,
which keep it.  So two trees that are reordered are read as values that differ in no more than the
values of arguments do.

## Main definitions

* `Shape.Congruence` — a relation between values of each shape that is kept by everything that
  values are made into.
* `Json.Follows` — whatever one tree is read as, the other is read as something related.

## Main results

* `Json.follows_of_reordered` — reordered trees are read as related values.

## Implementation notes

How far the values of arguments may differ depends on whether they are held fixed: not at all, or up
to what they mean.  Both are congruences, and the readers are gone through once for both.
-/

set_option relaxedAutoImplicit false
set_option autoImplicit false

namespace QueryPayload

/-! ## Congruences -/

/-- A relation between the values of each shape. -/
abbrev ShapeRel := (s : Shape) → s.Val → s.Val → Prop

/-- Field by field, values are related. -/
def Tuple.Related (Rel : ShapeRel) : (fs : List Field) → Tuple fs → Tuple fs → Prop
  | [], _, _ => True
  | f :: fs, (x, xs), (y, ys) => Rel f.shape x y ∧ Related Rel fs xs ys

/-- Selections of one kind are related as values of its record. -/
def Selection.Kind.Related (Rel : ShapeRel) (s t : Selection) : Selection.Kind → Prop
  | .booleanCondition => Rel (.record .booleanCondition) s t
  | .field => Rel (.record .field) s t
  | .fragmentSpread => Rel (.record .fragmentSpread) s t
  | .typeCondition => Rel (.record .typeCondition) s t

/-- The shapes whose values have no parts that may differ. -/
def Shape.isPlain : Shape → Bool
  | .text | .flag | .nothing | .kind _ | .names => true
  | _ => false

/-- Whatever the first tree is read as, the second one is read as something related. -/
def Json.Follows (Rel : ShapeRel) (s : Shape) (v w : Json) : Prop :=
  ∀ x, v.read s = .ok x → ∃ y, w.read s = .ok y ∧ Rel s x y

/-- A relation that holds between what related values are made into, and between the values that
reordered trees stand for. -/
structure Shape.Congruence (fixed : Bool) (Rel : ShapeRel) : Prop where
  plain_iff : ∀ {s : Shape}, s.isPlain = true → ∀ {x y : s.Val}, Rel s x y ↔ x = y
  value : ∀ {v w : Json}, v.distinctKeys = true →
    Json.Reordered fixed (some .argumentValue) v w → Json.Follows Rel .argumentValue v w
  selection : ∀ (k : Selection.Kind) {s t : Selection}, k.Related Rel s t → Rel .selection s t
  list : ∀ {s : Shape} {xs ys : List s.Val}, List.Forall₂ (Rel s) xs ys → Rel (.list s) xs ys
  optional : ∀ {s : Shape} {x y : Option s.Val}, Option.Rel (Rel s) x y → Rel (.optional s) x y
  build : ∀ (r : Record) {xs ys : Tuple r.fields} {x : r.Val}, Tuple.Related Rel r.fields xs ys →
    r.build xs = .ok x → ∃ y, r.build ys = .ok y ∧ Rel (.record r) x y

variable {fixed : Bool} {Rel : ShapeRel} {s : Shape} {v w : Json}

namespace Shape.Congruence

/-- The value that stands for an absent one is related to itself. -/
lemma blank (hRel : Congruence fixed Rel) {x : s.Val} (h : s.blank? = some x) : Rel s x x := by
  cases s with
  | flag => exact (hRel.plain_iff rfl).2 rfl
  | optional s =>
    obtain rfl : none = x := Option.some.inj h
    exact hRel.optional .none
  | _ => cases h

end Shape.Congruence

namespace Field

variable {f : Field} {x : f.shape.Val}

/-- What an object that lacks a field has there is blank. -/
lemma blank?_of_absentFromObject? (h : f.absentFromObject? = some x) :
    f.shape.blank? = some x := by
  rw [absentFromObject?] at h
  split at h
  · cases h
  · exact h

/-- What an array that is too short for a field has there is blank. -/
lemma blank?_of_absentFromArray? (h : f.absentFromArray? = some x) : f.shape.blank? = some x := by
  rw [absentFromArray?] at h
  split at h
  · exact h
  · cases h

end Field

namespace Json

/-! ## Nodes with parts -/

section Parts

variable {vs ws : List Json} {es fs gs : List (String × Json)}

/-- What may be null is followed if what may not is. -/
lemma follows_optional (hRel : Shape.Congruence fixed Rel) (hnull : v = .null ↔ w = .null)
    (h : Follows Rel s v w) : Follows Rel (.optional s) v w := by
  intro x hx
  by_cases hv : v = .null
  · obtain rfl := hv
    obtain rfl := hnull.1 rfl
    obtain rfl : none = x := Except.ok.inj hx
    exact ⟨none, rfl, hRel.optional .none⟩
  · rw [read_optional hv, map_eq_ok_iff] at hx
    obtain ⟨x, hx, rfl⟩ := hx
    obtain ⟨y, hy, hxy⟩ := h x hx
    refine ⟨some y, ?_, hRel.optional (.some hxy)⟩
    rw [read_optional (mt hnull.2 hv), hy]
    rfl

/-- Values read one by one are followed by values read one by one. -/
lemma exists_forall₂_of_follows (h : List.Forall₂ (Follows Rel s) vs ws) {xs : List s.Val}
    (hxs : List.Forall₂ (fun v x => v.read s = .ok x) vs xs) :
    ∃ ys, List.Forall₂ (fun w y => w.read s = .ok y) ws ys ∧ List.Forall₂ (Rel s) xs ys :=
  exists_forall₂_of_forall₂ h hxs fun _ _ _ x hvw hx => hvw x hx

/-- A list is followed if its items are. -/
lemma follows_list (hRel : Shape.Congruence fixed Rel) (h : List.Forall₂ (Follows Rel s) vs ws) :
    Follows Rel (.list s) (.arr vs) (.arr ws) := by
  intro xs hxs
  obtain ⟨ys, hys, hxy⟩ := exists_forall₂_of_follows h (read_arr_list_iff.1 hxs)
  exact ⟨ys, read_arr_list_iff.2 hys, hRel.list hxy⟩

/-- Reading an array as names: each of its texts counts once. -/
lemma read_arr_names_iff {names : List String} :
    (arr vs).read .names = .ok names ↔
      ∃ texts, List.Forall₂ (fun v text => v.read .text = .ok text) vs texts ∧
        firstOccurrences texts = names :=
  map_eq_ok_iff.trans (exists_congr fun _ => and_congr_left' (read_arr_list_iff (s := .text)))

/-- Names are followed if the texts are. -/
lemma follows_names (hRel : Shape.Congruence fixed Rel)
    (h : List.Forall₂ (Follows Rel .text) vs ws) : Follows Rel .names (.arr vs) (.arr ws) := by
  intro names hnames
  obtain ⟨texts, htexts, hfirst⟩ := read_arr_names_iff.1 hnames
  obtain ⟨texts', htexts', hrel⟩ := exists_forall₂_of_follows h htexts
  have heq : texts = texts' := eq_of_forall₂ (fun _ _ => (hRel.plain_iff rfl).1) hrel
  exact ⟨names, read_arr_names_iff.2 ⟨texts', htexts', heq ▸ hfirst⟩, (hRel.plain_iff rfl).2 rfl⟩

/-- Fields that are read from items are followed if the items are. -/
lemma exists_readFrom_of_follows (hRel : Shape.Congruence fixed Rel) {fields : List Field}
    (hlength : vs.length = ws.length)
    (h : ∀ (i : Nat) (f : Field) (v w : Json), fields[i]? = some f → vs[i]? = some v →
      ws[i]? = some w → Follows Rel f.shape v w) {xs : Tuple fields}
    (hxs : Tuple.ReadFrom fields (vs.map read) xs) :
    ∃ ys, Tuple.ReadFrom fields (ws.map read) ys ∧ Tuple.Related Rel fields xs ys := by
  induction fields generalizing vs ws with
  | nil =>
    obtain rfl : vs = [] := List.map_eq_nil_iff.1 hxs
    obtain rfl : ws = [] := List.length_eq_zero_iff.1 hlength.symm
    exact ⟨(), rfl, trivial⟩
  | cons f fields ih =>
    obtain ⟨x, xs⟩ := xs
    match vs, ws, hlength with
    | [], [], hlength =>
      obtain ⟨hx, hxs⟩ := hxs
      obtain ⟨ys, hys, hxy⟩ := ih hlength (fun i f v w _ hv => by cases hv) hxs
      exact ⟨(x, ys), ⟨hx, hys⟩, hRel.blank (Field.blank?_of_absentFromArray? hx), hxy⟩
    | v :: vs, w :: ws, hlength =>
      obtain ⟨hx, hxs⟩ := hxs
      obtain ⟨y, hy, hrel⟩ := h 0 f v w rfl rfl rfl x hx
      obtain ⟨ys, hys, hxy⟩ := ih (Nat.succ.inj hlength) (fun i => h (i + 1)) hxs
      exact ⟨(y, ys), ⟨hy, hys⟩, hrel, hxy⟩

/-- A record that is given as an array is followed if its items are. -/
lemma follows_recordItems (hRel : Shape.Congruence fixed Rel) {r : Record}
    (hlength : vs.length = ws.length)
    (h : ∀ (i : Nat) (f : Field) (v w : Json), r.fields[i]? = some f → vs[i]? = some v →
      ws[i]? = some w → Follows Rel f.shape v w) :
    Follows Rel (.record r) (.arr vs) (.arr ws) := by
  intro x hx
  obtain ⟨xs, hxs, hbuild⟩ := read_arr_record_iff.1 hx
  obtain ⟨ys, hys, hxy⟩ := exists_readFrom_of_follows hRel hlength h hxs
  obtain ⟨y, hy, hrel⟩ := hRel.build r hxy hbuild
  exact ⟨y, read_arr_record_iff.2 ⟨ys, hys, hy⟩, hrel⟩

/-- The entries of one object, in another order, and those of another object are under the same
keys, and those that are looked at where the first one stands are followed. -/
def EntriesFollow (Rel : ShapeRel) (s : Shape) (es gs : List (String × Json)) : Prop :=
  ∃ fs, es.Perm fs ∧ List.Forall₂ (fun e e' => e.1 = e'.1 ∧
    ∀ t, s.entryShape? es e.1 = some t → Follows Rel t e.2 e'.2) fs gs

/-- A field is followed if its entries are. -/
lemma exists_foundIn_of_follows (hRel : Shape.Congruence fixed Rel)
    (h : EntriesFollow Rel s es gs) {f : Field}
    (hf : ∀ key, f.answersTo key = true → s.entryShape? es key = some f.shape) {x : f.shape.Val}
    (hx : f.FoundIn (entryReadings es) x) :
    ∃ y, f.FoundIn (entryReadings gs) y ∧ Rel f.shape x y := by
  obtain ⟨fs, horder, hpairs⟩ := h
  have hown : ∀ es : List (String × Json), (entryReadings es).filter (fun e => f.answersTo e.1) =
      (es.filter fun e => f.answersTo e.1).map fun e => (e.1, e.2.read) := by
    intro es
    rw [entryReadings_eq, List.filter_map]
    rfl
  have hreadings : (entryReadings es).Perm (entryReadings fs) := by
    rw [entryReadings_eq, entryReadings_eq]
    exact horder.map _
  rw [Field.foundIn_perm_iff hreadings, Field.FoundIn, hown] at hx
  have hfollows : List.Forall₂ (fun e e' => Follows Rel f.shape e.2 e'.2)
      (fs.filter fun e => f.answersTo e.1) (gs.filter fun e => f.answersTo e.1) := by
    refine forall₂_imp_of_mem_right (List.rel_filter (fun e e' he => by simp [he.1]) hpairs) ?_
    intro e' he' e he
    exact he.2 _ (hf _ (he.1 ▸ (List.mem_filter.1 he').2))
  simp only [Field.FoundIn, hown]
  generalize (fs.filter fun e => f.answersTo e.1) = own at hx hfollows
  generalize (gs.filter fun e => f.answersTo e.1) = own' at hfollows
  cases hfollows with
  | nil => exact ⟨x, hx, hRel.blank (Field.blank?_of_absentFromObject? hx)⟩
  | cons he hrest =>
    cases hrest with
    | nil => exact he x hx
    | cons _ _ => exact hx.elim

/-- Fields are followed if their entries are. -/
lemma exists_tuple_foundIn_of_follows (hRel : Shape.Congruence fixed Rel)
    (h : EntriesFollow Rel s es gs) {fields : List Field}
    (hfields : ∀ f ∈ fields, ∀ key, f.answersTo key = true →
      s.entryShape? es key = some f.shape) {xs : Tuple fields}
    (hxs : Tuple.FoundIn (entryReadings es) fields xs) :
    ∃ ys, Tuple.FoundIn (entryReadings gs) fields ys ∧ Tuple.Related Rel fields xs ys := by
  induction fields with
  | nil => exact ⟨(), trivial, trivial⟩
  | cons f fields ih =>
    obtain ⟨x, xs⟩ := xs
    obtain ⟨hf, hfields⟩ := List.forall_mem_cons.1 hfields
    obtain ⟨y, hy, hxy⟩ := exists_foundIn_of_follows hRel h hf hxs.1
    obtain ⟨ys, hys, hrel⟩ := ih hfields hxs.2
    exact ⟨(y, ys), ⟨hy, hys⟩, hxy, hrel⟩

/-- The record that some entries make is followed if these are. -/
lemma exists_record_of_follows (hRel : Shape.Congruence fixed Rel)
    (h : EntriesFollow Rel s es gs) {r : Record}
    (hfields : ∀ f ∈ r.fields, ∀ key, f.answersTo key = true →
      s.entryShape? es key = some f.shape) {x : r.Val}
    (hx : r.ReadFrom (entryReadings es) x) :
    ∃ y, r.ReadFrom (entryReadings gs) y ∧ Rel (.record r) x y := by
  obtain ⟨xs, hxs, hbuild⟩ := Record.readFrom_iff_foundIn.1 hx
  obtain ⟨ys, hys, hxy⟩ := exists_tuple_foundIn_of_follows hRel h hfields hxs
  obtain ⟨y, hy, hrel⟩ := hRel.build r hxy hbuild
  exact ⟨y, Record.readFrom_iff_foundIn.2 ⟨ys, hys, hy⟩, hrel⟩

/-- A record that is given as an object is followed if its entries are. -/
lemma follows_record (hRel : Shape.Congruence fixed Rel) {r : Record}
    (h : EntriesFollow Rel (.record r) es gs) :
    Follows Rel (.record r) (.obj es) (.obj gs) := by
  intro x hx
  have hfields : ∀ f ∈ r.fields, ∀ key, f.answersTo key = true →
      (Shape.record r).entryShape? es key = some f.shape :=
    fun f hf key hkey => Record.shapeOf?_eq hf hkey
  obtain ⟨y, hy, hxy⟩ := exists_record_of_follows hRel h hfields
    (Record.readFrom_iff_foundIn.2 (read_obj_record_iff.1 hx))
  exact ⟨y, read_obj_record_iff.2 (Record.readFrom_iff_foundIn.1 hy), hxy⟩

/-- The kind of a selection is what stands under the key `kind`. -/
lemma kindOf?_eq (es : List (String × Json)) :
    kindOf? es = (valueAt? "kind" es).bind fun v => (v.read (.kind .selection)).toOption := by
  rw [kindOf?, valueAt?]
  cases es.find? (·.1 == "kind") <;> rfl

/-- A selection whose entries are followed has its kind. -/
lemma kindOf?_of_follows (hRel : Shape.Congruence fixed Rel) (hkeys : (es.map (·.1)).Nodup)
    (h : EntriesFollow Rel .selection es gs) {k : Selection.Kind} (hk : kindOf? es = some k) :
    kindOf? gs = some k := by
  obtain ⟨fs, horder, hpairs⟩ := h
  have hvalue : Option.Rel (Follows Rel (.kind .selection)) (valueAt? "kind" fs)
      (valueAt? "kind" gs) :=
    rel_valueAt?_of_forall₂ (hpairs.imp fun e e' he =>
      ⟨he.1, fun hkind => he.2 _ (by rw [Shape.entryShape?, if_pos hkind])⟩)
  rw [kindOf?_eq, valueAt?_eq_of_perm hkeys horder] at hk
  rw [kindOf?_eq]
  generalize valueAt? "kind" fs = o at hk hvalue
  generalize valueAt? "kind" gs = o' at hvalue
  cases hvalue with
  | none => cases hk
  | @some v w hvw =>
    rw [Option.bind_some] at hk ⊢
    cases hread : v.read (.kind .selection) with
    | error e =>
      rw [hread] at hk
      cases hk
    | ok k' =>
      obtain ⟨l, hl, hrel⟩ := hvw k' hread
      rw [hl, ← hk, hread, (hRel.plain_iff rfl).1 hrel]

/-- A selection is followed if its entries are. -/
lemma follows_selection (hRel : Shape.Congruence fixed Rel) (hkeys : (es.map (·.1)).Nodup)
    (h : EntriesFollow Rel .selection es gs) : Follows Rel .selection (.obj es) (.obj gs) := by
  intro sel hsel
  obtain ⟨k, hk, hfrom⟩ := read_obj_selection_iff.1 hsel
  have hfields : ∀ f ∈ k.record.fields, ∀ key, f.answersTo key = true →
      Shape.selection.entryShape? es key = some f.shape := by
    intro f hf key hkey
    have hkind : key ≠ "kind" := by
      rintro rfl
      simp [k.answersTo_kind f hf] at hkey
    rw [Shape.entryShape?, if_neg hkind, hk, Option.bind_some, Record.shapeOf?_eq hf hkey]
  obtain ⟨sel', hfrom', hrel⟩ :
      ∃ sel', k.ReadFrom (entryReadings gs) sel' ∧ k.Related Rel sel sel' := by
    cases k <;> exact exists_record_of_follows hRel h hfields hfrom
  exact ⟨sel', read_obj_selection_iff.2 ⟨k, kindOf?_of_follows hRel hkeys h hk, hfrom'⟩,
    hRel.selection k hrel⟩

/-- Reading an object as a kind: its one key spells the kind, and null is under it. -/
lemma read_obj_kind_iff {family : KindFamily} {k : family.Member} :
    (obj es).read (.kind family) = .ok k ↔
      ∃ name v, es = [(name, v)] ∧ family.find? name = some k ∧ v.read .nothing = .ok () := by
  rw [read, readAs, readKindEntry_eq_ok_iff, entryReadings_eq]
  constructor
  · rintro ⟨name, read, hes, hname, hread⟩
    obtain ⟨⟨_, v⟩, rfl, hev⟩ := List.map_eq_singleton_iff.1 hes
    obtain ⟨rfl, rfl⟩ := Prod.mk.inj hev
    exact ⟨_, v, rfl, hname, hread⟩
  · rintro ⟨name, v, rfl, hname, hread⟩
    exact ⟨name, v.read, rfl, hname, hread⟩

/-- A kind that is given as an object is followed if its one entry is. -/
lemma follows_kind (hRel : Shape.Congruence fixed Rel) {family : KindFamily}
    (h : EntriesFollow Rel (.kind family) es gs) :
    Follows Rel (.kind family) (.obj es) (.obj gs) := by
  intro k hk
  obtain ⟨name, v, rfl, hname, hread⟩ := read_obj_kind_iff.1 hk
  obtain ⟨fs, horder, hpairs⟩ := h
  obtain rfl := List.singleton_perm.1 horder
  obtain ⟨⟨name', w⟩, gs, ⟨hkey, hvalue⟩, hrest, rfl⟩ := List.forall₂_cons_left_iff.1 hpairs
  obtain rfl := List.forall₂_nil_left_iff.1 hrest
  obtain rfl : name = name' := hkey
  obtain ⟨⟨⟩, hw, -⟩ := hvalue .nothing rfl () hread
  exact ⟨k, read_obj_kind_iff.2 ⟨name, w, rfl, hname, hw⟩, (hRel.plain_iff rfl).2 rfl⟩

end Parts

/-! ## Trees -/

/-- A tree without parts is followed by itself. -/
lemma follows_leaf (hRel : Shape.Congruence fixed Rel) (hkeys : v.distinctKeys = true)
    (hself : Reordered fixed (some .argumentValue) v v)
    (hselection : ∀ x, v.read .selection ≠ .ok x)
    (hrecord : ∀ r x, v.read (.record r) ≠ .ok x) (hlist : ∀ s x, v.read (.list s) ≠ .ok x) :
    Follows Rel s v v := by
  induction s with
  | optional s ih => exact follows_optional hRel Iff.rfl ih
  | argumentValue => exact hRel.value hkeys hself
  | selection => exact fun x hx => absurd hx (hselection x)
  | record r => exact fun x hx => absurd hx (hrecord r x)
  | list s _ => exact fun x hx => absurd hx (hlist s x)
  | _ => exact fun x hx => ⟨x, hx, (hRel.plain_iff rfl).2 rfl⟩

/-- An array is followed if its items are. -/
lemma follows_arr (hRel : Shape.Congruence fixed Rel) {vs ws : List Json}
    (hkeys : (arr vs).distinctKeys = true) (h : Reordered fixed (some s) (.arr vs) (.arr ws))
    (hparts : ∀ v ∈ vs, ∀ w t, Reordered fixed (some t) v w → Follows Rel t v w) :
    Follows Rel s (.arr vs) (.arr ws) := by
  induction s with
  | optional s ih => exact follows_optional hRel (iff_of_false nofun nofun) (ih h.of_optional)
  | argumentValue => exact hRel.value hkeys h
  | names =>
    cases h with
    | arr hlength hitems =>
      exact follows_names hRel (forall₂_of_getElem? hlength fun i v w hv hw =>
        hparts v (List.mem_of_getElem? hv) w _ (hitems i v w hv hw))
  | list s _ =>
    cases h with
    | arr hlength hitems =>
      exact follows_list hRel (forall₂_of_getElem? hlength fun i v w hv hw =>
        hparts v (List.mem_of_getElem? hv) w _ (hitems i v w hv hw))
  | record r =>
    cases h with
    | arr hlength hitems =>
      refine follows_recordItems hRel hlength fun i f v w hf hv hw => ?_
      have hplace : (Shape.record r).itemShape? i = some f.shape := by
        rw [Shape.itemShape?, hf, Option.map_some]
      exact hparts v (List.mem_of_getElem? hv) w _ (hplace ▸ hitems i v w hv hw)
  | _ => exact fun x hx => by cases hx

/-- The entries of reordered objects are followed if what is looked at in them is. -/
lemma Reordered.entriesFollow {es gs : List (String × Json)}
    (h : Reordered fixed (some s) (.obj es) (.obj gs))
    (hparts : ∀ e ∈ es, ∀ w t, Reordered fixed (some t) e.2 w → Follows Rel t e.2 w) :
    EntriesFollow Rel s es gs := by
  cases h with
  | @obj _ _ fs _ horder _ hkeys hentries =>
    refine ⟨fs, horder, forall₂_of_zip hkeys fun e e' hzip t ht => ?_⟩
    have he : e ∈ es := horder.mem_iff.2 (List.of_mem_zip hzip).1
    exact hparts e he e'.2 t (ht ▸ hentries e e' hzip)

/-- An object is followed if its entries are. -/
lemma follows_obj (hRel : Shape.Congruence fixed Rel) {es gs : List (String × Json)}
    (hkeys : (obj es).distinctKeys = true) (h : Reordered fixed (some s) (.obj es) (.obj gs))
    (hparts : ∀ e ∈ es, ∀ w t, Reordered fixed (some t) e.2 w → Follows Rel t e.2 w) :
    Follows Rel s (.obj es) (.obj gs) := by
  induction s with
  | optional s ih => exact follows_optional hRel (iff_of_false nofun nofun) (ih h.of_optional)
  | argumentValue => exact hRel.value hkeys h
  | kind family => exact follows_kind hRel (h.entriesFollow hparts)
  | record r => exact follows_record hRel (h.entriesFollow hparts)
  | selection =>
    exact follows_selection hRel (distinctKeys_obj_iff.1 hkeys).1 (h.entriesFollow hparts)
  | _ => exact fun x hx => by cases hx

/-- **Reordered trees are read as related values**, whatever the first one is read as.

**Proof sketch.** Induction on the tree.  A record takes its entries in any order, and so does a
selection, whose kind is the one entry of that key (`kindOf?_of_follows`); what is found in related
entries is related, and so is what is built of it. -/
theorem follows_of_reordered (hRel : Shape.Congruence fixed Rel) (hkeys : v.distinctKeys = true)
    (h : Reordered fixed (some s) v w) : Follows Rel s v w := by
  induction v using Json.induction generalizing s w with
  | null =>
    cases h
    exact follows_leaf hRel rfl .null nofun nofun nofun
  | bool b =>
    cases h
    exact follows_leaf hRel rfl (.bool b) nofun nofun nofun
  | num n =>
    cases h
    exact follows_leaf hRel rfl (.num n) nofun nofun nofun
  | str t =>
    cases h
    exact follows_leaf hRel rfl (.str t) nofun nofun nofun
  | arr vs ih =>
    obtain ⟨ws, rfl⟩ : ∃ ws, w = .arr ws := by
      cases h
      exact ⟨_, rfl⟩
    have hitems := distinctKeys_arr_iff.1 hkeys
    exact follows_arr hRel hkeys h fun v hv w t => ih v hv (hitems v hv)
  | obj es ih =>
    obtain ⟨gs, rfl⟩ : ∃ gs, w = .obj gs := by
      cases h
      exact ⟨_, rfl⟩
    have hentries := (distinctKeys_obj_iff.1 hkeys).2
    exact follows_obj hRel hkeys h fun e he w t => ih e he (hentries e he)

end Json

end QueryPayload
