import Mathlib.Tactic.Lemma
import QueryPayload.Proofs.ArgumentValue.Integers
import QueryPayload.Proofs.ArgumentValue.OfJson
import QueryPayload.Proofs.Json.Compact
import QueryPayload.Proofs.Json.Floats

/-!
# Values of arguments are read back

## Main definitions

* `ArgumentValue.depth` — how deeply lists and objects are nested.
* `ArgumentValue.floats` — the floating-point numbers in a value.
* `ArgumentValue.FloatsReadBack` — each of them is read back from how it is written.

## Main results

* `ArgumentValue.induction` — induction on values, with a hypothesis for every part.
* `ArgumentValue.ofJson?_toJson`, `ArgumentValue.toJson_of_ofJson?` — the trees of values.
* `ArgumentValue.decode_toJson` — what the text of a value is read as.
-/

set_option relaxedAutoImplicit false
set_option autoImplicit false

namespace QueryPayload

namespace ArgumentValue

/-! ## Values, part by part -/

/-- **Induction on values**: a list has the hypothesis for each item, and an object for the value of
each entry. -/
@[elab_as_elim]
theorem induction {motive : ArgumentValue → Prop} (null : motive .null)
    (bool : ∀ b, motive (.bool b)) (int : ∀ n, motive (.int n)) (float : ∀ x, motive (.float x))
    (string : ∀ s, motive (.string s))
    (list : ∀ items, (∀ a ∈ items, motive a) → motive (.list items))
    (object : ∀ entries, (∀ e ∈ entries, motive e.2) → motive (.object entries))
    (a : ArgumentValue) : motive a := by
  refine @ArgumentValue.rec motive (fun items => ∀ a ∈ items, motive a)
    (fun entries => ∀ e ∈ entries, motive e.2) (fun e => motive e.2) null bool int float string
    list object ?_ ?_ ?_ ?_ ?_ a
  -- the items of a list
  · exact fun _ h => absurd h List.not_mem_nil
  · exact fun _ _ ha has => List.forall_mem_cons.2 ⟨ha, has⟩
  -- the entries of an object, and one entry
  · exact fun _ h => absurd h List.not_mem_nil
  · exact fun _ _ he hes => List.forall_mem_cons.2 ⟨he, hes⟩
  · exact fun _ _ ha => ha

variable {items : List ArgumentValue} {entries : List (String × ArgumentValue)}

/-- The trees of the items of a list. -/
lemma itemsToJson_eq_map : itemsToJson items = items.map toJson := by
  induction items with
  | nil => rfl
  | cons a items ih => rw [itemsToJson, ih, List.map_cons]

/-- The trees of the entries of an object. -/
lemma entriesToJson_eq_map : entriesToJson entries = entries.map fun e => (e.1, e.2.toJson) := by
  induction entries with
  | nil => rfl
  | cons e entries ih => rw [entriesToJson, ih, List.map_cons]

/-- The tree of an object has its keys. -/
lemma keys_entriesToJson : (entriesToJson entries).map (·.1) = entries.map (·.1) := by
  rw [entriesToJson_eq_map, List.map_map]
  rfl

mutual

/-- How deeply lists and objects are nested in a value. -/
def depth : ArgumentValue → Nat
  | .list items => itemsDepth items + 1
  | .object entries => entriesDepth entries + 1
  | _ => 0

/-- How deeply lists and objects are nested in the items of a list. -/
def itemsDepth : List ArgumentValue → Nat
  | [] => 0
  | a :: as => max a.depth (itemsDepth as)

/-- How deeply lists and objects are nested in the values of an object. -/
def entriesDepth : List (String × ArgumentValue) → Nat
  | [] => 0
  | (_, a) :: as => max a.depth (entriesDepth as)

end

mutual

/-- The floating-point numbers in a value. -/
def floats : ArgumentValue → List Binary64
  | .float x => [x]
  | .list items => itemsFloats items
  | .object entries => entriesFloats entries
  | _ => []

/-- The floating-point numbers in the items of a list. -/
def itemsFloats : List ArgumentValue → List Binary64
  | [] => []
  | a :: as => a.floats ++ itemsFloats as

/-- The floating-point numbers in the values of an object. -/
def entriesFloats : List (String × ArgumentValue) → List Binary64
  | [] => []
  | (_, a) :: as => a.floats ++ entriesFloats as

end

/-- The floating-point numbers in the items of a list are those in each of them. -/
lemma itemsFloats_eq_flatMap : itemsFloats items = items.flatMap floats := by
  induction items with
  | nil => rfl
  | cons a items ih => rw [itemsFloats, ih, List.flatMap_cons]

/-- The floating-point numbers in the values of an object are those in each of them. -/
lemma entriesFloats_eq_flatMap :
    entriesFloats entries = entries.flatMap fun e => e.2.floats := by
  induction entries with
  | nil => rfl
  | cons e entries ih => rw [entriesFloats, ih, List.flatMap_cons]

/-- Each floating-point number in a value is read back from how it is written.  The conversion of
numerals does not always end at the nearest number, so that this is asked of the numbers. -/
def FloatsReadBack (a : ArgumentValue) : Prop :=
  ∀ x ∈ a.floats, Json.ofText (Utf8.encode x.jsonText) = .ok (.num (.float x))

/-- Floating-point numbers with few digits are read back. -/
lemma FloatsReadBack.of_few {a : ArgumentValue}
    (h : ∀ x ∈ a.floats, x.isFinite = true ∧
      (x.shortest .toEven).digits * 10 ^ ((x.shortest .toEven).exponent.toNat + 1) < 2 ^ 53 ∧
      -22 ≤ (x.shortest .toEven).exponent) : a.FloatsReadBack := fun x hx =>
  let ⟨hfinite, hfew, hleast⟩ := h x hx
  Json.ofText_jsonText hfinite hfew hleast

/-- If the numbers in a list are read back, those in its items are. -/
lemma FloatsReadBack.of_mem_items {a : ArgumentValue} (h : (list items).FloatsReadBack)
    (ha : a ∈ items) : a.FloatsReadBack := by
  intro x hx
  refine h x ?_
  rw [floats, itemsFloats_eq_flatMap]
  exact List.mem_flatMap.2 ⟨a, ha, hx⟩

/-- If the numbers in an object are read back, those in its values are. -/
lemma FloatsReadBack.of_mem_entries {e : String × ArgumentValue}
    (h : (object entries).FloatsReadBack) (he : e ∈ entries) : e.2.FloatsReadBack := by
  intro x hx
  refine h x ?_
  rw [floats, entriesFloats_eq_flatMap]
  exact List.mem_flatMap.2 ⟨e, he, hx⟩

/-! ## The tree of a value -/

/-- The tree of a value is nested as deeply as the value. -/
lemma nesting_toJson (a : ArgumentValue) : a.toJson.nesting = a.depth := by
  induction a using ArgumentValue.induction with
  | list items ih =>
    rw [toJson, Json.nesting, depth]
    congr 1
    induction items with
    | nil => rfl
    | cons a items ihs =>
      obtain ⟨ha, hrest⟩ := List.forall_mem_cons.1 ih
      rw [itemsToJson, Json.itemsNesting, itemsDepth, ha, ihs hrest]
  | object entries ih =>
    rw [toJson, Json.nesting, depth]
    congr 1
    induction entries with
    | nil => rfl
    | cons e entries ihs =>
      obtain ⟨he, hrest⟩ := List.forall_mem_cons.1 ih
      rw [entriesToJson, Json.entriesNesting, entriesDepth, he, ihs hrest]
  | _ => rfl

/-- The numbers in the tree of a proper value can be written, if the floating-point numbers are read
back. -/
lemma spelled_toJson {a : ArgumentValue} (ha : a.Proper) (hfloats : a.FloatsReadBack) :
    a.toJson.Spelled := by
  induction a using ArgumentValue.induction with
  | int n => exact Json.Number.spelled_int ⟨ha.1, ha.2.trans (by decide)⟩
  | float x => exact Json.Number.spelled_float ha (hfloats x (List.mem_singleton_self x))
  | list items ih =>
    have hitems := itemsProper_iff.1 ha
    rw [toJson, Json.Spelled, Json.itemsSpelled_iff, itemsToJson_eq_map, List.forall_mem_map]
    exact fun a hmem => ih a hmem (hitems a hmem) (hfloats.of_mem_items hmem)
  | object entries ih =>
    have hentries := entriesProper_iff.1 ha.2
    rw [toJson, Json.Spelled, Json.entriesSpelled_iff, entriesToJson_eq_map, List.forall_mem_map]
    exact fun e hmem => ih e hmem (hentries e hmem) (hfloats.of_mem_entries hmem)
  | _ => exact True.intro

/-- The tree of a proper value repeats no key. -/
lemma distinctKeys_toJson {a : ArgumentValue} (ha : a.Proper) : a.toJson.distinctKeys = true := by
  induction a using ArgumentValue.induction with
  | list items ih =>
    have hitems := itemsProper_iff.1 ha
    rw [toJson, Json.distinctKeys_arr_iff, itemsToJson_eq_map, List.forall_mem_map]
    exact fun a hmem => ih a hmem (hitems a hmem)
  | object entries ih =>
    obtain ⟨hkeys, hentries⟩ := ha
    rw [toJson, Json.distinctKeys_obj_iff, keys_entriesToJson, entriesToJson_eq_map,
      List.forall_mem_map]
    exact ⟨hkeys, fun e hmem => ih e hmem (entriesProper_iff.1 hentries e hmem)⟩
  | _ => rfl

/-- **The tree of a proper value stands for the value.**

**Proof sketch.** Induction on the value.  The items and entries keep their order, and a number has
a tree of its own variant. -/
theorem ofJson?_toJson {a : ArgumentValue} (ha : a.Proper) : ofJson? a.toJson = .ok a := by
  induction a using ArgumentValue.induction with
  | int n => exact ofNumber?_eq_ok_iff.2 (.inl ⟨n, rfl, fits_iff.2 ha, rfl⟩)
  | float x => exact ofNumber?_eq_ok_iff.2 (.inr ⟨x, rfl, ha, rfl⟩)
  | list items ih =>
    have hitems := itemsProper_iff.1 ha
    refine ofJson?_arr_eq_ok_iff.2 ⟨items, ?_, rfl⟩
    rw [itemsToJson_eq_map, List.forall₂_map_left_iff, List.forall₂_same]
    exact fun a hmem => ih a hmem (hitems a hmem)
  | object entries ih =>
    have hentries := entriesProper_iff.1 ha.2
    refine ofJson?_obj_eq_ok_iff.2 ⟨entries, ?_, rfl⟩
    rw [entriesToJson_eq_map, List.forall₂_map_left_iff, List.forall₂_same]
    exact fun e hmem => ⟨rfl, ih e hmem (hentries e hmem)⟩
  | _ => rfl

/-- **The value that a tree stands for has that tree.**

**Proof sketch.** Induction on the tree.  No item and no entry is left out, and none is merged with
another. -/
theorem toJson_of_ofJson? {v : Json} {a : ArgumentValue} (h : ofJson? v = .ok a) :
    a.toJson = v := by
  induction v using Json.induction generalizing a with
  | null => cases h; rfl
  | bool b => cases h; rfl
  | num n => rcases ofNumber?_eq_ok_iff.1 h with ⟨i, rfl, -, rfl⟩ | ⟨x, rfl, -, rfl⟩ <;> rfl
  | str s => cases h; rfl
  | arr items ih =>
    obtain ⟨as, has, rfl⟩ := ofJson?_arr_eq_ok_iff.1 h
    have hsame : as.map toJson = items := by
      rw [← List.forall₂_eq_eq_eq, List.forall₂_map_left_iff]
      exact forall₂_imp_of_mem_right has.flip fun v hmem _ hva => ih v hmem hva
    rw [toJson, itemsToJson_eq_map, hsame]
  | obj entries ih =>
    obtain ⟨as, has, rfl⟩ := ofJson?_obj_eq_ok_iff.1 h
    have hsame : as.map (fun e => (e.1, e.2.toJson)) = entries := by
      rw [← List.forall₂_eq_eq_eq, List.forall₂_map_left_iff]
      exact forall₂_imp_of_mem_right has.flip fun e hmem _ hp =>
        Prod.ext hp.1.symm (ih e hmem hp.2)
    rw [toJson, entriesToJson_eq_map, hsame]

/-- **Values of arguments are read back.**  The text of a value with 64-bit integers, finite
floating-point numbers that are read back, and no repeated keys, in which at most 127 lists and
objects stand inside each other, is decoded as that value.  And the value that a tree is read as is
written as that tree.

**Proof sketch.** The tree of the value is read as the value (`ofJson?_toJson`), and every number in
it is written as a numeral that stands for it (`spelled_toJson`), so that the text is read as the
tree is (`Json.decode_compact_of_read`).  The other way round it is `toJson_of_ofJson?`. -/
theorem decode_toJson (a : ArgumentValue) :
    (a.Proper → a.depth ≤ 127 → a.FloatsReadBack →
      Shape.decode .argumentValue (Utf8.bytes a.toJson.compact) = .ok a) ∧
    ∀ v : Json, v.read .argumentValue = .ok a → a.toJson = v := by
  refine ⟨fun ha hdepth hfloats => ?_,
    fun v hv => toJson_of_ofJson? (Json.read_argumentValue_iff.1 hv)⟩
  have hread : a.toJson.read .argumentValue = .ok a :=
    Json.read_argumentValue_iff.2 (ofJson?_toJson ha)
  have hnesting : a.toJson.nesting ≤ Json.Source.maxLevel := by rwa [nesting_toJson]
  exact Json.decode_compact_of_read (spelled_toJson ha hfloats) hnesting
    (distinctKeys_toJson ha) hread

/-- An object with the least and the greatest integer, numbers without a fraction, and a key that
has to be escaped. -/
def mixed : ArgumentValue :=
  .object [("\"Ä\\\t", .list [.int (-2 ^ 63), .int (2 ^ 63 - 1), .float ⟨false, 0x3FF0000000000000⟩,
    .float (.zero true), .list []]), ("a", .object [("s", .string "\n"), ("n", .null)])]

/-- The tree of `mixed`. -/
def mixedTree : Json :=
  .obj [("\"Ä\\\t", .arr [.num (.int (-2 ^ 63)), .num (.int (2 ^ 63 - 1)),
    .num (.float ⟨false, 0x3FF0000000000000⟩), .num (.float (.zero true)), .arr []]),
    ("a", .obj [("s", .str "\n"), ("n", .null)])]

/-- `decode_toJson` for a value with integers, numbers without a fraction, strings, lists and
objects. -/
theorem decode_toJson_mixed :
    (mixed.Proper ∧ mixed.depth ≤ 127 ∧ mixed.FloatsReadBack ∧
      Shape.decode .argumentValue (Utf8.bytes mixed.toJson.compact) = .ok mixed) ∧
    mixedTree.read .argumentValue = .ok mixed ∧ mixed.toJson = mixedTree := by
  have hproper : mixed.Proper := by
    simp [mixed, Proper, ItemsProper, EntriesProper, Binary64.isFinite, Binary64.zero,
      Binary64.infinite, Binary64.fractionCount]
  have hdepth : mixed.depth ≤ 127 := by decide
  have hfloats : mixed.FloatsReadBack := .of_few (by decide +kernel)
  have htree : mixedTree.read .argumentValue = .ok mixed := by rfl
  exact ⟨⟨hproper, hdepth, hfloats, (decode_toJson mixed).1 hproper hdepth hfloats⟩, htree,
    (decode_toJson mixed).2 mixedTree htree⟩

end ArgumentValue

end QueryPayload
