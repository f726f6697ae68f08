import Mathlib.Tactic.Lemma
import QueryPayload.Proofs.ArgumentValue.RoundTrip
import QueryPayload.Proofs.Entries
import QueryPayload.Proofs.Equivalences

/-!
# Values of arguments that mean the same

Two values mean the same if one of them is the other with the entries of its objects rearranged, at
any depth.  Objects are compared from one side: they are equally long, and every entry on the left
is found on the right.  That is a symmetric relation only as long as no object repeats a key.

## Main definitions

* `ArgumentValue.Rearranged` — one value is the other with the entries of objects in another order.

## Main results

* `ArgumentValue.same_iff_rearranged` — which values mean the same.
* `ArgumentValue.equivalentAt_same` — meaning the same is an equivalence of proper values.
-/

set_option relaxedAutoImplicit false
set_option autoImplicit false

namespace QueryPayload

namespace ArgumentValue

variable {a b : ArgumentValue} {as bs : List ArgumentValue}
  {entries entries' : List (String × ArgumentValue)}

/-! ## Numbers, lists and objects -/

/-- Lists mean the same if their items do, one by one. -/
lemma sameItems_iff :
    sameItems as bs = true ↔ List.Forall₂ (fun a b => a.same b = true) as bs := by
  induction as generalizing bs with
  | nil => cases bs <;> simp [sameItems]
  | cons a as ih => cases bs <;> simp [sameItems, ih]

/-- Every entry is looked for under its key. -/
lemma sameEntries_iff :
    sameEntries entries entries' = true ↔
      ∀ e ∈ entries, ∃ b, valueAt? e.1 entries' = some b ∧ e.2.same b = true := by
  induction entries with
  | nil => simp [sameEntries]
  | cons e entries ih =>
    obtain ⟨key, a⟩ := e
    rw [sameEntries, Bool.and_eq_true, ih, List.forall_mem_cons, valueAt?]
    refine and_congr_left' ?_
    cases entries'.find? (·.1 == key) with
    | none => simp
    | some e => simp

/-- A number means the same as numbers equal to it. -/
lemma same_float_iff {x : Binary64} :
    (float x).same b = true ↔ ∃ y, b = .float y ∧ x.numericEq y = true := by
  cases b with
  | float y => simp [same]
  | _ => simp [same]

/-- A list means the same as lists with items that do. -/
lemma same_list_iff :
    (list as).same b = true ↔
      ∃ bs, b = .list bs ∧ List.Forall₂ (fun a b => a.same b = true) as bs := by
  cases b with
  | list bs => simp [same, sameItems_iff]
  | _ => simp [same]

/-- An object means the same as equally long ones in which its entries are found. -/
lemma same_object_iff :
    (object entries).same b = true ↔
      ∃ entries', b = .object entries' ∧
        EachFound (fun a b => a.same b = true) entries entries' := by
  cases b with
  | object entries' => simp [same, sameEntries_iff, EachFound]
  | _ => simp [same]

/-- Null, booleans, integers and strings: values that have no parts and are written in one way. -/
def isRigid : ArgumentValue → Bool
  | .null | .bool _ | .int _ | .string _ => true
  | .float _ | .list _ | .object _ => false

/-- A rigid value means the same as nothing but itself. -/
lemma same_iff_eq (ha : a.isRigid = true) : a.same b = true ↔ a = b := by
  cases a with
  | float | list | object => cases ha
  | _ => cases b <;> simp [same]

/-! ## Rearranging -/

/-- One value is the other with the entries of objects in another order, at any depth.
Floating-point numbers need only be equal as numbers, and never stand for integers. -/
inductive Rearranged : ArgumentValue → ArgumentValue → Prop
  | null : Rearranged .null .null
  | bool (b : Bool) : Rearranged (.bool b) (.bool b)
  | int (n : Int) : Rearranged (.int n) (.int n)
  | float {x y : Binary64} (h : x.numericEq y = true) : Rearranged (.float x) (.float y)
  | string (s : String) : Rearranged (.string s) (.string s)
  | list {as bs : List ArgumentValue} (h : List.Forall₂ Rearranged as bs) :
    Rearranged (.list as) (.list bs)
  | object {as bs cs : List (String × ArgumentValue)} (horder : as.Perm bs)
    (h : List.Forall₂ (EntryRel Rearranged) bs cs) : Rearranged (.object as) (.object cs)

/-- A rigid value is not rearranged. -/
lemma rearranged_iff_eq (ha : a.isRigid = true) : a.Rearranged b ↔ a = b := by
  constructor
  · intro h
    cases h with
    | float | list | object => cases ha
    | _ => rfl
  · rintro rfl
    cases a with
    | float | list | object => cases ha
    | _ => constructor

/-- A number is rearranged into numbers equal to it. -/
lemma rearranged_float_iff {x : Binary64} :
    Rearranged (.float x) b ↔ ∃ y, b = .float y ∧ x.numericEq y = true := by
  constructor
  · rintro ⟨⟩
    exact ⟨_, rfl, ‹_›⟩
  · rintro ⟨y, rfl, h⟩
    exact .float h

/-- A list is rearranged if its items are. -/
lemma rearranged_list_iff :
    Rearranged (.list as) b ↔ ∃ bs, b = .list bs ∧ List.Forall₂ Rearranged as bs := by
  constructor
  · rintro ⟨⟩
    exact ⟨_, rfl, ‹_›⟩
  · rintro ⟨bs, rfl, h⟩
    exact .list h

/-- An object is rearranged if its entries are put in another order and then rearranged. -/
lemma rearranged_object_iff :
    Rearranged (.object entries) b ↔
      ∃ entries', b = .object entries' ∧ Rearranges Rearranged entries entries' := by
  constructor
  · rintro ⟨⟩
    exact ⟨_, rfl, _, ‹_›, ‹_›⟩
  · rintro ⟨entries', rfl, cs, horder, h⟩
    exact .object horder h

/-! ## Keys that are not repeated -/

/-- The items of a list without repeated keys have none. -/
lemma distinctKeys_list_iff :
    (list as).toJson.distinctKeys = true ↔ ∀ a ∈ as, a.toJson.distinctKeys = true := by
  rw [toJson, Json.distinctKeys_arr_iff, itemsToJson_eq_map, List.forall_mem_map]

/-- The keys of an object without repeated keys differ, and its values have none. -/
lemma distinctKeys_object_iff :
    (object entries).toJson.distinctKeys = true ↔
      (entries.map (·.1)).Nodup ∧ ∀ e ∈ entries, e.2.toJson.distinctKeys = true := by
  rw [toJson, Json.distinctKeys_obj_iff, keys_entriesToJson, entriesToJson_eq_map,
    List.forall_mem_map]

/-! ## Meaning the same -/

/-- **Values mean the same** exactly if one is the other with the entries of its objects rearranged.

**Proof sketch.** Induction on the first value.  Two objects mean the same if each entry of the
first one is found in the second one, and since no key is repeated, that is so if the entries can be
put in the order of those in the second one (`rearranges_iff_eachFound`). -/
theorem same_iff_rearranged (ha : a.toJson.distinctKeys = true)
    (hb : b.toJson.distinctKeys = true) : a.same b = true ↔ a.Rearranged b := by
  induction a using ArgumentValue.induction generalizing b with
  | list as ih =>
    have has := distinctKeys_list_iff.1 ha
    rw [same_list_iff, rearranged_list_iff]
    refine exists_congr fun bs => and_congr_right ?_
    rintro rfl
    have hbs := distinctKeys_list_iff.1 hb
    exact forall₂_congr_of_mem fun a hmem b hmem' => ih a hmem (has a hmem) (hbs b hmem')
  | object entries ih =>
    obtain ⟨hkeys, hentries⟩ := distinctKeys_object_iff.1 ha
    rw [same_object_iff, rearranged_object_iff]
    refine exists_congr fun entries' => and_congr_right ?_
    rintro rfl
    obtain ⟨hkeys', hentries'⟩ := distinctKeys_object_iff.1 hb
    rw [← rearranges_iff_eachFound hkeys hkeys']
    refine exists_congr fun cs => and_congr_right fun hperm => ?_
    refine forall₂_congr_of_mem fun e hmem e' hmem' => ?_
    have he := hperm.mem_iff.2 hmem
    rw [entryRel_iff, entryRel_iff, ih e he (hentries e he) (hentries' e' hmem')]
  | float x => rw [same_float_iff, rearranged_float_iff]
  | null => rw [same_iff_eq rfl, rearranged_iff_eq rfl]
  | bool x => rw [same_iff_eq rfl, rearranged_iff_eq rfl]
  | int n => rw [same_iff_eq rfl, rearranged_iff_eq rfl]
  | string s => rw [same_iff_eq rfl, rearranged_iff_eq rfl]

/-- Objects mean the same if they bind every key alike, which is an equivalence if it is one of the
values of the first one. -/
lemma equivalentAt_object (h : (object entries).Proper)
    (hentries : ∀ e ∈ entries, EquivalentAt Proper (fun a b => a.same b = true) e.2) :
    EquivalentAt (fun entries => (object entries).Proper) (EachFound fun a b => a.same b = true)
      entries := by
  have hvalue : ∀ key, EquivalentAt (fun entries => (object entries).Proper)
      (fun entries entries' => Option.Rel (fun a b : ArgumentValue => a.same b = true)
        (valueAt? key entries) (valueAt? key entries')) entries := by
    intro key
    refine .comap (valueAt? key) (fun es hes a ha => ?_) (.optional (p := Proper) fun a ha => ?_)
    · exact entriesProper_iff.1 hes.2 _ ((valueAt?_eq_some_iff hes.1).1 ha)
    · exact hentries _ ((valueAt?_eq_some_iff h.1).1 ha)
  refine .congr h (fun es es' hes hes' => ?_) (.forall_index hvalue)
  exact (bindAlike_iff_eachFound hes.1 hes'.1).symm

/-- **Meaning the same is an equivalence** of proper values.

**Proof sketch.** Induction on the value.  Finite numbers mean the same if they have one value, and
objects if they bind every key alike (`equivalentAt_object`). -/
theorem equivalentAt_same (ha : a.Proper) :
    EquivalentAt Proper (fun a b => a.same b = true) a := by
  induction a using ArgumentValue.induction with
  | null => exact .of_eq fun b => same_iff_eq rfl
  | bool x => exact .of_eq fun b => same_iff_eq rfl
  | int n => exact .of_eq fun b => same_iff_eq rfl
  | string s => exact .of_eq fun b => same_iff_eq rfl
  | float x =>
    refine .of_constructor (fun x b => same_float_iff) (.congr ha (fun y z hy hz => ?_)
      (.eq_of Binary64.signedValue))
    exact Binary64.numericEq_iff hy hz
  | list as ih =>
    have has := itemsProper_iff.1 ha
    refine .of_constructor (fun as b => same_list_iff) (.mono (fun bs => itemsProper_iff.1) ?_)
    exact .forall₂ fun a hmem => ih a hmem (has a hmem)
  | object entries ih =>
    have hentries := entriesProper_iff.1 ha.2
    refine .of_constructor (fun entries b => same_object_iff) (equivalentAt_object ha ?_)
    exact fun e hmem => ih e hmem (hentries e hmem)

end ArgumentValue

end QueryPayload
