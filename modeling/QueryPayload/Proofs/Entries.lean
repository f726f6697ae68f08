import Mathlib.Data.List.Nodup
import Mathlib.Data.List.Perm.Subperm
import Mathlib.Tactic.Lemma
import QueryPayload.Proofs.Related

/-!
# Entries under keys

An object and a registry are lists of entries that bind keys to values.  As long as no key is
repeated, their order does not matter to what a key is bound to.

## Main definitions

* `valueAt?` — the value under a key.
* `EntryRel` — two entries have one key and related values.
* `EachFound`, `Rearranges`, `BindAlike` — entries are related to those found under their keys;
  they are related one by one when put in another order; every key is bound to related values.

## Main results

* `bindAlike_iff_eachFound`, `rearranges_iff_eachFound` — the three say the same of entries without
  repeated keys.
-/

set_option relaxedAutoImplicit false
set_option autoImplicit false

namespace QueryPayload

variable {α β : Type} {R : α → β → Prop} {key : String} {as as' : List (String × α)}
  {bs : List (String × β)}

/-! ## Looking a key up -/

/-- The value under a key: that of its first entry. -/
def valueAt? (key : String) (as : List (String × α)) : Option α :=
  (as.find? (·.1 == key)).map (·.2)

/-- There is no value under a key that no entry has. -/
lemma valueAt?_eq_none_iff : valueAt? key as = none ↔ key ∉ as.map (·.1) := by
  rw [valueAt?, Option.map_eq_none_iff, List.find?_eq_none, List.mem_map]
  constructor
  · rintro h ⟨e, he, hkey⟩
    exact h e he (beq_iff_eq.2 hkey)
  · exact fun h e he hkey => h ⟨e, he, beq_iff_eq.1 hkey⟩

/-- Among entries without repeated keys each one is found under its key. -/
lemma valueAt?_eq_some_iff (h : (as.map (·.1)).Nodup) {a : α} :
    valueAt? key as = some a ↔ (key, a) ∈ as := by
  have hmem : ∀ {b : α}, valueAt? key as = some b → (key, b) ∈ as := by
    intro b hb
    obtain ⟨⟨k, c⟩, hfind, rfl⟩ := Option.map_eq_some_iff.1 hb
    obtain rfl : k = key := by simpa using List.find?_some hfind
    exact List.mem_of_find?_eq_some hfind
  refine ⟨hmem, fun ha => ?_⟩
  cases hvalue : valueAt? key as with
  | none => exact absurd (List.mem_map_of_mem ha) (valueAt?_eq_none_iff.1 hvalue)
  | some b => exact congrArg (some ·.2) (List.inj_on_of_nodup_map h (hmem hvalue) ha rfl)

/-- Entries without repeated keys bind a key to the same value in any order. -/
lemma valueAt?_eq_of_perm (h : (as.map (·.1)).Nodup) (hperm : as.Perm as') :
    valueAt? key as = valueAt? key as' := by
  have h' : (as'.map (·.1)).Nodup := (hperm.map _).nodup_iff.1 h
  ext a
  rw [valueAt?_eq_some_iff h, valueAt?_eq_some_iff h', hperm.mem_iff]

/-! ## Related entries -/

/-- Two entries have one key and related values. -/
inductive EntryRel (R : α → β → Prop) : String × α → String × β → Prop
  | mk (key : String) {a : α} {b : β} (h : R a b) : EntryRel R (key, a) (key, b)

/-- Two entries are related if their keys are equal and their values are related. -/
lemma entryRel_iff {e : String × α} {e' : String × β} :
    EntryRel R e e' ↔ e.1 = e'.1 ∧ R e.2 e'.2 := by
  constructor
  · rintro ⟨k, h⟩
    exact ⟨rfl, h⟩
  · obtain ⟨k, a⟩ := e
    rintro ⟨rfl, h⟩
    exact .mk e'.1 h

/-- Entries related one by one have the same keys, in order. -/
lemma map_fst_eq_of_forall₂ (h : List.Forall₂ (EntryRel R) as bs) :
    as.map (·.1) = bs.map (·.1) := by
  rw [← List.forall₂_eq_eq_eq, List.forall₂_map_left_iff, List.forall₂_map_right_iff]
  exact h.imp fun e e' he => (entryRel_iff.1 he).1

/-- Entries with the same keys, in order, are paired with each other. -/
lemma forall₂_of_zip {P : String × α → String × β → Prop} (hkeys : as.map (·.1) = bs.map (·.1))
    (h : ∀ e e', (e, e') ∈ as.zip bs → P e e') :
    List.Forall₂ (fun e e' => e.1 = e'.1 ∧ P e e') as bs := by
  rw [← List.forall₂_eq_eq_eq, List.forall₂_map_left_iff, List.forall₂_map_right_iff] at hkeys
  have hpairs : List.Forall₂ P as bs := List.forall₂_iff_zip.2 ⟨hkeys.length_eq, h _ _⟩
  exact hkeys.mp (fun e e' hkey hp => ⟨hkey, hp⟩) hpairs

/-- Entries with the same keys, of which those under one key are related, bind it to related
values. -/
lemma rel_valueAt?_of_forall₂
    (h : List.Forall₂ (fun e e' => e.1 = e'.1 ∧ (e.1 = key → R e.2 e'.2)) as bs) :
    Option.Rel R (valueAt? key as) (valueAt? key bs) := by
  induction h with
  | nil => exact .none
  | cons he _ ih =>
    rw [valueAt?, valueAt?, List.find?_cons, List.find?_cons, ← he.1]
    split
    · rename_i hkey
      exact .some (he.2 (beq_iff_eq.1 hkey))
    · exact ih

/-! ## Entries in any order -/

/-- There are as many entries on both sides, and each entry on the left finds a related value under
its key on the right. -/
def EachFound (R : α → β → Prop) (as : List (String × α)) (bs : List (String × β)) : Prop :=
  as.length = bs.length ∧ ∀ e ∈ as, ∃ b, valueAt? e.1 bs = some b ∧ R e.2 b

/-- Entries are related one by one when those on the left are put in another order. -/
def Rearranges (R : α → β → Prop) (as : List (String × α)) (bs : List (String × β)) : Prop :=
  ∃ cs, as.Perm cs ∧ List.Forall₂ (EntryRel R) cs bs

/-- Every key is bound to related values, or to none on both sides. -/
def BindAlike (R : α → β → Prop) (as : List (String × α)) (bs : List (String × β)) : Prop :=
  ∀ key, Option.Rel R (valueAt? key as) (valueAt? key bs)

/-- Entries that are rearranged can be rearranged back. -/
lemma Rearranges.symm {S : β → α → Prop} (h : Rearranges R as bs)
    (hS : ∀ e ∈ as, ∀ b, R e.2 b → S b e.2) : Rearranges S bs as := by
  obtain ⟨cs, hperm, hcs⟩ := h
  have hback : List.Forall₂ (EntryRel S) bs cs := by
    refine forall₂_imp_of_mem_right hcs.flip fun e he e' he' => ?_
    obtain ⟨hkey, hvalue⟩ := entryRel_iff.1 he'
    exact entryRel_iff.2 ⟨hkey.symm, hS e (hperm.mem_iff.2 he) e'.2 hvalue⟩
  have hcomp : Relation.Comp (List.Forall₂ (EntryRel S)) List.Perm bs as :=
    ⟨cs, hback, hperm.symm⟩
  rw [List.forall₂_comp_perm_eq_perm_comp_forall₂] at hcomp
  exact hcomp

/-- Entries that are rearranged have the same keys, in some order. -/
lemma Rearranges.perm_keys (h : Rearranges R as bs) : (as.map (·.1)).Perm (bs.map (·.1)) := by
  obtain ⟨cs, hperm, hcs⟩ := h
  exact map_fst_eq_of_forall₂ hcs ▸ hperm.map _

/-- Each entry on the right has a related one on the left. -/
lemma Rearranges.exists_of_mem (h : Rearranges R as bs) {e' : String × β} (he' : e' ∈ bs) :
    ∃ e ∈ as, EntryRel R e e' := by
  obtain ⟨cs, hperm, hcs⟩ := h
  obtain ⟨e, he, hrel⟩ := exists_rel_of_mem_right hcs he'
  exact ⟨e, hperm.mem_iff.2 he, hrel⟩

/-- Entries that are rearranged bind every key alike. -/
lemma Rearranges.bindAlike (h : Rearranges R as bs) (has : (as.map (·.1)).Nodup) :
    BindAlike R as bs := by
  obtain ⟨cs, hperm, hcs⟩ := h
  intro key
  rw [valueAt?_eq_of_perm has hperm]
  exact rel_valueAt?_of_forall₂ (hcs.imp fun e e' he =>
    ⟨(entryRel_iff.1 he).1, fun _ => (entryRel_iff.1 he).2⟩)

/-- If every key is bound alike, then the same keys are bound. -/
lemma BindAlike.mem_keys_iff (h : BindAlike R as bs) :
    key ∈ as.map (·.1) ↔ key ∈ bs.map (·.1) := by
  have hkey := h key
  rw [← not_iff_not, ← valueAt?_eq_none_iff, ← valueAt?_eq_none_iff]
  generalize valueAt? key as = x at hkey ⊢
  generalize valueAt? key bs = y at hkey ⊢
  cases hkey <;> simp

/-- If every key is bound alike, then each entry finds its counterpart, and there are no others. -/
lemma BindAlike.eachFound (h : BindAlike R as bs) (has : (as.map (·.1)).Nodup)
    (hbs : (bs.map (·.1)).Nodup) : EachFound R as bs := by
  constructor
  · have hperm := (List.perm_ext_iff_of_nodup has hbs).2 fun _ => h.mem_keys_iff
    simpa using hperm.length_eq
  · intro e he
    have hrel := h e.1
    rw [(valueAt?_eq_some_iff has).2 he] at hrel
    cases hvalue : valueAt? e.1 bs with
    | none =>
      rw [hvalue] at hrel
      cases hrel
    | some b =>
      rw [hvalue] at hrel
      obtain ⟨hb⟩ := hrel
      exact ⟨b, rfl, hb⟩

/-- If each entry finds its counterpart and there are no others, then the entries are rearranged.

**Proof sketch.** The keys on both sides are the same in some order, and the entries on the left can
be put in the order in which their keys stand on the right. -/
lemma EachFound.rearranges (h : EachFound R as bs) (has : (as.map (·.1)).Nodup)
    (hbs : (bs.map (·.1)).Nodup) : Rearranges R as bs := by
  obtain ⟨hlength, hfound⟩ := h
  have hsubset : as.map (·.1) ⊆ bs.map (·.1) := by
    intro key hkey
    obtain ⟨e, he, rfl⟩ := List.mem_map.1 hkey
    obtain ⟨b, hb, -⟩ := hfound e he
    exact List.mem_map_of_mem ((valueAt?_eq_some_iff hbs).1 hb)
  have hperm : (as.map (·.1)).Perm (bs.map (·.1)) :=
    (List.subperm_of_subset has hsubset).perm_of_length_le (by simp [hlength])
  have hself : List.Forall₂ (fun e key => e ∈ as ∧ e.1 = key) as (as.map (·.1)) := by
    rw [List.forall₂_map_right_iff, List.forall₂_same]
    exact fun e he => ⟨he, rfl⟩
  have hcomp : Relation.Comp (List.Forall₂ fun e key => e ∈ as ∧ e.1 = key) List.Perm as
      (bs.map (·.1)) := ⟨_, hself, hperm⟩
  rw [List.forall₂_comp_perm_eq_perm_comp_forall₂] at hcomp
  obtain ⟨cs, hcs, hkeys⟩ := hcomp
  rw [List.forall₂_map_right_iff] at hkeys
  refine ⟨cs, hcs, forall₂_imp_of_mem_right hkeys fun e' he' e he => ?_⟩
  obtain ⟨b, hb, hR⟩ := hfound e he.1
  have hvalue : valueAt? e.1 bs = some e'.2 := by
    rw [he.2]
    exact (valueAt?_eq_some_iff hbs).2 he'
  obtain rfl : b = e'.2 := Option.some.inj (hb.symm.trans hvalue)
  exact entryRel_iff.2 ⟨he.2, hR⟩

/-- **Every key is bound alike** exactly if each entry finds its counterpart and there are no
others. -/
theorem bindAlike_iff_eachFound (has : (as.map (·.1)).Nodup) (hbs : (bs.map (·.1)).Nodup) :
    BindAlike R as bs ↔ EachFound R as bs :=
  ⟨fun h => h.eachFound has hbs, fun h => (h.rearranges has hbs).bindAlike has⟩

/-- **Entries are rearranged** exactly if each of them finds its counterpart and there are no
others. -/
theorem rearranges_iff_eachFound (has : (as.map (·.1)).Nodup) (hbs : (bs.map (·.1)).Nodup) :
    Rearranges R as bs ↔ EachFound R as bs :=
  ⟨fun h => (h.bindAlike has).eachFound has hbs, fun h => h.rearranges has hbs⟩

end QueryPayload
