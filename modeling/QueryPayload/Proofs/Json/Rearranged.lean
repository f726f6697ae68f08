import Mathlib.Tactic.Lemma
import QueryPayload.Proofs.ArgumentValue.Same
import QueryPayload.Proofs.Json.Tree

/-!
# Trees with the entries of objects rearranged

The order in which an object gives its entries is not part of its meaning.  This module says that
two trees differ in that order only, at any depth, and that they stand for values of arguments that
do.

## Main definitions

* `Json.Rearranged` — one tree is the other with the entries of objects in another order.

## Main results

* `Json.Rearranged.symm`, `Json.Rearranged.distinctKeys` — rearranging back, and repeated keys.
* `ArgumentValue.exists_ofJson?_of_rearranged` — the values that rearranged trees stand for.
-/

set_option relaxedAutoImplicit false
set_option autoImplicit false

namespace QueryPayload

namespace Json

/-- One tree is the other with the entries of objects in another order, at any depth. -/
inductive Rearranged : Json → Json → Prop
  | null : Rearranged .null .null
  | bool (b : Bool) : Rearranged (.bool b) (.bool b)
  | num (n : Number) : Rearranged (.num n) (.num n)
  | str (s : String) : Rearranged (.str s) (.str s)
  | arr {vs ws : List Json} (h : List.Forall₂ Rearranged vs ws) : Rearranged (.arr vs) (.arr ws)
  | obj {es fs gs : List (String × Json)} (horder : es.Perm fs)
    (h : List.Forall₂ (EntryRel Rearranged) fs gs) : Rearranged (.obj es) (.obj gs)

variable {v w : Json} {vs : List Json} {es : List (String × Json)}

/-- An array is rearranged if its items are. -/
lemma rearranged_arr_iff :
    Rearranged (.arr vs) w ↔ ∃ ws, w = .arr ws ∧ List.Forall₂ Rearranged vs ws := by
  constructor
  · rintro ⟨⟩
    exact ⟨_, rfl, ‹_›⟩
  · rintro ⟨ws, rfl, h⟩
    exact .arr h

/-- An object is rearranged if its entries are put in another order and then rearranged. -/
lemma rearranged_obj_iff :
    Rearranged (.obj es) w ↔ ∃ fs, w = .obj fs ∧ Rearranges Rearranged es fs := by
  constructor
  · rintro ⟨⟩
    exact ⟨_, rfl, _, ‹_›, ‹_›⟩
  · rintro ⟨fs, rfl, gs, horder, h⟩
    exact .obj horder h

/-- A tree that is rearranged can be rearranged back. -/
theorem Rearranged.symm (h : Rearranged v w) : Rearranged w v := by
  induction v using Json.induction generalizing w with
  | arr vs ih =>
    obtain ⟨ws, rfl, hvs⟩ := rearranged_arr_iff.1 h
    exact .arr (forall₂_imp_of_mem_right hvs.flip fun v hv w hw => ih v hv hw)
  | obj es ih =>
    obtain ⟨fs, rfl, hes⟩ := rearranged_obj_iff.1 h
    exact rearranged_obj_iff.2 ⟨es, rfl, hes.symm fun e he w hw => ih e he hw⟩
  | _ =>
    cases h
    constructor

/-- Rearranging a tree repeats no key. -/
theorem Rearranged.distinctKeys (h : Rearranged v w) (hv : v.distinctKeys = true) :
    w.distinctKeys = true := by
  induction v using Json.induction generalizing w with
  | arr vs ih =>
    obtain ⟨ws, rfl, hvs⟩ := rearranged_arr_iff.1 h
    refine distinctKeys_arr_iff.2 fun w hw => ?_
    obtain ⟨v, hmem, hvw⟩ := exists_rel_of_mem_right hvs hw
    exact ih v hmem hvw (distinctKeys_arr_iff.1 hv v hmem)
  | obj es ih =>
    obtain ⟨fs, rfl, hes⟩ := rearranged_obj_iff.1 h
    obtain ⟨hkeys, hvalues⟩ := distinctKeys_obj_iff.1 hv
    refine distinctKeys_obj_iff.2 ⟨hes.perm_keys.nodup_iff.1 hkeys, fun e he => ?_⟩
    obtain ⟨e', hmem, hrel⟩ := hes.exists_of_mem he
    exact ih e' hmem (entryRel_iff.1 hrel).2 (hvalues e' hmem)
  | _ =>
    cases h
    rfl

end Json

namespace ArgumentValue

/-- Finite numbers are equal to themselves. -/
lemma numericEq_self {x : Binary64} (hx : x.isFinite = true) : x.numericEq x = true :=
  (Binary64.numericEq_iff hx hx).2 rfl

/-- The value of an entry stands for that of another one, under the same key. -/
def StandsFor (e : String × Json) (p : String × ArgumentValue) : Prop :=
  e.1 = p.1 ∧ ofJson? e.2 = .ok p.2

/-- **Trees that are rearranged stand for values that are**, if they stand for any.

**Proof sketch.** Induction on the tree.  An object stands for the object of what its entries stand
for, in their order; so whatever order the entries are put in, their values can be put in too. -/
theorem exists_ofJson?_of_rearranged {v w : Json} (h : v.Rearranged w) {a : ArgumentValue}
    (ha : ofJson? v = .ok a) : ∃ b, ofJson? w = .ok b ∧ a.Rearranged b := by
  induction v using Json.induction generalizing w a with
  | null => cases h; cases ha; exact ⟨_, rfl, .null⟩
  | bool b => cases h; cases ha; exact ⟨_, rfl, .bool b⟩
  | str s => cases h; cases ha; exact ⟨_, rfl, .string s⟩
  | num n =>
    cases h
    refine ⟨a, ha, ?_⟩
    rcases ofNumber?_eq_ok_iff.1 ha with ⟨i, -, -, rfl⟩ | ⟨x, -, hfinite, rfl⟩
    · exact .int i
    · exact .float (numericEq_self hfinite)
  | arr vs ih =>
    obtain ⟨ws, rfl, hvs⟩ := Json.rearranged_arr_iff.1 h
    obtain ⟨as, has, rfl⟩ := ofJson?_arr_eq_ok_iff.1 ha
    obtain ⟨bs, hbs, hab⟩ := exists_forall₂_of_forall₂ hvs has fun v hv w a hw ha => ih v hv hw ha
    exact ⟨.list bs, ofJson?_arr_eq_ok_iff.2 ⟨bs, hbs, rfl⟩, .list hab⟩
  | obj es ih =>
    obtain ⟨fs, rfl, gs, horder, hgs⟩ := Json.rearranged_obj_iff.1 h
    obtain ⟨as, has, rfl⟩ := ofJson?_obj_eq_ok_iff.1 ha
    -- the values in the order of `gs`, and then the rearranged ones
    have hcomp : Relation.Comp List.Perm (List.Forall₂ StandsFor) gs as := ⟨es, horder.symm, has⟩
    rw [← List.forall₂_comp_perm_eq_perm_comp_forall₂] at hcomp
    obtain ⟨cs, hcs, hperm⟩ := hcomp
    have hstep : ∀ e ∈ gs, ∀ e' p, EntryRel Json.Rearranged e e' → StandsFor e p →
        ∃ p', StandsFor e' p' ∧ EntryRel Rearranged p p' := by
      intro e he e' p hrel hp
      obtain ⟨hkey, hvalue⟩ := entryRel_iff.1 hrel
      obtain ⟨b, hb, hab⟩ := ih e (horder.mem_iff.2 he) hvalue hp.2
      exact ⟨(e'.1, b), ⟨rfl, hb⟩, entryRel_iff.2 ⟨hp.1.symm.trans hkey, hab⟩⟩
    obtain ⟨bs, hbs, hcb⟩ := exists_forall₂_of_forall₂ hgs hcs hstep
    exact ⟨.object bs, ofJson?_obj_eq_ok_iff.2 ⟨bs, hbs, rfl⟩, .object hperm.symm hcb⟩

end ArgumentValue

end QueryPayload
