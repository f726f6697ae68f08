import Mathlib.Data.List.Forall2
import Mathlib.Tactic.Lemma

/-!
# Equivalences, part by part

The relation between two values that mean the same is put together from relations between their
parts: lists item by item, optional values if there are any, records field by field.  It is an
equivalence if these are.

## Main definitions

* `EquivalentAt` — a relation is reflexive at a value, symmetric from it on and transitive from it
  on.

## Main results

* `EquivalentAt.and`, `comap`, `optional`, `forall₂`, `of_constructor` — relations put together
  from others.
* `equivalence_of_equivalentAt` — the equivalence of all values.

## Implementation notes

The values of a recursive type are compared by recursion on the first one, and that comparison is
an equivalence is shown by induction on the first one.  So the three laws are stated together, of
one value and whatever it is compared with; `p` says which values are considered.
-/

set_option relaxedAutoImplicit false
set_option autoImplicit false

namespace QueryPayload

variable {α β : Type} {p r : α → Prop} {q : β → Prop} {R S : α → α → Prop} {T : β → β → Prop}
  {a : α}

/-- The laws of an equivalence at one value: it is related to itself, to the values related to it,
and to what these are related to. -/
structure EquivalentAt (p : α → Prop) (R : α → α → Prop) (a : α) : Prop where
  refl : R a a
  symm : ∀ b, p b → R a b → R b a
  trans : ∀ b c, p b → p c → R a b → R b c → R a c

/-- **A relation with the laws at all values** is an equivalence of them. -/
theorem equivalence_of_equivalentAt (h : ∀ a, p a → EquivalentAt p R a) :
    Equivalence fun a b : {a : α // p a} => R a.1 b.1 where
  refl a := (h a.1 a.2).refl
  symm {a b} hab := (h a.1 a.2).symm b.1 b.2 hab
  trans {a b c} hab hbc := (h a.1 a.2).trans b.1 c.1 b.2 c.2 hab hbc

namespace EquivalentAt

/-- A value that is related to itself only. -/
lemma of_eq (h : ∀ b, R a b ↔ a = b) : EquivalentAt p R a where
  refl := (h a).2 rfl
  symm b _ hab := (h b).1 hab ▸ (h a).2 rfl
  trans b c _ _ hab hbc := by
    rw [(h b).1 hab]
    exact hbc

/-- The laws hold among fewer values. -/
lemma mono (hpq : ∀ b, p b → r b) (h : EquivalentAt r R a) : EquivalentAt p R a where
  refl := h.refl
  symm b hb := h.symm b (hpq b hb)
  trans b c hb hc := h.trans b c (hpq b hb) (hpq c hc)

/-- A relation may be replaced by another one that is the same of the values considered. -/
lemma congr (ha : p a) (hRS : ∀ b c, p b → p c → (R b c ↔ S b c)) (h : EquivalentAt p S a) :
    EquivalentAt p R a where
  refl := (hRS a a ha ha).2 h.refl
  symm b hb hab := (hRS b a hb ha).2 (h.symm b hb ((hRS a b ha hb).1 hab))
  trans b c hb hc hab hbc :=
    (hRS a c ha hc).2 (h.trans b c hb hc ((hRS a b ha hb).1 hab) ((hRS b c hb hc).1 hbc))

/-- Two relations at once. -/
lemma and (hR : EquivalentAt p R a) (hS : EquivalentAt p S a) :
    EquivalentAt p (fun b c => R b c ∧ S b c) a where
  refl := ⟨hR.refl, hS.refl⟩
  symm b hb hab := ⟨hR.symm b hb hab.1, hS.symm b hb hab.2⟩
  trans b c hb hc hab hbc := ⟨hR.trans b c hb hc hab.1 hbc.1, hS.trans b c hb hc hab.2 hbc.2⟩

/-- A relation for every index. -/
lemma forall_index {ι : Type} {U : ι → α → α → Prop} (h : ∀ i, EquivalentAt p (U i) a) :
    EquivalentAt p (fun b c => ∀ i, U i b c) a where
  refl i := (h i).refl
  symm b hb hab i := (h i).symm b hb (hab i)
  trans b c hb hc hab hbc i := (h i).trans b c hb hc (hab i) (hbc i)

/-- A relation between parts. -/
lemma comap (f : α → β) (hf : ∀ b, p b → q (f b)) (h : EquivalentAt q T (f a)) :
    EquivalentAt p (fun b c => T (f b) (f c)) a where
  refl := h.refl
  symm b hb hab := h.symm (f b) (hf b hb) hab
  trans b c hb hc hab hbc := h.trans (f b) (f c) (hf b hb) (hf c hc) hab hbc

/-- Equality of parts. -/
lemma eq_of (f : α → β) : EquivalentAt p (fun b c => f b = f c) a where
  refl := rfl
  symm _ _ hab := hab.symm
  trans _ _ _ _ hab hbc := hab.trans hbc

/-- A relation between optional values, where there are any. -/
lemma optional {o : Option α} (h : ∀ a, o = some a → EquivalentAt p R a) :
    EquivalentAt (fun o => ∀ a, o = some a → p a) (Option.Rel R) o := by
  cases o with
  | none =>
    refine of_eq fun o => ?_
    cases o with
    | none => exact iff_of_true .none rfl
    | some b => exact iff_of_false (fun h => by cases h) (fun h => by cases h)
  | some a =>
    have ha := h a rfl
    constructor
    case refl => exact .some ha.refl
    case symm =>
      rintro (_ | b) hb hab
      · cases hab
      · obtain ⟨hab⟩ := hab
        exact .some (ha.symm b (hb b rfl) hab)
    case trans =>
      rintro (_ | b) (_ | c) hb hc hab hbc
      · cases hab
      · cases hab
      · cases hbc
      · obtain ⟨hab⟩ := hab
        obtain ⟨hbc⟩ := hbc
        exact .some (ha.trans b c (hb b rfl) (hc c rfl) hab hbc)

/-- A relation between lists, item by item. -/
lemma forall₂ {as : List α} (h : ∀ a ∈ as, EquivalentAt p R a) :
    EquivalentAt (fun as => ∀ a ∈ as, p a) (List.Forall₂ R) as := by
  induction as with
  | nil =>
    exact of_eq fun bs => by rw [List.forall₂_nil_left_iff, eq_comm]
  | cons a as ih =>
    obtain ⟨ha, has⟩ := List.forall_mem_cons.1 h
    have ih := ih has
    constructor
    case refl => exact .cons ha.refl ih.refl
    case symm =>
      intro bs hbs hall
      obtain ⟨b, bs, hab, hrest, rfl⟩ := List.forall₂_cons_left_iff.1 hall
      obtain ⟨hb, hbs⟩ := List.forall_mem_cons.1 hbs
      exact .cons (ha.symm b hb hab) (ih.symm bs hbs hrest)
    case trans =>
      intro bs cs hbs hcs hall hall'
      obtain ⟨b, bs, hab, hrest, rfl⟩ := List.forall₂_cons_left_iff.1 hall
      obtain ⟨c, cs, hbc, hrest', rfl⟩ := List.forall₂_cons_left_iff.1 hall'
      obtain ⟨hb, hbs⟩ := List.forall_mem_cons.1 hbs
      obtain ⟨hc, hcs⟩ := List.forall_mem_cons.1 hcs
      exact .cons (ha.trans b c hb hc hab hbc) (ih.trans bs cs hbs hcs hrest hrest')

/-- A relation that holds between what one constructor makes, if another one does between what it is
made of. -/
lemma of_constructor {con : β → α} (hcon : ∀ x b, R (con x) b ↔ ∃ y, b = con y ∧ T x y) {x : β}
    (h : EquivalentAt (fun y => p (con y)) T x) : EquivalentAt p R (con x) where
  refl := (hcon x _).2 ⟨x, rfl, h.refl⟩
  symm b hb hab := by
    obtain ⟨y, rfl, hxy⟩ := (hcon x b).1 hab
    exact (hcon y _).2 ⟨x, rfl, h.symm y hb hxy⟩
  trans b c hb hc hab hbc := by
    obtain ⟨y, rfl, hxy⟩ := (hcon x b).1 hab
    obtain ⟨z, rfl, hyz⟩ := (hcon y c).1 hbc
    exact (hcon x _).2 ⟨z, rfl, h.trans y z hb hc hxy hyz⟩

end EquivalentAt

end QueryPayload
