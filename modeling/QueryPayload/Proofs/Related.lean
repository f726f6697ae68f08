import Mathlib.Data.List.Forall2
import Mathlib.Tactic.Lemma

/-!
# Values related part by part

What is read from a payload is related to it part by part: lists item by item, optional values if
there are any, trees along every path.

## Main definitions

* `descend` — what is reached in a tree along a path of indices.

## Main results

* `rel_descend` — trees whose children are related one by one are related along every path.
* `exists_rel_of_mem_left`, `exists_rel_of_mem_right`, `forall_mem_iff_of_forall₂`,
  `forall₂_imp_of_mem_right`, `forall₂_imp_of_mem_left`, `forall₂_of_getElem?`,
  `forall₂_congr_of_mem`, `forall₂_iff_and_forall`, `exists_forall₂_iff`,
  `exists_forall₂_of_forall₂`, `forall₂_middle_iff`, `eq_of_forall₂`, `flatMap_eq_of_forall₂`,
  `rel_find?_of_forall₂` — lists related item by item.
* `exists_descend_cons_of_mem` — paths to what is below a child.
-/

set_option relaxedAutoImplicit false
set_option autoImplicit false

namespace QueryPayload

variable {α β γ δ : Type} {R : α → β → Prop} {S : γ → δ → Prop}

/-! ## Lists -/

/-- Items of one index are related in lists that are, item by item. -/
lemma rel_getElem? {as : List α} {bs : List β} (h : List.Forall₂ R as bs) (i : Nat) :
    Option.Rel R as[i]? bs[i]? := by
  induction h generalizing i with
  | nil => exact .none
  | cons hab _ ih =>
    cases i with
    | zero => exact .some hab
    | succ i => exact ih i

/-- Lists are equal if their items are, one by one. -/
lemma eq_of_forall₂ {R : α → α → Prop} (h : ∀ a b, R a b → a = b) {as bs : List α}
    (hrel : List.Forall₂ R as bs) : as = bs := by
  rw [← List.forall₂_eq_eq_eq]
  exact hrel.imp h

/-- Optional values are equal if what is there is. -/
lemma eq_of_optionRel {R : α → α → Prop} (h : ∀ a b, R a b → a = b) {x y : Option α}
    (hrel : Option.Rel R x y) : x = y := by
  cases hrel with
  | none => rfl
  | some hab => rw [h _ _ hab]

/-- What can be said of related values alike can be said of all in lists that are related, item by
item. -/
lemma forall_mem_iff_of_forall₂ {as : List α} {bs : List β} (h : List.Forall₂ R as bs)
    {p : α → Prop} {q : β → Prop} (hpq : ∀ a b, R a b → (p a ↔ q b)) :
    (∀ a ∈ as, p a) ↔ ∀ b ∈ bs, q b := by
  induction h with
  | nil => simp
  | cons hab _ ih => rw [List.forall_mem_cons, List.forall_mem_cons, hpq _ _ hab, ih]

/-- Each item is related to a value in a list that is related item by item. -/
lemma exists_rel_of_mem_left {as : List α} {bs : List β} (h : List.Forall₂ R as bs) {a : α}
    (ha : a ∈ as) : ∃ b ∈ bs, R a b := by
  induction h with
  | nil => exact absurd ha List.not_mem_nil
  | cons hab _ ih =>
    rcases List.mem_cons.1 ha with rfl | ha
    · exact ⟨_, List.mem_cons_self, hab⟩
    · obtain ⟨b, hb, hab⟩ := ih ha
      exact ⟨b, List.mem_cons_of_mem _ hb, hab⟩

/-- Each value is related to an item of a list that is related item by item. -/
lemma exists_rel_of_mem_right {as : List α} {bs : List β} (h : List.Forall₂ R as bs) {b : β}
    (hb : b ∈ bs) : ∃ a ∈ as, R a b :=
  exists_rel_of_mem_left (R := flip R) (List.Forall₂.flip h) hb

/-- Lists that are related item by item are related in any other way that follows for the members of
the second one. -/
lemma forall₂_imp_of_mem_right {T : α → β → Prop} {as : List α} {bs : List β}
    (h : List.Forall₂ R as bs) (hT : ∀ b ∈ bs, ∀ a, R a b → T a b) : List.Forall₂ T as bs := by
  induction h with
  | nil => exact .nil
  | cons hab _ ih =>
    obtain ⟨hb, hbs⟩ := List.forall_mem_cons.1 hT
    exact .cons (hb _ hab) (ih hbs)

/-- Lists that are related item by item are related in any other way that follows for the members of
the first one. -/
lemma forall₂_imp_of_mem_left {T : α → β → Prop} {as : List α} {bs : List β}
    (h : List.Forall₂ R as bs) (hT : ∀ a ∈ as, ∀ b, R a b → T a b) : List.Forall₂ T as bs :=
  List.Forall₂.flip (forall₂_imp_of_mem_right (R := flip R) (List.Forall₂.flip h) hT)

/-- Lists of one length are related if their items of every index are. -/
lemma forall₂_of_getElem? {as : List α} {bs : List β} (hlength : as.length = bs.length)
    (h : ∀ (i : Nat) (a : α) (b : β), as[i]? = some a → bs[i]? = some b → R a b) :
    List.Forall₂ R as bs :=
  List.forall₂_iff_get.2 ⟨hlength, fun i hi hi' =>
    h i _ _ (List.getElem?_eq_getElem hi) (List.getElem?_eq_getElem hi')⟩

/-- Two relations that are the same of the members of two lists are the same of the lists. -/
lemma forall₂_congr_of_mem {T : α → β → Prop} {as : List α} {bs : List β}
    (h : ∀ a ∈ as, ∀ b ∈ bs, R a b ↔ T a b) : List.Forall₂ R as bs ↔ List.Forall₂ T as bs := by
  induction as generalizing bs with
  | nil => rw [List.forall₂_nil_left_iff, List.forall₂_nil_left_iff]
  | cons a as ih =>
    cases bs with
    | nil => rw [List.forall₂_nil_right_iff, List.forall₂_nil_right_iff]
    | cons b bs =>
      have hhead := h a List.mem_cons_self b List.mem_cons_self
      have hrest := ih fun a ha b hb =>
        h a (List.mem_cons_of_mem _ ha) b (List.mem_cons_of_mem _ hb)
      rw [List.forall₂_cons, List.forall₂_cons, hhead, hrest]

/-- A relation between two lists splits where it does for every member of the first one. -/
lemma forall₂_iff_and_forall {T : α → β → Prop} {p : α → Prop} {as : List α} {bs : List β}
    (h : ∀ a ∈ as, ∀ b, R a b ↔ T a b ∧ p a) :
    List.Forall₂ R as bs ↔ List.Forall₂ T as bs ∧ ∀ a ∈ as, p a := by
  induction as generalizing bs with
  | nil => simp
  | cons a as ih =>
    obtain ⟨ha, has⟩ := List.forall_mem_cons.1 h
    simp only [List.forall₂_cons_left_iff, ha, ih has, List.forall_mem_cons]
    constructor
    · rintro ⟨b, bs, ⟨hab, hpa⟩, ⟨hbs, hpas⟩, rfl⟩
      exact ⟨⟨b, bs, hab, hbs, rfl⟩, hpa, hpas⟩
    · rintro ⟨⟨b, bs, hab, hbs, rfl⟩, hpa, hpas⟩
      exact ⟨b, bs, ⟨hab, hpa⟩, ⟨hbs, hpas⟩, rfl⟩

/-- Some list is related to a given one, item by item, if some value is to each of its items. -/
lemma exists_forall₂_iff {as : List α} :
    (∃ bs, List.Forall₂ R as bs) ↔ ∀ a ∈ as, ∃ b, R a b := by
  induction as with
  | nil => simp
  | cons a as ih =>
    rw [List.forall_mem_cons, ← ih]
    constructor
    · rintro ⟨_, _ | ⟨hab, hbs⟩⟩
      exact ⟨⟨_, hab⟩, _, hbs⟩
    · rintro ⟨⟨b, hab⟩, bs, hbs⟩
      exact ⟨b :: bs, .cons hab hbs⟩

/-- What is found for each item of one list is found for the related item of the other, up to a
relation; so it is for all of them. -/
lemma exists_forall₂_of_forall₂ {T : α → γ → Prop} {U : γ → δ → Prop} {V : β → δ → Prop}
    {as : List α} {bs : List β} {cs : List γ} (h : List.Forall₂ R as bs)
    (hfound : List.Forall₂ T as cs)
    (hstep : ∀ a ∈ as, ∀ b c, R a b → T a c → ∃ d, V b d ∧ U c d) :
    ∃ ds, List.Forall₂ V bs ds ∧ List.Forall₂ U cs ds := by
  induction h generalizing cs with
  | nil =>
    obtain rfl := List.forall₂_nil_left_iff.1 hfound
    exact ⟨[], .nil, .nil⟩
  | cons hab _ ih =>
    obtain ⟨c, cs, hac, hrest, rfl⟩ := List.forall₂_cons_left_iff.1 hfound
    obtain ⟨hhead, htail⟩ := List.forall_mem_cons.1 hstep
    obtain ⟨d, hbd, hcd⟩ := hhead _ c hab hac
    obtain ⟨ds, hbds, hcds⟩ := ih hrest htail
    exact ⟨d :: ds, .cons hbd hbds, .cons hcd hcds⟩

/-- Items are related to others, one by one, as they are if one of them is related to the same as
before. -/
lemma forall₂_middle_iff {a a' : α} (h : ∀ b, R a b ↔ R a' b) {as as' : List α} {bs : List β} :
    List.Forall₂ R (as ++ a :: as') bs ↔ List.Forall₂ R (as ++ a' :: as') bs := by
  induction as generalizing bs with
  | nil => simp [List.forall₂_cons_left_iff, h]
  | cons _ as ih => simp [List.forall₂_cons_left_iff, ih]

/-- Lists put together from parts are equal if the parts of related items are. -/
lemma flatMap_eq_of_forall₂ {as : List α} {bs : List β} (h : List.Forall₂ R as bs)
    {f : α → List γ} {g : β → List γ} (hfg : ∀ a b, R a b → f a = g b) :
    as.flatMap f = bs.flatMap g := by
  induction h with
  | nil => rfl
  | cons hab _ ih => rw [List.flatMap_cons, List.flatMap_cons, hfg _ _ hab, ih]

/-- The first items that pass a test are related if related items pass it alike. -/
lemma rel_find?_of_forall₂ {as : List α} {bs : List β} (h : List.Forall₂ R as bs) {p : α → Bool}
    {q : β → Bool} (hpq : ∀ a b, R a b → p a = q b) : Option.Rel R (as.find? p) (bs.find? q) := by
  induction h with
  | nil => exact .none
  | cons hab _ ih =>
    rw [List.find?_cons, List.find?_cons, ← hpq _ _ hab]
    split
    · exact .some hab
    · exact ih

/-! ## Steps and paths -/

/-- What is reached from related values by related steps is related. -/
lemma rel_bind {a : Option α} {b : Option β} (h : Option.Rel R a b) {f : α → Option γ}
    {g : β → Option δ} (hfg : ∀ x y, R x y → Option.Rel S (f x) (g y)) :
    Option.Rel S (a.bind f) (b.bind g) := by
  cases h with
  | none => exact .none
  | some hxy => exact hfg _ _ hxy

/-- What is reached in a tree along a path, of which every step goes to the child of an index. -/
def descend (children : α → List α) : List Nat → α → Option α
  | [], a => some a
  | i :: path, a => (children a)[i]?.bind (descend children path)

/-- A path that goes on is followed from where it has led. -/
lemma descend_append {children : α → List α} (path path' : List Nat) (a : α) :
    descend children (path ++ path') a =
      (descend children path a).bind (descend children path') := by
  induction path generalizing a with
  | nil => rfl
  | cons i path ih =>
    rw [List.cons_append, descend, descend, Option.bind_assoc]
    exact congrArg _ (funext ih)

/-- Whatever is reached from a child in a tree is reached by one step more. -/
lemma exists_descend_cons_of_mem {α : Type} {children : α → List α} {a child : α}
    (h : child ∈ children a) :
    ∃ i, ∀ path, descend children (i :: path) a = descend children path child := by
  obtain ⟨i, hi⟩ := List.mem_iff_getElem?.1 h
  refine ⟨i, fun path => ?_⟩
  rw [descend, hi, Option.bind_some]

/-- **Trees related part by part** are related along every path: in both there is something, and it
is related, or there is nothing in either. -/
theorem rel_descend {children : α → List α} {children' : β → List β}
    (hchildren : ∀ a b, R a b → List.Forall₂ R (children a) (children' b)) {a : α} {b : β}
    (h : R a b) (path : List Nat) :
    Option.Rel R (descend children path a) (descend children' path b) := by
  induction path generalizing a b with
  | nil => exact .some h
  | cons i path ih => exact rel_bind (rel_getElem? (hchildren a b h) i) fun _ _ => ih

end QueryPayload
