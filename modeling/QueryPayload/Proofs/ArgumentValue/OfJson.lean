import Mathlib.Algebra.Group.Int.Defs
import Mathlib.Data.List.Forall2
import Mathlib.Tactic.Lemma
import QueryPayload.ArgumentValue.Basic
import QueryPayload.Proofs.Json.Tree
import QueryPayload.Proofs.Related

/-!
# The values that trees stand for

## Main definitions

* `ArgumentValue.Proper` — what is true of every value that a tree stands for.

## Main results

* `ArgumentValue.ofItems?_eq_ok_iff`, `ofEntries?_eq_ok_iff` — the values of the parts of a tree.
* `ArgumentValue.itemsProper_iff`, `entriesProper_iff` — proper values, part by part.
* `ArgumentValue.proper_of_ofJson?` — the value of a tree without repeated keys is proper.
-/

set_option relaxedAutoImplicit false
set_option autoImplicit false

namespace QueryPayload

namespace ArgumentValue

/-! ## Part by part -/

/-- Some trees stand for values if each of them does. -/
lemma ofItems?_eq_ok_iff {vs : List Json} {as : List ArgumentValue} :
    ofItems? vs = .ok as ↔ List.Forall₂ (fun v a => ofJson? v = .ok a) vs as := by
  induction vs generalizing as with
  | nil => simp [ofItems?, eq_comm]
  | cons v vs ih =>
    rw [ofItems?, List.forall₂_cons_left_iff]
    cases hv : ofJson? v with
    | error n => simp [bind, Except.bind]
    | ok a =>
      simp only [← ih]
      cases ofItems? vs <;> simp [bind, Except.bind, pure, Except.pure, eq_comm]

/-- Some entries stand for entries if the value of each of them stands for one. -/
lemma ofEntries?_eq_ok_iff {es : List (String × Json)} {as : List (String × ArgumentValue)} :
    ofEntries? es = .ok as ↔
      List.Forall₂ (fun e p => e.1 = p.1 ∧ ofJson? e.2 = .ok p.2) es as := by
  induction es generalizing as with
  | nil => simp [ofEntries?, eq_comm]
  | cons e es ih =>
    obtain ⟨k, v⟩ := e
    rw [ofEntries?, List.forall₂_cons_left_iff]
    cases hv : ofJson? v with
    | error n => simp [bind, Except.bind]
    | ok a =>
      simp only [← ih]
      cases ofEntries? es <;> simp [bind, Except.bind, pure, Except.pure, eq_comm]

/-- An array stands for a list if its items stand for values. -/
lemma ofJson?_arr_eq_ok_iff {vs : List Json} {a : ArgumentValue} :
    ofJson? (.arr vs) = .ok a ↔
      ∃ as, List.Forall₂ (fun v a => ofJson? v = .ok a) vs as ∧ a = .list as := by
  simp only [← ofItems?_eq_ok_iff, ofJson?]
  cases ofItems? vs <;> simp [Except.map, eq_comm]

/-- An object stands for an object if its entries stand for entries. -/
lemma ofJson?_obj_eq_ok_iff {es : List (String × Json)} {a : ArgumentValue} :
    ofJson? (.obj es) = .ok a ↔
      ∃ as, List.Forall₂ (fun e p => e.1 = p.1 ∧ ofJson? e.2 = .ok p.2) es as ∧
        a = .object as := by
  simp only [← ofEntries?_eq_ok_iff, ofJson?]
  cases ofEntries? es <;> simp [Except.map, eq_comm]

/-- The integers that fit are those of 64 bits. -/
lemma fits_iff {n : Int} : fits n = true ↔ -2 ^ 63 ≤ n ∧ n < 2 ^ 63 := by
  rw [fits, Bool.and_eq_true, decide_eq_true_eq, decide_eq_true_eq]
  exact Iff.rfl

/-! ## Proper values -/

mutual

/-- Every integer in a value has 64 bits, every floating-point number is finite, and no object
repeats a key. -/
def Proper : ArgumentValue → Prop
  | .int n => -2 ^ 63 ≤ n ∧ n < 2 ^ 63
  | .float x => x.isFinite = true
  | .list items => ItemsProper items
  | .object entries => (entries.map (·.1)).Nodup ∧ EntriesProper entries
  | _ => True

/-- Every item of a list is proper. -/
def ItemsProper : List ArgumentValue → Prop
  | [] => True
  | a :: as => a.Proper ∧ ItemsProper as

/-- The value of every entry of an object is proper. -/
def EntriesProper : List (String × ArgumentValue) → Prop
  | [] => True
  | (_, a) :: as => a.Proper ∧ EntriesProper as

end

/-- The items of a list are proper if each of them is. -/
lemma itemsProper_iff {items : List ArgumentValue} :
    ItemsProper items ↔ ∀ a ∈ items, a.Proper := by
  induction items with
  | nil => simp [ItemsProper]
  | cons a items ih => simp [ItemsProper, ih]

/-- The entries of an object are proper if the value of each of them is. -/
lemma entriesProper_iff {entries : List (String × ArgumentValue)} :
    EntriesProper entries ↔ ∀ e ∈ entries, e.2.Proper := by
  induction entries with
  | nil => simp [EntriesProper]
  | cons e entries ih => simp [EntriesProper, ih]

/-- A number stands for itself if it fits or is finite. -/
lemma ofNumber?_eq_ok_iff {n : Json.Number} {a : ArgumentValue} :
    ofNumber? n = .ok a ↔
      (∃ i, n = .int i ∧ fits i = true ∧ a = .int i) ∨
        ∃ x, n = .float x ∧ x.isFinite = true ∧ a = .float x := by
  constructor
  · intro h
    cases n with
    | int i =>
      rw [ofNumber?] at h
      split_ifs at h with hfits
      exact Or.inl ⟨i, rfl, hfits, (Except.ok.inj h).symm⟩
    | float x =>
      rw [ofNumber?] at h
      split_ifs at h with hfinite
      exact Or.inr ⟨x, rfl, hfinite, (Except.ok.inj h).symm⟩
  · rintro (⟨i, rfl, hfits, rfl⟩ | ⟨x, rfl, hfinite, rfl⟩)
    · rw [ofNumber?, if_pos hfits]
    · rw [ofNumber?, if_pos hfinite]

/-- What a number stands for is proper. -/
lemma proper_of_ofNumber? {n : Json.Number} {a : ArgumentValue} (h : ofNumber? n = .ok a) :
    a.Proper := by
  rcases ofNumber?_eq_ok_iff.1 h with ⟨i, -, hfits, rfl⟩ | ⟨x, -, hfinite, rfl⟩
  · exact fits_iff.1 hfits
  · exact hfinite

/-- **The values that trees stand for are proper**, if the trees repeat no key.

**Proof sketch.** Induction on the tree.  Numbers are checked when they are read; an object has the
keys of its tree. -/
theorem proper_of_ofJson? {v : Json} (hv : v.distinctKeys = true) {a : ArgumentValue}
    (h : ofJson? v = .ok a) : a.Proper := by
  induction v using Json.induction generalizing a with
  | null => cases h; exact True.intro
  | bool b => cases h; exact True.intro
  | num n => exact proper_of_ofNumber? h
  | str s => cases h; exact True.intro
  | arr items ih =>
    have hitems := Json.distinctKeys_arr_iff.1 hv
    obtain ⟨as, has, rfl⟩ := ofJson?_arr_eq_ok_iff.1 h
    refine itemsProper_iff.2 fun a ha => ?_
    obtain ⟨v, hmem, hv⟩ := exists_rel_of_mem_right has ha
    exact ih v hmem (hitems v hmem) hv
  | obj entries ih =>
    obtain ⟨hkeys, hentries⟩ := Json.distinctKeys_obj_iff.1 hv
    obtain ⟨as, has, rfl⟩ := ofJson?_obj_eq_ok_iff.1 h
    have hsame : entries.map (·.1) = as.map (·.1) := by
      rw [← List.forall₂_eq_eq_eq, List.forall₂_map_left_iff, List.forall₂_map_right_iff]
      exact has.imp fun _ _ => And.left
    refine ⟨hsame ▸ hkeys, entriesProper_iff.2 fun p hp => ?_⟩
    obtain ⟨e, hmem, -, he⟩ := exists_rel_of_mem_right has hp
    exact ih e hmem (hentries e hmem) he

end ArgumentValue

end QueryPayload
