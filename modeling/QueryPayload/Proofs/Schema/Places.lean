import Mathlib.Tactic.Lemma
import QueryPayload.Proofs.Json.Rearranged
import QueryPayload.Proofs.Schema.Selections

/-!
# What the parts of a tree are read as

Whether the order of entries matters depends on where an object stands: the value of an argument
keeps it, and nothing else does.  So a tree is followed down together with the shape that it is read
as, if it is looked at at all.

## Main definitions

* `Shape.itemShape?`, `Shape.entryShape?` — what the parts of a node are read as.
* `Json.Reordered` — rearranging a tree that is read as a shape; the values of arguments may be held
  fixed.

## Main results

* `Json.Reordered.rearranged`, `Json.Rearranged.reordered` — reordered trees are rearranged, and the
  converse if nothing is held fixed.
* `Json.Reordered.eq_of_isValue` — reordered trees are equal where they are held fixed.
* `Json.Reordered.arr_set`, `Json.Reordered.obj_perm` — reordering one node of a tree.
-/

set_option relaxedAutoImplicit false
set_option autoImplicit false

namespace QueryPayload

/-! ## Places -/

/-- The shape of the field of a record that answers to a key. -/
def Record.shapeOf? (r : Record) (key : String) : Option Shape :=
  (r.fields.find? (·.answersTo key)).map Field.shape

/-- What stands under a key is read as the field that answers to the key holds. -/
lemma Record.shapeOf?_eq {r : Record} {f : Field} {key : String} (hf : f ∈ r.fields)
    (hkey : f.answersTo key = true) : r.shapeOf? key = some f.shape := by
  rw [shapeOf?]
  cases hfind : r.fields.find? (·.answersTo key) with
  | none => exact absurd hkey (List.find?_eq_none.1 hfind f hf)
  | some g =>
    have hg : g.answersTo key = true := by simpa using List.find?_some hfind
    rw [r.eq_of_answersTo (List.mem_of_find?_eq_some hfind) hf hg hkey, Option.map_some]

namespace Shape

/-- What the item of the given index is read as in an array. -/
def itemShape? (i : Nat) : Shape → Option Shape
  | .list s => some s
  | .names => some .text
  | .record r => r.fields[i]?.map Field.shape
  | .argumentValue => some .argumentValue
  | .optional s => s.itemShape? i
  | _ => none

/-- What the value under a key is read as in an object with the given entries. -/
def entryShape? (entries : List (String × Json)) (key : String) : Shape → Option Shape
  | .record r => r.shapeOf? key
  | .selection =>
    if key = "kind" then some (.kind .selection)
    else (Json.kindOf? entries).bind fun k => k.record.shapeOf? key
  | .kind _ => some .nothing
  | .argumentValue => some .argumentValue
  | .optional s => s.entryShape? entries key
  | _ => none

/-- Whether a tree is kept as the value of an argument. -/
def isValue : Shape → Bool
  | .argumentValue => true
  | .optional s => s.isValue
  | _ => false

/-- The items of the value of an argument are values too. -/
lemma isValue_itemShape? (i : Nat) {place : Option Shape} (h : place.any isValue = true) :
    (place.bind (itemShape? i)).any isValue = true := by
  cases place with
  | none => cases h
  | some s =>
    induction s with
    | argumentValue => rfl
    | optional s ih => exact ih h
    | _ => cases h

/-- The entries of the value of an argument are values too. -/
lemma isValue_entryShape? (es : List (String × Json)) (key : String) {place : Option Shape}
    (h : place.any isValue = true) : (place.bind (entryShape? es key)).any isValue = true := by
  cases place with
  | none => cases h
  | some s =>
    induction s with
    | argumentValue => rfl
    | optional s ih => exact ih h
    | _ => cases h

end Shape

namespace Json

/-! ## Reordering -/

/-- At a place, the second tree is the first one with the entries of objects in another order, at
any depth; if values are fixed, objects in the values of arguments keep theirs.  There is no shape
at a place that is not looked at. -/
inductive Reordered (fixed : Bool) : Option Shape → Json → Json → Prop
  | null {place : Option Shape} : Reordered fixed place .null .null
  | bool {place : Option Shape} (b : Bool) : Reordered fixed place (.bool b) (.bool b)
  | num {place : Option Shape} (n : Number) : Reordered fixed place (.num n) (.num n)
  | str {place : Option Shape} (s : String) : Reordered fixed place (.str s) (.str s)
  | arr {place : Option Shape} {vs ws : List Json} (hlength : vs.length = ws.length)
    (hitems : ∀ i v w, vs[i]? = some v → ws[i]? = some w →
      Reordered fixed (place.bind (Shape.itemShape? i)) v w) :
    Reordered fixed place (.arr vs) (.arr ws)
  | obj {place : Option Shape} {es fs gs : List (String × Json)} (horder : es.Perm fs)
    (hfixed : fixed = true → place.any Shape.isValue = true → es = fs)
    (hkeys : fs.map (·.1) = gs.map (·.1))
    (hentries : ∀ e e', (e, e') ∈ fs.zip gs →
      Reordered fixed (place.bind (Shape.entryShape? es e.1)) e.2 e'.2) :
    Reordered fixed place (.obj es) (.obj gs)

variable {fixed : Bool} {place : Option Shape} {s : Shape} {v w : Json}

/-- What may be null is read like what may not. -/
lemma Reordered.of_optional (h : Reordered fixed (some (.optional s)) v w) :
    Reordered fixed (some s) v w := by
  cases h with
  | null => exact .null
  | bool b => exact .bool b
  | num n => exact .num n
  | str t => exact .str t
  | arr hlength hitems => exact .arr hlength hitems
  | obj horder hfixed hkeys hentries => exact .obj horder hfixed hkeys hentries

/-- A tree that is reordered is rearranged. -/
theorem Reordered.rearranged (h : Reordered fixed place v w) : v.Rearranged w := by
  induction h with
  | null => exact .null
  | bool b => exact .bool b
  | num n => exact .num n
  | str s => exact .str s
  | arr hlength _ ih =>
    exact .arr (forall₂_of_getElem? hlength ih)
  | obj horder _ hkeys _ ih =>
    exact .obj horder ((forall₂_of_zip hkeys ih).imp fun e e' he => entryRel_iff.2 he)

/-- Trees that are rearranged are reordered wherever they stand, if nothing is fixed. -/
lemma Rearranged.reordered (h : v.Rearranged w) (place : Option Shape) :
    Reordered false place v w := by
  induction v using Json.induction generalizing w place with
  | arr vs ih =>
    obtain ⟨ws, rfl, hvs⟩ := rearranged_arr_iff.1 h
    refine .arr hvs.length_eq fun i v w hv hw => ih v (List.mem_of_getElem? hv) ?_ _
    have hrel := rel_getElem? hvs i
    rw [hv, hw] at hrel
    obtain ⟨hvw⟩ := hrel
    exact hvw
  | obj es ih =>
    obtain ⟨gs, rfl, fs, horder, hfs⟩ := rearranged_obj_iff.1 h
    refine .obj horder (fun hfixed => by cases hfixed) (map_fst_eq_of_forall₂ hfs) ?_
    intro e e' hzip
    have he : e ∈ es := horder.mem_iff.2 (List.of_mem_zip hzip).1
    exact ih e he (entryRel_iff.1 (List.forall₂_zip hfs hzip)).2 _
  | null => cases h; exact .null
  | bool b => cases h; exact .bool b
  | num n => cases h; exact .num n
  | str s => cases h; exact .str s

/-- The values of arguments are not reordered if they are fixed. -/
theorem Reordered.eq_of_isValue (h : Reordered true place v w)
    (hplace : place.any Shape.isValue = true) : v = w := by
  induction h with
  | arr hlength _ ih =>
    refine congrArg Json.arr (List.ext_getElem hlength fun i hi hi' => ?_)
    exact ih i _ _ (List.getElem?_eq_getElem hi) (List.getElem?_eq_getElem hi')
      (Shape.isValue_itemShape? i hplace)
  | @obj _ es fs gs _ hfixed hkeys _ ih =>
    have hpairs := forall₂_of_zip hkeys fun e e' hzip =>
      ih e e' hzip (Shape.isValue_entryShape? es e.1 hplace)
    rw [hfixed rfl hplace, eq_of_forall₂ (fun _ _ he => Prod.ext he.1 he.2) hpairs]
  | _ => rfl

/-! ## Reordering one node -/

/-- Entries are paired with themselves if a list is with itself. -/
lemma eq_of_mem_zip_self {α : Type} {as : List α} {a b : α} (h : (a, b) ∈ as.zip as) : a = b := by
  have hself : List.Forall₂ Eq as as := List.forall₂_same.2 fun _ _ => rfl
  exact List.forall₂_zip hself h

/-- A tree is a reordering of itself. -/
lemma Reordered.refl (fixed : Bool) (place : Option Shape) (v : Json) :
    Reordered fixed place v v := by
  induction v using Json.induction generalizing place with
  | null => exact .null
  | bool b => exact .bool b
  | num n => exact .num n
  | str s => exact .str s
  | arr vs ih =>
    refine .arr rfl fun i v w hv hw => ?_
    obtain rfl : v = w := Option.some.inj (hv.symm.trans hw)
    exact ih v (List.mem_of_getElem? hv) _
  | obj es ih =>
    refine .obj (.refl es) (fun _ _ => rfl) rfl fun e e' hzip => ?_
    obtain rfl := eq_of_mem_zip_self hzip
    exact ih e (List.of_mem_zip hzip).1 _

/-- A tree is itself rearranged. -/
lemma Rearranged.refl (v : Json) : v.Rearranged v :=
  (Reordered.refl false none v).rearranged

/-- An array is reordered if one of its items is. -/
lemma Reordered.arr_set {vs : List Json} {i : Nat} (hv : vs[i]? = some v)
    (h : Reordered fixed (place.bind (Shape.itemShape? i)) v w) :
    Reordered fixed place (.arr vs) (.arr (vs.set i w)) := by
  refine .arr List.length_set.symm fun j v' w' hv' hw' => ?_
  by_cases hij : i = j
  · obtain rfl := hij
    obtain rfl : v = v' := Option.some.inj (hv.symm.trans hv')
    rw [List.getElem?_set_self (List.getElem?_eq_some_iff.1 hv).1] at hw'
    obtain rfl : w = w' := Option.some.inj hw'
    exact h
  · rw [List.getElem?_set_ne hij] at hw'
    obtain rfl : v' = w' := Option.some.inj (hv'.symm.trans hw')
    exact .refl fixed _ v'

/-- An object is reordered if its entries are, unless it is a value of an argument and fixed. -/
lemma Reordered.obj_perm {es fs : List (String × Json)} (horder : es.Perm fs)
    (hfixed : fixed = true → place.any Shape.isValue = true → es = fs) :
    Reordered fixed place (.obj es) (.obj fs) := by
  refine .obj horder hfixed rfl fun e e' hzip => ?_
  obtain rfl := eq_of_mem_zip_self hzip
  exact .refl fixed _ e.2

end Json

end QueryPayload
