import Mathlib.Tactic.Lemma
import QueryPayload.Proofs.Document.Same
import QueryPayload.Proofs.Schema.KeyOrder

/-!
# The order of entries does not matter

A payload may give the entries of its objects in any order.  The document is the same if no object
in the value of an argument is concerned, and otherwise one that means the same.

## Main definitions

* `Shape.Same` — values of each shape that mean the same.
* `Json.RearrangedOutsideValues` — trees that are rearranged outside the values of arguments.

## Main results

* `Shape.congruence_eq`, `Shape.congruence_same` — equality and meaning the same are kept by
  everything that values are made into.
* `Document.ofJson_of_rearranged` — the documents of rearranged trees.
-/

set_option relaxedAutoImplicit false
set_option autoImplicit false

namespace QueryPayload

/-- Two payloads differ in the order of entries only, and not in the values of arguments. -/
def Json.RearrangedOutsideValues (v w : Json) : Prop :=
  Reordered true (some (.record .document)) v w

/-! ## Equality -/

/-- Field by field, values are equal. -/
lemma Tuple.eq_of_related {Rel : ShapeRel} {fs : List Field}
    (h : ∀ f ∈ fs, ∀ x y, Rel f.shape x y → x = y) {xs ys : Tuple fs}
    (hrel : Tuple.Related Rel fs xs ys) : xs = ys := by
  induction fs with
  | nil => rfl
  | cons f fs ih =>
    obtain ⟨hf, hfs⟩ := List.forall_mem_cons.1 h
    exact Prod.ext (hf _ _ hrel.1) (ih hfs hrel.2)

/-- **Equality is a congruence**, if the values of arguments are fixed. -/
theorem Shape.congruence_eq : Shape.Congruence true fun _ x y => x = y where
  plain_iff _ _ _ := Iff.rfl
  value _ h x hx := ⟨x, h.eq_of_isValue rfl ▸ hx, rfl⟩
  selection k _ _ h := by cases k <;> exact h
  list h := eq_of_forall₂ (fun _ _ => id) h
  optional h := eq_of_optionRel (fun _ _ => id) h
  build r xs ys x h hx := ⟨x, Tuple.eq_of_related (fun _ _ _ _ => id) h ▸ hx, rfl⟩

/-! ## Meaning the same -/

/-- Values of a record that mean the same. -/
def Record.Same : (r : Record) → r.Val → r.Val → Prop
  | .typeRef, t, u => t = u
  | .variable, v, w => v = w
  | .argument, a, b => a.same b = true
  | .selectionSet, a, b => a.same b = true
  | .field, s, t => s.same t = true
  | .fragmentSpread, s, t => s.same t = true
  | .typeCondition, s, t => s.same t = true
  | .booleanCondition, s, t => s.same t = true
  | .fragment, f, g => f.same g = true
  | .operation, a, b => a.same b = true
  | .schemaField, f, g => f = g
  | .schemaEnumValue, a, b => a = b
  | .usedType, t, u => t = u
  | .document, ps, qs =>
    List.Forall₂ (fun a b => a.same b = true) ps.operations qs.operations ∧
      List.Forall₂ (fun f g => f.same g = true) ps.fragments qs.fragments ∧
      ps.typesUsed = qs.typesUsed

/-- Values of a shape that mean the same. -/
def Shape.Same : (s : Shape) → s.Val → s.Val → Prop
  | .text, x, y => x = y
  | .flag, x, y => x = y
  | .nothing, x, y => x = y
  | .kind _, x, y => x = y
  | .argumentValue, a, b => a.same b = true
  | .selection, s, t => s.same t = true
  | .names, x, y => x = y
  | .record r, x, y => r.Same x y
  | .list s, xs, ys => List.Forall₂ s.Same xs ys
  | .optional s, x, y => Option.Rel s.Same x y

/-- Whether no value of an argument is in a record. -/
def Record.isExact : Record → Bool
  | .typeRef | .variable | .schemaField | .schemaEnumValue | .usedType => true
  | _ => false

/-- Whether no value of an argument is in what is read as a shape. -/
def Shape.isExact : Shape → Bool
  | .argumentValue | .selection => false
  | .record r => r.isExact
  | .list s => s.isExact
  | .optional s => s.isExact
  | _ => true

/-- Values without values of arguments that mean the same are equal. -/
lemma Shape.eq_of_same {s : Shape} (hs : s.isExact = true) {x y : s.Val} (h : s.Same x y) :
    x = y := by
  induction s with
  | argumentValue => cases hs
  | selection => cases hs
  | record r => cases r <;> first | exact h | cases hs
  | list s ih => exact eq_of_forall₂ (fun _ _ => ih hs) h
  | optional s ih => exact eq_of_optionRel (fun _ _ => ih hs) h
  | _ => exact h

/-- Selections mean the same that are made of what does. -/
lemma Selection.same_ofHead {head head' : Head} {set set' : Option SelectionSet}
    (hhead : head.same head' = true)
    (hset : Option.Rel (fun a b : SelectionSet => a.same b = true) set set') :
    (ofHead head set).same (ofHead head' set') = true := by
  rw [same_iff, head_ofHead, head_ofHead, set?_ofHead, set?_ofHead]
  exact ⟨hhead, hset⟩

/-- The fields of a record without values of arguments are equal if they mean the same. -/
lemma Record.eq_of_exact {r : Record} (hr : r.isExact = true) {xs ys : Tuple r.fields}
    (h : Tuple.Related Shape.Same r.fields xs ys) : xs = ys := by
  have hfields : ∀ f ∈ r.fields, f.shape.isExact = true := by
    cases r <;> first | decide | cases hr
  exact Tuple.eq_of_related (fun f hf _ _ => Shape.eq_of_same (hfields f hf)) h

/-- **What is built of values that mean the same** means the same.

**Proof sketch.** Records without values of arguments are built of equal values.  The others gather
theirs, and are compared by what they gather. -/
theorem Record.exists_build_of_same : (r : Record) → {xs ys : Tuple r.fields} → {x : r.Val} →
    Tuple.Related Shape.Same r.fields xs ys → r.build xs = .ok x →
      ∃ y, r.build ys = .ok y ∧ r.Same x y
  | .argument, (_, _, _, ()), (_, _, _, ()), _, ⟨hname, hvalue, htype, _⟩, rfl =>
    ⟨_, rfl, Argument.same_iff.2 ⟨Prod.ext hname htype, hvalue⟩⟩
  | .selectionSet, (_, _, ()), (_, _, ()), _, ⟨htypes, hselections, _⟩, rfl =>
    ⟨_, rfl, SelectionSet.same_iff.2 ⟨htypes, hselections⟩⟩
  | .field, (_, _, _, _, _, _, _, ()), (_, _, _, _, _, _, _, ()), _,
      ⟨hname, htype, hkey, hdescription, hdeprecated, hargs, hset, _⟩, rfl => by
    refine ⟨_, rfl, Selection.same_ofHead (Selection.Field.same_iff.2 ⟨?_, hargs⟩) hset⟩
    rw [Selection.Field.mk.injEq]
    exact ⟨hname, htype, Shape.eq_of_same rfl hkey, Shape.eq_of_same rfl hdescription,
      Shape.eq_of_same rfl hdeprecated, rfl⟩
  | .fragmentSpread, (_, _, _, ()), (_, _, _, ()), _, ⟨hname, hconditional, hset, _⟩, rfl =>
    have hhead := congrArg₂ (fun name isConditional => Selection.Head.fragmentSpread ⟨name⟩
      isConditional) hname (Shape.eq_of_same rfl hconditional)
    ⟨_, rfl, Selection.same_ofHead ((Selection.Head.same_iff_eq rfl).2 hhead) hset⟩
  | .typeCondition, (_, _, ()), (_, _, ()), _, ⟨htype, hset, _⟩, rfl =>
    have hhead := congrArg Selection.Head.typeCondition htype
    ⟨_, rfl, Selection.same_ofHead ((Selection.Head.same_iff_eq rfl).2 hhead) hset⟩
  | .booleanCondition, (_, _, _, ()), (_, _, _, ()), _, ⟨hname, hinverted, hset, _⟩, rfl =>
    have hhead := congrArg₂ (fun name inverted => Selection.Head.booleanCondition ⟨name⟩ inverted)
      hname hinverted
    ⟨_, rfl, Selection.same_ofHead ((Selection.Head.same_iff_eq rfl).2 hhead) hset⟩
  | .fragment, (_, _, _, _, ()), (_, _, _, _, ()), _, ⟨hname, hpath, hsource, hset, _⟩, rfl =>
    ⟨_, rfl, Fragment.same_iff.2 ⟨Prod.ext hname (Prod.ext hpath hsource), hset⟩⟩
  | .operation, (_, _, _, _, _, _, _, ()), (_, _, _, _, _, _, _, ()), _,
      ⟨hname, hkind, hroot, hpath, hsource, hdeclared, hset, _⟩, rfl => by
    refine ⟨_, rfl, Operation.same_iff.2 ⟨?_, hset⟩⟩
    exact Prod.ext hname <| Prod.ext hkind <| Prod.ext hroot <| Prod.ext hpath <|
      Prod.ext hsource (Shape.eq_of_same rfl hdeclared)
  | .document, (_, _, _, ()), (_, _, _, ()), _, ⟨hoperations, hfragments, htypes, _⟩, rfl =>
    ⟨_, rfl, hoperations, hfragments, Shape.eq_of_same rfl htypes⟩
  | .typeRef, _, _, _, h, hx => ⟨_, Record.eq_of_exact rfl h ▸ hx, rfl⟩
  | .variable, _, _, _, h, hx => ⟨_, Record.eq_of_exact rfl h ▸ hx, rfl⟩
  | .schemaField, _, _, _, h, hx => ⟨_, Record.eq_of_exact rfl h ▸ hx, rfl⟩
  | .schemaEnumValue, _, _, _, h, hx => ⟨_, Record.eq_of_exact rfl h ▸ hx, rfl⟩
  | .usedType, _, _, _, h, hx => ⟨_, Record.eq_of_exact rfl h ▸ hx, rfl⟩

/-- **Meaning the same is a congruence**, whatever order the values of arguments are given in. -/
theorem Shape.congruence_same : Shape.Congruence false Shape.Same where
  plain_iff {s} hs _ _ := by cases s <;> first | exact Iff.rfl | cases hs
  value {v w} hkeys h a ha := by
    rw [Json.read_argumentValue_iff] at ha
    obtain ⟨b, hb, hab⟩ := ArgumentValue.exists_ofJson?_of_rearranged h.rearranged ha
    have hw := h.rearranged.distinctKeys hkeys
    refine ⟨b, Json.read_argumentValue_iff.2 hb, (ArgumentValue.same_iff_rearranged ?_ ?_).2 hab⟩
    · exact ArgumentValue.distinctKeys_toJson (ArgumentValue.proper_of_ofJson? hkeys ha)
    · exact ArgumentValue.distinctKeys_toJson (ArgumentValue.proper_of_ofJson? hw hb)
  selection k _ _ h := by cases k <;> exact h
  list := id
  optional := id
  build := Record.exists_build_of_same

/-! ## Registering the fragments -/

/-- Fragments that mean the same are from one file. -/
lemma Fragment.filePath_eq_of_same {f g : Fragment} (h : f.same g = true) :
    f.filePath = g.filePath :=
  congrArg (·.2.1) (same_iff.1 h).1

namespace FragmentRegistry

variable {r r' : FragmentRegistry} {f g : Fragment} {fs gs : List Fragment}

/-- Two registries hold, in the same order, fragments that mean the same under the same names. -/
def Matches (r r' : FragmentRegistry) : Prop :=
  List.Forall₂ (EntryRel fun f g => f.same g = true) r.entries r'.entries

/-- Registries that match have the same name taken by fragments that mean the same, if by any. -/
lemma Matches.rel_get? (h : r.Matches r') (name : String) :
    Option.Rel (fun f g => f.same g = true) (r.get? name) (r'.get? name) :=
  rel_valueAt?_of_forall₂ (h.imp fun _ _ he =>
    ⟨(entryRel_iff.1 he).1, fun _ => (entryRel_iff.1 he).2⟩)

/-- Registries go on to match, or have the same clash, with fragments that mean the same. -/
lemma Matches.add (h : r.Matches r') (hfg : f.same g = true) :
    (∃ s s', r.add f = .ok s ∧ r'.add g = .ok s' ∧ s.Matches s') ∨
      ∃ clash, r.add f = .error clash ∧ r'.add g = .error clash := by
  have hget := h.rel_get? f.name
  rw [FragmentRegistry.add, FragmentRegistry.add, ← Fragment.name_eq_of_same hfg,
    ← Fragment.filePath_eq_of_same hfg]
  generalize r.get? f.name = o at hget
  generalize r'.get? f.name = o' at hget
  cases hget with
  | none =>
    have hlast : EntryRel (fun f g : Fragment => f.same g = true) (f.name, f) (f.name, g) :=
      .mk f.name hfg
    exact .inl ⟨_, _, rfl, rfl, List.rel_append h (.cons hlast .nil)⟩
  | some hfirst => exact .inr ⟨_, rfl, by rw [Fragment.filePath_eq_of_same hfirst]⟩

/-- **Registering fragments that mean the same** gives registries that match, with the same clash
if there is one. -/
theorem Matches.addAll (h : r.Matches r')
    (hfs : List.Forall₂ (fun f g => f.same g = true) fs gs) :
    (r.addAll fs).1.Matches (r'.addAll gs).1 ∧ (r.addAll fs).2 = (r'.addAll gs).2 := by
  induction hfs generalizing r r' with
  | nil => exact ⟨h, rfl⟩
  | cons hfg _ ih =>
    rw [FragmentRegistry.addAll, FragmentRegistry.addAll]
    rcases h.add hfg with ⟨s, s', hs, hs', hmatches⟩ | ⟨clash, hs, hs'⟩
    · rw [hs, hs']
      exact ih hmatches
    · rw [hs, hs']
      exact ⟨h, rfl⟩

/-- Well-formed registries that match mean the same. -/
lemma Matches.same (h : r.Matches r') (hr : r.WellFormed) (hr' : r'.WellFormed) :
    r.same r' = true :=
  (same_iff_rearranges hr hr').2 ⟨r.entries, .refl _, h⟩

end FragmentRegistry

namespace Document

variable {v w : Json} {ps qs : DocumentParts}

/-- Lists that mean the same make documents that do, or have the same clash. -/
lemma ofParts_of_same (h : Record.document.Same ps qs) :
    (∃ d e, ofParts ps = .ok d ∧ ofParts qs = .ok e ∧ d.same e = true) ∨
      ∃ clash, ofParts ps = .error (.duplicateFragment clash) ∧
        ofParts qs = .error (.duplicateFragment clash) := by
  obtain ⟨hoperations, hfragments, htypes⟩ := h
  have hempty : FragmentRegistry.empty.Matches .empty := .nil
  obtain ⟨hmatches, hclash⟩ := hempty.addAll hfragments
  have hr := FragmentRegistry.wellFormed_empty.addAll ps.fragments
  have hr' := FragmentRegistry.wellFormed_empty.addAll qs.fragments
  rw [ofParts, ofParts]
  rcases hadd : FragmentRegistry.empty.addAll ps.fragments with ⟨r, c⟩
  rcases hadd' : FragmentRegistry.empty.addAll qs.fragments with ⟨r', c'⟩
  rw [hadd, hadd'] at hmatches hclash
  rw [hadd] at hr
  rw [hadd'] at hr'
  obtain rfl : c = c' := hclash
  cases c with
  | none => exact .inl ⟨_, _, rfl, rfl, same_iff.2 ⟨hoperations, hmatches.same hr hr', htypes⟩⟩
  | some clash => exact .inr ⟨clash, rfl, rfl⟩

/-- A tree that is rearranged is read as lists that mean the same. -/
lemma exists_read_same (hkeys : v.distinctKeys = true) (h : v.Rearranged w)
    (hps : v.read (.record .document) = .ok ps) :
    ∃ qs, w.read (.record .document) = .ok qs ∧ Record.document.Same ps qs :=
  Json.follows_of_reordered (s := .record .document) Shape.congruence_same hkeys (h.reordered _) ps
    hps

/-- Whatever document a tree decodes to, it decodes to one that means the same once it is
rearranged. -/
lemma exists_ofJson_same (hkeys : v.distinctKeys = true) (h : v.Rearranged w) {d : Document}
    (hd : ofJson v = .ok d) : ∃ e, ofJson w = .ok e ∧ d.same e = true := by
  obtain ⟨ps, hps, hparts⟩ := ofJson_eq_ok_iff.1 hd
  obtain ⟨qs, hqs, hsame⟩ := exists_read_same hkeys h hps
  rcases ofParts_of_same hsame with ⟨d', e, hd', he, hde⟩ | ⟨clash, hclash, -⟩
  · obtain rfl : d' = d := Except.ok.inj (hd'.symm.trans hparts)
    exact ⟨e, ofJson_eq_ok_iff.2 ⟨qs, hqs, he⟩, hde⟩
  · cases hclash.symm.trans hparts

/-- A tree in which two fragments clash has the same clash once it is rearranged. -/
lemma ofJson_clash_of_rearranged (hkeys : v.distinctKeys = true) (h : v.Rearranged w)
    {clash : DuplicateFragment} (hv : ofJson v = .error (.duplicateFragment clash)) :
    ofJson w = .error (.duplicateFragment clash) := by
  obtain ⟨ps, hps, hparts⟩ := ofJson_eq_clash_iff.1 hv
  obtain ⟨qs, hqs, hsame⟩ := exists_read_same hkeys h hps
  rcases ofParts_of_same hsame with ⟨d, e, hd, -, -⟩ | ⟨clash', hclash, hclash'⟩
  · cases hd.symm.trans hparts
  · cases hclash.symm.trans hparts
    exact ofJson_eq_clash_iff.2 ⟨qs, hqs, hclash'⟩

/-- A tree that is rearranged outside the values of arguments decodes to the same document. -/
lemma ofJson_of_outsideValues (hkeys : v.distinctKeys = true) (h : v.RearrangedOutsideValues w)
    {d : Document} (hd : ofJson v = .ok d) : ofJson w = .ok d := by
  obtain ⟨ps, hps, hparts⟩ := ofJson_eq_ok_iff.1 hd
  obtain ⟨_, hqs, rfl⟩ := Json.follows_of_reordered Shape.congruence_eq hkeys h ps hps
  exact ofJson_eq_ok_iff.2 ⟨ps, hqs, hparts⟩

/-- **The order of entries in a payload does not matter.**  Let two trees differ in the order of the
entries of objects only, at any depth.  Then they decode to documents that mean the same, or neither
decodes; and they have the same clash of fragments, if any.  If no object in the value of an
argument is rearranged, they decode to one and the same document.

**Proof sketch.** Meaning the same and equality are congruences, so that reordered trees are read as
lists so related (`Json.follows_of_reordered`).  The fragments are registered in the order of these
lists, and clash alike (`FragmentRegistry.Matches.addAll`).  As rearranging can be undone, it is
enough to go from the first tree to the second. -/
theorem ofJson_of_rearranged (v w : Json) (hkeys : v.distinctKeys = true) (h : v.Rearranged w) :
    ((∃ d e, ofJson v = .ok d ∧ ofJson w = .ok e ∧ d.same e = true) ∨
      ∃ x y, ofJson v = .error x ∧ ofJson w = .error y) ∧
    (∀ clash, ofJson v = .error (.duplicateFragment clash) ↔
      ofJson w = .error (.duplicateFragment clash)) ∧
    (v.RearrangedOutsideValues w → ∀ d, ofJson v = .ok d ↔ ofJson w = .ok d) := by
  have hkeys' := h.distinctKeys hkeys
  refine ⟨?_, fun clash => ⟨ofJson_clash_of_rearranged hkeys h,
    ofJson_clash_of_rearranged hkeys' h.symm⟩, fun houtside d => ⟨ofJson_of_outsideValues hkeys
      houtside, fun he => ?_⟩⟩
  · cases hv : ofJson v with
    | ok d =>
      obtain ⟨e, he, hde⟩ := exists_ofJson_same hkeys h hv
      exact .inl ⟨d, e, rfl, he, hde⟩
    | error x =>
      cases hw : ofJson w with
      | ok e =>
        obtain ⟨d, hd, -⟩ := exists_ofJson_same hkeys' h.symm hw
        cases hv.symm.trans hd
      | error y => exact .inr ⟨x, y, rfl, rfl⟩
  · obtain ⟨d', hd', -⟩ := exists_ofJson_same hkeys' h.symm he
    rwa [← (ofJson_of_outsideValues hkeys houtside hd').symm.trans he]

/-- The payload of `filtering`, with the entries of its field in another order. -/
def filteringBackwards (filter : List (String × Json)) : Json :=
  .arr [.str "A", .str "a", .str "fragment A", .arr [.arr [], .arr [
    .obj [("args", .arr [.arr [.str "filter", .obj filter, (TypeRef.named "Filter").toJson]]),
      ("typeNode", (TypeRef.named "Item").toJson), ("name", .str "items"), ("kind", .str "Field")],
    .obj [("kind", .str "FragmentSpread"), ("fragmentName", .str "B")]]]]

/-- `filteringBackwards` rearranges an object that is no value of an argument. -/
lemma rearrangedOutsideValues_filteringBackwards (filter : List (String × Json)) (f : Json) :
    (ofSpreadPayload [filteringPayload filter, f]).RearrangedOutsideValues
      (ofSpreadPayload [filteringBackwards filter, f]) := by
  refine .arr_set (i := 1) rfl (.arr_set (i := 0) rfl (.arr_set (i := 3) rfl (.arr_set (i := 1) rfl
    (.arr_set (i := 0) rfl (.obj_perm ?_ nofun)))))
  exact (List.reverse_perm _).symm

/-- The entries of the object that a fragment filters by can be rearranged. -/
lemma rearranged_filteringPayload {filter filter' : List (String × Json)}
    (h : filter.Perm filter') (f : Json) :
    (ofSpreadPayload [filteringPayload filter, f]).Rearranged
      (ofSpreadPayload [filteringPayload filter', f]) := by
  have hfilter : Json.Reordered false none (.obj filter) (.obj filter') := .obj_perm h nofun
  have hargs : Json.Reordered false none
      (.arr [.arr [.str "filter", .obj filter, (TypeRef.named "Filter").toJson]])
      (.arr [.arr [.str "filter", .obj filter', (TypeRef.named "Filter").toJson]]) :=
    .arr_set (i := 0) rfl (.arr_set (i := 1) rfl hfilter)
  have hpayload : Json.Reordered false none (ofSpreadPayload [filteringPayload filter, f])
      (ofSpreadPayload [filteringPayload filter', f]) := by
    refine .arr_set (i := 1) rfl (.arr_set (i := 0) rfl (.arr_set (i := 3) rfl
      (.arr_set (i := 1) rfl (.arr_set (i := 0) rfl (Json.Rearranged.reordered ?_ _)))))
    exact .obj (.refl _) <| .cons (.mk "kind" (.refl _)) <| .cons (.mk "name" (.refl _)) <|
      .cons (.mk "typeNode" (.refl _)) <| .cons (.mk "args" hargs.rearranged) .nil
  exact hpayload.rearranged

/-- `ofJson_of_rearranged` for payloads in which the entries of a field are in another order, or
those of an object that it is given, and for one with a clash. -/
theorem ofJson_of_rearranged_field :
    let xy : List (String × Json) := [("x", .num (.int 1)), ("y", .null)]
    let v := ofSpreadPayload [filteringPayload xy, passingPayload "B" "A"]
    let w := ofSpreadPayload [filteringBackwards xy, passingPayload "B" "A"]
    let w' := ofSpreadPayload [filteringPayload xy.reverse, passingPayload "B" "A"]
    let d := ofSpread [filtering [("x", .int 1), ("y", .null)], passing "B" "A"]
    v.RearrangedOutsideValues w ∧ ofJson v = .ok d ∧ ofJson w = .ok d ∧
      v.Rearranged w' ∧ (∃ e, ofJson w' = .ok e ∧ d.same e = true) ∧
      ofJson (ofSpreadPayload [filteringBackwards xy, passingPayload "A" "A"]) =
        .error (.duplicateFragment ⟨"A", "a", "p"⟩) := by
  intro xy v w w' d
  have hd : ofJson v = .ok d := by rfl
  have hkeys : v.distinctKeys = true := by rfl
  have hvw : v.RearrangedOutsideValues w := rearrangedOutsideValues_filteringBackwards xy _
  have hvw' : v.Rearranged w' := rearranged_filteringPayload (List.reverse_perm xy).symm _
  have hclash := rearrangedOutsideValues_filteringBackwards xy (passingPayload "A" "A")
  refine ⟨hvw, hd, ?_, hvw', ?_, ?_⟩
  · exact ((ofJson_of_rearranged v w hkeys hvw.rearranged).2.2 hvw d).1 hd
  · rcases (ofJson_of_rearranged v w' hkeys hvw').1 with ⟨d', e, hd', he, hde⟩ | ⟨x, _, hx, -⟩
    · obtain rfl : d = d' := Except.ok.inj (hd.symm.trans hd')
      exact ⟨e, he, hde⟩
    · cases hd.symm.trans hx
  · exact ((ofJson_of_rearranged _ _ (by rfl) hclash.rearranged).2.1 _).1 (by rfl)

end Document

end QueryPayload
