import Mathlib.Logic.Relation
import Mathlib.Tactic.Lemma
import QueryPayload.Proofs.Document.EntryPoints
import QueryPayload.Proofs.Related
import QueryPayload.Proofs.Schema.Selections
import QueryPayload.TypeRef.Json

/-!
# Foreign keys are irrelevant

A node may have entries under keys that it does not define.  Whatever stands there, and whether
anything does, the document is the same.

## Main definitions

* `Json.Takes` — one tree is another one in which one node has one more entry, under a foreign key.
* `Json.SameButForeign` — two trees differ in any number of such entries.

## Main results

* `Json.read_eq_ok_iff_of_takes` — one more entry under a foreign key.
* `Document.ofJson_eq_ok_iff_of_sameButForeign` — any number of them.

## Implementation notes

Which keys are foreign to a node depends on what the node is read as, so the relation is about a
tree at a place of a shape.  A selection says by its kind what its other entries are read as.  The
value of an argument has no nodes, and there is no rule for its shape.
-/

set_option relaxedAutoImplicit false
set_option autoImplicit false

namespace QueryPayload

/-- No field of a record answers to the key. -/
def Record.Foreign (r : Record) (key : String) : Prop :=
  ∀ f ∈ r.fields, f.answersTo key = false

instance (r : Record) (key : String) : Decidable (r.Foreign key) :=
  inferInstanceAs (Decidable (∀ f ∈ r.fields, f.answersTo key = false))

namespace Json

/-- At a place of the given shape, the second tree is the first one in which one node has one more
entry, under a key that the node does not define. -/
inductive Takes : Shape → Json → Json → Prop where
  /-- A record takes an entry under a key of none of its fields. -/
  | record {r : Record} (es es' : List (String × Json)) {key : String} {v : Json}
    (hkey : r.Foreign key) :
    Takes (.record r) (.obj (es ++ es')) (.obj (es ++ (key, v) :: es'))
  /-- A selection takes an entry under a key that is neither `kind` nor one of its record. -/
  | selection (es es' : List (String × Json)) {key : String} {v : Json} (hkind : key ≠ "kind")
    (hkey : ∀ k, kindOf? (es ++ es') = some k → k.record.Foreign key) :
    Takes .selection (.obj (es ++ es')) (.obj (es ++ (key, v) :: es'))
  /-- A node beneath a field of a record takes one. -/
  | field {r : Record} {f : Field} (es es' : List (String × Json)) {key : String} {v w : Json}
    (hf : f ∈ r.fields) (hkey : f.answersTo key = true) (h : Takes f.shape v w) :
    Takes (.record r) (.obj (es ++ (key, v) :: es')) (.obj (es ++ (key, w) :: es'))
  /-- A node beneath a field of a record that is given as an array takes one. -/
  | item {r : Record} {f : Field} (items items' : List Json) {v w : Json}
    (hf : r.fields[items.length]? = some f) (h : Takes f.shape v w) :
    Takes (.record r) (.arr (items ++ v :: items')) (.arr (items ++ w :: items'))
  /-- A node beneath a field of a selection takes one. -/
  | selectionField {k : Selection.Kind} {f : Field} (es es' : List (String × Json)) {key : String}
    {v w : Json} (hk : kindOf? (es ++ (key, v) :: es') = some k) (hf : f ∈ k.record.fields)
    (hkey : f.answersTo key = true) (h : Takes f.shape v w) :
    Takes .selection (.obj (es ++ (key, v) :: es')) (.obj (es ++ (key, w) :: es'))
  /-- A node beneath an item of a list takes one. -/
  | listItem {s : Shape} (items items' : List Json) {v w : Json} (h : Takes s v w) :
    Takes (.list s) (.arr (items ++ v :: items')) (.arr (items ++ w :: items'))
  /-- A node that may be null takes one. -/
  | optional {s : Shape} {v w : Json} (h : Takes s v w) : Takes (.optional s) v w

/-- At a place of the given shape, two trees differ only in entries under keys that their nodes do
not define. -/
def SameButForeign (s : Shape) : Json → Json → Prop := Relation.EqvGen (Takes s)

variable {s : Shape} {v w : Json}

/-- A node that takes an entry is not null, before and after. -/
lemma Takes.ne_null (h : Takes s v w) : v ≠ .null ∧ w ≠ .null := by
  induction h with
  | optional _ ih => exact ih
  | _ => exact ⟨nofun, nofun⟩

/-- An entry under another key does not change the kind of a selection. -/
lemma kindOf?_middle {es es' : List (String × Json)} {key : String} {v : Json} (h : key ≠ "kind") :
    kindOf? (es ++ (key, v) :: es') = kindOf? (es ++ es') := by
  have hkey : (key == "kind") = false := beq_eq_false_iff_ne.2 h
  simp [kindOf?, List.find?_append, hkey]

/-- The readings of entries among others. -/
lemma entryReadings_middle {es es' : List (String × Json)} {key : String} {v : Json} :
    entryReadings (es ++ (key, v) :: es') =
      entryReadings es ++ (key, v.read) :: entryReadings es' := by
  simp [entryReadings_eq]

/-- A foreign entry does not change what the fields of a record are. -/
lemma foundIn_foreign_iff {r : Record} {es es' : List (String × Json)} {key : String} {v : Json}
    (hkey : r.Foreign key) {vs : Tuple r.fields} :
    Tuple.FoundIn (entryReadings (es ++ (key, v) :: es')) r.fields vs ↔
      Tuple.FoundIn (entryReadings (es ++ es')) r.fields vs := by
  have happend : entryReadings (es ++ es') = entryReadings es ++ entryReadings es' := by
    simp [entryReadings_eq]
  rw [entryReadings_middle, happend]
  exact Tuple.foundIn_congr fun f hf x => Field.foundIn_middle_iff (hkey f hf)

/-- The fields of a record are the same among entries of which one has another value that is read
as the same. -/
lemma foundIn_field_iff {r : Record} {f : Field} {es es' : List (String × Json)} {key : String}
    (hf : f ∈ r.fields) (hkey : f.answersTo key = true)
    (h : ∀ x, v.read f.shape = .ok x ↔ w.read f.shape = .ok x) {vs : Tuple r.fields} :
    Tuple.FoundIn (entryReadings (es ++ (key, v) :: es')) r.fields vs ↔
      Tuple.FoundIn (entryReadings (es ++ (key, w) :: es')) r.fields vs := by
  rw [entryReadings_middle, entryReadings_middle]
  refine Tuple.foundIn_congr fun g hg x => ?_
  cases hgkey : g.answersTo key with
  | false => rw [Field.foundIn_middle_iff hgkey, Field.foundIn_middle_iff hgkey]
  | true =>
    obtain rfl := r.eq_of_answersTo hf hg hkey hgkey
    exact Field.foundIn_congr_middle h hkey

/-- The values of fields are the same from items of which one is read as the same. -/
lemma readFrom_item_iff {fs : List Field} {f : Field} {reads reads' : List Reading}
    {read read' : Reading} (hf : fs[reads.length]? = some f)
    (h : ∀ x, read f.shape = .ok x ↔ read' f.shape = .ok x) {vs : Tuple fs} :
    Tuple.ReadFrom fs (reads ++ read :: reads') vs ↔
      Tuple.ReadFrom fs (reads ++ read' :: reads') vs := by
  induction reads generalizing fs with
  | nil =>
    cases fs with
    | nil => cases hf
    | cons g fs =>
      obtain rfl : g = f := Option.some.inj hf
      exact and_congr_left' (h vs.1)
  | cons r reads ih =>
    cases fs with
    | nil => cases hf
    | cons g fs => exact and_congr_right' (ih hf)

/-- **One more foreign entry** changes nothing.

**Proof sketch.** Induction on the place of the entry.  No field of a record looks at the entry
itself (`foundIn_foreign_iff`).  A field that looks at the node that has taken it, or at one around
that node, finds the same there by the induction hypothesis (`foundIn_field_iff`,
`readFrom_item_iff`). -/
theorem read_eq_ok_iff_of_takes (h : Takes s v w) (x : s.Val) :
    v.read s = .ok x ↔ w.read s = .ok x := by
  induction h with
  | record _ _ hkey =>
    refine read_obj_record_iff.trans (Iff.trans ?_ read_obj_record_iff.symm)
    exact exists_congr fun vs => and_congr_left' (foundIn_foreign_iff hkey).symm
  | selection _ _ hkind hkey =>
    refine read_obj_selection_iff.trans (Iff.trans ?_ read_obj_selection_iff.symm)
    rw [kindOf?_middle hkind]
    refine exists_congr fun k => and_congr_right fun hk => ?_
    exact Selection.Kind.readFrom_congr fun vs => (foundIn_foreign_iff (hkey k hk)).symm
  | field _ _ hf hkey _ ih =>
    refine read_obj_record_iff.trans (Iff.trans ?_ read_obj_record_iff.symm)
    exact exists_congr fun vs => and_congr_left' (foundIn_field_iff hf hkey ih)
  | item _ _ hf _ ih =>
    refine read_arr_record_iff.trans (Iff.trans ?_ read_arr_record_iff.symm)
    refine exists_congr fun vs => and_congr_left' ?_
    simp only [List.map_append, List.map_cons]
    exact readFrom_item_iff (by simpa using hf) ih
  | @selectionField k f _ _ key _ _ hk hf hkey _ ih =>
    have hkind : key ≠ "kind" := by
      rintro rfl
      simp [k.answersTo_kind f hf] at hkey
    refine read_obj_selection_iff.trans (Iff.trans ?_ read_obj_selection_iff.symm)
    rw [kindOf?_middle hkind] at hk
    rw [kindOf?_middle hkind, kindOf?_middle hkind]
    refine exists_congr fun k' => and_congr_right fun hk' => ?_
    obtain rfl : k = k' := Option.some.inj (hk.symm.trans hk')
    exact Selection.Kind.readFrom_congr fun vs => foundIn_field_iff hf hkey ih
  | listItem _ _ _ ih =>
    refine read_arr_list_iff.trans (Iff.trans ?_ read_arr_list_iff.symm)
    exact forall₂_middle_iff ih
  | optional h ih =>
    rw [read_optional h.ne_null.1, read_optional h.ne_null.2, map_eq_ok_iff, map_eq_ok_iff]
    exact exists_congr fun y => and_congr_left' (ih y)

/-- Trees that differ in foreign entries only are read as the same. -/
lemma read_eq_ok_iff_of_sameButForeign (h : SameButForeign s v w) (x : s.Val) :
    v.read s = .ok x ↔ w.read s = .ok x := by
  induction h with
  | rel v w h => exact read_eq_ok_iff_of_takes h x
  | refl v => exact Iff.rfl
  | symm v w _ ih => exact ih.symm
  | trans u v w _ _ ih ih' => exact ih.trans ih'

end Json

namespace Document

/-- **Foreign entries are irrelevant**: of two trees that differ in nothing else, one decodes to a
document exactly if the other one does, and to the same one. -/
theorem ofJson_eq_ok_iff_of_sameButForeign {v w : Json}
    (h : v.SameButForeign (.record .document) w) (d : Document) :
    ofJson v = .ok d ↔ ofJson w = .ok d := by
  rw [ofJson_eq_ok_iff, ofJson_eq_ok_iff]
  exact exists_congr fun ps => and_congr_left' (Json.read_eq_ok_iff_of_sameButForeign h ps)

/-- A payload whose one selection and which itself have some more entries. -/
def catalogPayload (inSelection inDocument : List (String × Json)) : Json :=
  .obj ([("operations", .arr [.arr [.str "Catalog", .str "query", .str "Query", .str "c",
      .str "query", .arr [], .arr [.arr [], .arr [.obj ([("kind", .str "Field"),
        ("name", .str "items"), ("typeNode", (TypeRef.named "Item").toJson)] ++ inSelection)]]]]),
    ("fragments", .arr []), ("typesUsed", .arr [])] ++ inDocument)

/-- The document of `catalogPayload`. -/
def catalog : Document :=
  ⟨[⟨"Catalog", .query, "Query", "c", "query", [],
    ⟨[], [.leaf (.field ⟨"items", .named "Item", none, none, none, none⟩)]⟩⟩], ⟨[]⟩, []⟩

/-- Whether it is inverted is foreign to a field. -/
lemma takes_catalogPayload (v : Json) :
    Json.Takes (.record .document) (catalogPayload [] [])
      (catalogPayload [("inverted", v)] []) := by
  have hkind : ∀ k, Json.kindOf? ([("kind", .str "Field"), ("name", .str "items"),
      ("typeNode", (TypeRef.named "Item").toJson)] ++ []) = some k →
      k.record.Foreign "inverted" := by
    rintro k ⟨⟩
    decide
  -- the way to the selection: the first operation, its selection set, the first selection there
  refine .field (f := .required "operations" (.list (.record .operation))) [] _
    (by decide) (by decide) ?_
  refine .listItem [] [] (.item [_, _, _, _, _, _] [] rfl ?_)
  refine .item [_] [] rfl (.listItem [] [] ?_)
  exact .selection _ [] (by decide) hkind

/-- `ofJson_eq_ok_iff_of_sameButForeign` where an entry of a selection is changed and one of the
payload is added. -/
theorem ofJson_catalogPayload :
    Json.SameButForeign (.record .document) (catalogPayload [("inverted", .str "no")] [])
      (catalogPayload [("inverted", .arr [])] [("version", .num (.int 2))]) ∧
    ofJson (catalogPayload [("inverted", .str "no")] []) = .ok catalog ∧
    ofJson (catalogPayload [("inverted", .arr [])] [("version", .num (.int 2))]) = .ok catalog := by
  have hremoved := (Relation.EqvGen.rel _ _ (takes_catalogPayload (.str "no"))).symm
  have hadded := Relation.EqvGen.rel _ _ (takes_catalogPayload (.arr []))
  have hversion : Json.Takes (.record .document) (catalogPayload [("inverted", .arr [])] [])
      (catalogPayload [("inverted", .arr [])] [("version", .num (.int 2))]) :=
    .record [_, _, _] [] (by decide)
  have hsame : Json.SameButForeign (.record .document) _ _ :=
    (hremoved.trans _ _ _ hadded).trans _ _ _ (.rel _ _ hversion)
  have hd : ofJson (catalogPayload [("inverted", .str "no")] []) = .ok catalog := by rfl
  exact ⟨hsame, hd, (ofJson_eq_ok_iff_of_sameButForeign hsame catalog).1 hd⟩

end Document

end QueryPayload
