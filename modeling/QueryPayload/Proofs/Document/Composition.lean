import Mathlib.Tactic.Lemma
import QueryPayload.Proofs.Document.EntryPoints
import QueryPayload.Proofs.Document.Parts
import QueryPayload.Proofs.Related
import QueryPayload.Proofs.Schema.Layout
import QueryPayload.Proofs.Schema.Selections

/-!
# Decoding is compositional

A document is decoded part by part: whatever stands inside it is decoded as it is on its own, and
nothing is left out, repeated or moved.

## Main definitions

* `Json.selections?`, `Json.innerSet?`, `Json.rootSet?` — the selections in a payload of a selection
  set, the set in a payload of a selection, and the set in a payload of an operation or a fragment.
* `Json.setAt?`, `SelectionSet.setAt?` — the set at a path, in a payload and in a selection set.
* `Json.Mirrors` — at every path, the payload and the selection set have the same selections.

## Main results

* `Json.mirrors_of_read` — a selection set mirrors its payload.
* `Document.ofJson_compositional` — which trees decode to documents, and to which ones.
-/

set_option relaxedAutoImplicit false
set_option autoImplicit false

namespace QueryPayload

/-! ## Selection sets -/

/-- The set at a path in a selection set, where a path is the indices of the selections that lead
there. -/
def SelectionSet.setAt? : List Nat → SelectionSet → Option SelectionSet
  | [], set => some set
  | i :: path, set => (set.selections[i]?.bind Selection.set?).bind (setAt? path)

namespace Json

/-- The payloads of the selections in the payload of a selection set. -/
def selections? (w : Json) : Option (List Json) :=
  match w.parts? .selectionSet with
  | some [_, .arr items] => some items
  | _ => none

/-- A tree that is not null. -/
def present? : Json → Option Json
  | .null => none
  | v => some v

/-- The payload of the set that is selected beneath a selection. -/
def innerSet? : Json → Option Json
  | .obj entries => (sole? "selectionSet" entries).bind present?
  | _ => none

/-- The payload of the selection set of an operation or a fragment, which is their last field. -/
def rootSet? (r : Record) (v : Json) : Option Json := (v.parts? r).bind List.getLast?

/-- The payload of the set at a path. -/
def setAt? : List Nat → Json → Option Json
  | [], w => some w
  | i :: path, w =>
    ((w.selections?.bind (·[i]?)).bind innerSet?).bind (setAt? path)

/-- The payload decodes on its own to the set, and the payloads of the selections in it decode on
their own to those of the set, one by one. -/
structure MakesSet (w : Json) (set : SelectionSet) : Prop where
  read : w.read (.record .selectionSet) = .ok set
  selections : ∃ items, w.selections? = some items ∧
    List.Forall₂ (fun item sel => item.read .selection = .ok sel) items set.selections

/-- At every path there is a set in the selection set exactly if there is one in the payload, and
that one decodes to it. -/
def Mirrors (w : Json) (set : SelectionSet) : Prop :=
  ∀ path, Option.Rel MakesSet (w.setAt? path) (set.setAt? path)

variable {v w : Json} {set : SelectionSet} {sel : Selection}

/-- A selection set has the selections of its payload. -/
lemma makesSet_of_read (h : w.read (.record .selectionSet) = .ok set) : w.MakesSet set := by
  obtain ⟨items, ⟨possibleTypes, selections, ⟨⟩⟩, hparts, hvs, hbuild⟩ :=
    (read_plain_iff (r := .selectionSet) (by decide)).1 h
  obtain rfl := Except.ok.inj hbuild
  refine ⟨h, ?_⟩
  match items, hvs with
  | [_, node], ⟨_, hselections, _⟩ =>
    obtain ⟨items, rfl, hitems⟩ := read_list_iff.1 hselections
    exact ⟨items, by rw [selections?, hparts], hitems⟩

/-- What may be null is there exactly if its payload is not null. -/
lemma rel_present?_of_read {s : Shape} {x : Option s.Val} (h : v.read (.optional s) = .ok x) :
    Option.Rel (fun w y => w.read s = .ok y) v.present? x := by
  cases v with
  | null =>
    obtain rfl : none = x := Except.ok.inj h
    exact .none
  | _ =>
    obtain ⟨y, hy, rfl⟩ := map_eq_ok_iff.1 h
    exact .some hy

/-- A selection carries what its field for the set has found. -/
lemma rel_innerSet?_of_foundIn {entries : List (String × Json)} {inner : Option SelectionSet}
    (h : (Field.omissible "selectionSet" (.record .selectionSet)).FoundIn
      (entryReadings entries) inner)
    {head : Selection.Head} (hsel : .ofHead head inner = sel) :
    Option.Rel (fun w set => w.read (.record .selectionSet) = .ok set)
      (obj entries).innerSet? sel.set? := by
  have hgiven : Field.GivenBy (.omissible "selectionSet" (.record .selectionSet))
      ((entries.filter (·.1 == "selectionSet")).map fun e => (e.1, e.2.read)) inner :=
    (Field.foundIn_entryReadings_iff rfl).1 h
  rw [← hsel, Selection.set?_ofHead, innerSet?, sole?]
  generalize entries.filter (·.1 == "selectionSet") = own at hgiven
  cases own with
  | nil =>
    obtain rfl : none = inner := Option.some.inj hgiven
    exact .none
  | cons e own =>
    cases own with
    | nil => exact rel_present?_of_read hgiven
    | cons _ _ => exact hgiven.elim

/-- A selection carries the set that its payload carries. -/
lemma rel_innerSet?_of_read {item : Json} (h : item.read .selection = .ok sel) :
    Option.Rel (fun w set => w.read (.record .selectionSet) = .ok set) item.innerSet? sel.set? := by
  cases item with
  | obj entries =>
    obtain ⟨k, -, hfrom⟩ := read_obj_selection_iff.1 h
    cases k with
    | booleanCondition =>
      obtain ⟨⟨_, _, inner, ⟨⟩⟩, ⟨-, -, hinner, -⟩, hbuild⟩ := Record.readFrom_iff_foundIn.1 hfrom
      exact rel_innerSet?_of_foundIn hinner (Except.ok.inj hbuild)
    | field =>
      obtain ⟨⟨_, _, _, _, _, _, inner, ⟨⟩⟩, ⟨-, -, -, -, -, -, hinner, -⟩, hbuild⟩ :=
        Record.readFrom_iff_foundIn.1 hfrom
      exact rel_innerSet?_of_foundIn hinner (Except.ok.inj hbuild)
    | fragmentSpread =>
      obtain ⟨⟨_, _, inner, ⟨⟩⟩, ⟨-, -, hinner, -⟩, hbuild⟩ := Record.readFrom_iff_foundIn.1 hfrom
      exact rel_innerSet?_of_foundIn hinner (Except.ok.inj hbuild)
    | typeCondition =>
      obtain ⟨⟨_, inner, ⟨⟩⟩, ⟨-, hinner, -⟩, hbuild⟩ := Record.readFrom_iff_foundIn.1 hfrom
      exact rel_innerSet?_of_foundIn hinner (Except.ok.inj hbuild)
  | _ => cases h

/-- **A selection set mirrors its payload**: at every depth it has the selections that the payload
has there, each as it is decoded on its own.

**Proof sketch.** Induction on the path.  The payload has the selections of the set
(`makesSet_of_read`), and those of one index carry sets of which one is read as the other, or none
(`rel_innerSet?_of_read`). -/
theorem mirrors_of_read (h : w.read (.record .selectionSet) = .ok set) : w.Mirrors set := by
  intro path
  induction path generalizing w set with
  | nil => exact .some (makesSet_of_read h)
  | cons i path ih =>
    obtain ⟨items, hitems, hselections⟩ := (makesSet_of_read h).selections
    rw [setAt?, SelectionSet.setAt?, hitems, Option.bind_some]
    have hinner := rel_bind (rel_getElem? hselections i) fun _ _ => rel_innerSet?_of_read
    exact rel_bind hinner fun _ _ => ih

/-- The selection set of an operation mirrors the one in its payload. -/
lemma mirrors_of_read_operation {op : Operation} (h : v.read (.record .operation) = .ok op) :
    ∃ w, v.rootSet? .operation = some w ∧ w.Mirrors op.selectionSet := by
  obtain ⟨items, ⟨name, kind, rootType, filePath, source, declared, set, ⟨⟩⟩, hparts, hvs,
    hbuild⟩ := (read_plain_iff (r := .operation) (by decide)).1 h
  obtain rfl := Except.ok.inj hbuild
  match items, hvs with
  | [_, _, _, _, _, _, w], ⟨_, _, _, _, _, _, hset, _⟩ =>
    exact ⟨w, by rw [rootSet?, hparts]; rfl, mirrors_of_read hset⟩

/-- The selection set of a fragment mirrors the one in its payload. -/
lemma mirrors_of_read_fragment {f : Fragment} (h : v.read (.record .fragment) = .ok f) :
    ∃ w, v.rootSet? .fragment = some w ∧ w.Mirrors f.selectionSet := by
  obtain ⟨items, ⟨name, filePath, source, set, ⟨⟩⟩, hparts, hvs, hbuild⟩ :=
    (read_plain_iff (r := .fragment) (by decide)).1 h
  obtain rfl := Except.ok.inj hbuild
  match items, hvs with
  | [_, _, _, w], ⟨_, _, _, hset, _⟩ =>
    exact ⟨w, by rw [rootSet?, hparts]; rfl, mirrors_of_read hset⟩

/-! ## Documents -/

/-- The three lists of a payload are read element by element. -/
lemma read_document_iff {ps : DocumentParts} :
    v.read (.record .document) = .ok ps ↔
      ∃ operations fragments typesUsed,
        v.parts? .document = some [.arr operations, .arr fragments, .arr typesUsed] ∧
        List.Forall₂ (fun j op => j.read (.record .operation) = .ok op) operations ps.operations ∧
        List.Forall₂ (fun j f => j.read (.record .fragment) = .ok f) fragments ps.fragments ∧
        List.Forall₂ (fun j t => j.read (.record .usedType) = .ok t) typesUsed ps.typesUsed := by
  refine (read_plain_iff (r := .document) (by decide)).trans ?_
  constructor
  · rintro ⟨items, ⟨operations, fragments, typesUsed, ⟨⟩⟩, hparts, hvs, hbuild⟩
    obtain rfl := Except.ok.inj hbuild
    match items, hvs with
    | [_, _, _], ⟨hoperations, hfragments, htypes, _⟩ =>
      obtain ⟨operations, rfl, hoperations'⟩ := read_list_iff.1 hoperations
      obtain ⟨fragments, rfl, hfragments'⟩ := read_list_iff.1 hfragments
      obtain ⟨typesUsed, rfl, htypes'⟩ := read_list_iff.1 htypes
      exact ⟨operations, fragments, typesUsed, hparts, hoperations', hfragments', htypes'⟩
  · rintro ⟨operations, fragments, typesUsed, hparts, hoperations, hfragments, htypes⟩
    exact ⟨_, (ps.operations, ps.fragments, ps.typesUsed, ()), hparts,
      ⟨read_arr_list_iff.2 hoperations, read_arr_list_iff.2 hfragments,
        read_arr_list_iff.2 htypes, rfl⟩, rfl⟩

end Json

namespace Document

variable {v : Json} {d : Document}

/-- The payloads of two fragments, if both can be decoded, give different names. -/
def NamesDiffer (j j' : Json) : Prop :=
  ∀ f f', j.read (.record .fragment) = .ok f → j'.read (.record .fragment) = .ok f' →
    f.name ≠ f'.name

/-- The names of fragments are distinct if those of any two of their payloads are. -/
lemma pairwise_namesDiffer_iff {js : List Json} {fs : List Fragment}
    (h : List.Forall₂ (fun j f => j.read (.record .fragment) = .ok f) js fs) :
    js.Pairwise NamesDiffer ↔ (fs.map Fragment.name).Nodup := by
  induction h with
  | nil => simp
  | @cons j f js fs hf hfs ih =>
    have hnew : (∀ j' ∈ js, NamesDiffer j j') ↔ ∀ f' ∈ fs, f.name ≠ f'.name := by
      refine forall_mem_iff_of_forall₂ hfs fun j' f' hf' => ?_
      simp [NamesDiffer, hf, hf']
    rw [List.pairwise_cons, List.map_cons, List.nodup_cons, ih, hnew]
    simp [eq_comm]

/-- A tree decodes to a document exactly if the elements of its lists decode to the parts of the
document, and these have distinct names. -/
lemma ofJson_eq_ok_iff_forall₂ :
    ofJson v = .ok d ↔
      ∃ operations fragments typesUsed fs,
        v.parts? .document = some [.arr operations, .arr fragments, .arr typesUsed] ∧
        List.Forall₂ (fun j op => j.read (.record .operation) = .ok op) operations d.operations ∧
        List.Forall₂ (fun j f => j.read (.record .fragment) = .ok f) fragments fs ∧
        List.Forall₂ (fun j t => j.read (.record .usedType) = .ok t) typesUsed d.typesUsed ∧
        fragments.Pairwise NamesDiffer ∧ d.registry = .ofFragments fs := by
  rw [ofJson_eq_ok_iff]
  constructor
  · rintro ⟨ps, hps, hd⟩
    obtain ⟨operations, fragments, typesUsed, hparts, hoperations, hfragments, htypes⟩ :=
      Json.read_document_iff.1 hps
    obtain ⟨hnodup, rfl⟩ := ofParts_eq_ok_iff.1 hd
    exact ⟨operations, fragments, typesUsed, ps.fragments, hparts, hoperations, hfragments, htypes,
      (pairwise_namesDiffer_iff hfragments).2 hnodup, rfl⟩
  · rintro ⟨operations, fragments, typesUsed, fs, hparts, hoperations, hfragments, htypes, hnames,
      hregistry⟩
    have hnodup := (pairwise_namesDiffer_iff hfragments).1 hnames
    refine ⟨⟨d.operations, fs, d.typesUsed⟩, Json.read_document_iff.2 ⟨operations, fragments,
      typesUsed, hparts, hoperations, hfragments, htypes⟩, ofParts_eq_ok_iff.2 ⟨hnodup, ?_⟩⟩
    rw [DocumentParts.document, ← hregistry]

/-- **Decoding is compositional.** A tree decodes exactly if it has the three lists, every element
of them decodes on its own, and no two fragments have one name.  The document then consists of what
the elements decode to, in their order, and the selection set of each operation and fragment mirrors
its payload at every depth.

**Proof sketch.** The three lists are read element by element (`Json.read_document_iff`) and make a
document if the names of the fragments differ (`ofParts_eq_ok_iff`).  What is inside an element is
read as it is on its own (`Json.mirrors_of_read`). -/
theorem ofJson_compositional (v : Json) :
    ((∃ d, ofJson v = .ok d) ↔
      ∃ operations fragments typesUsed,
        v.parts? .document = some [.arr operations, .arr fragments, .arr typesUsed] ∧
        (∀ j ∈ operations, ∃ op, j.read (.record .operation) = .ok op) ∧
        (∀ j ∈ fragments, ∃ f, j.read (.record .fragment) = .ok f) ∧
        (∀ j ∈ typesUsed, ∃ t, j.read (.record .usedType) = .ok t) ∧
        fragments.Pairwise NamesDiffer) ∧
    ∀ d, ofJson v = .ok d → ∃ operations fragments typesUsed,
      v.parts? .document = some [.arr operations, .arr fragments, .arr typesUsed] ∧
      List.Forall₂ (fun j op => j.read (.record .operation) = .ok op ∧
        ∃ w, j.rootSet? .operation = some w ∧ w.Mirrors op.selectionSet)
        operations d.operations ∧
      List.Forall₂ (fun j e => j.read (.record .fragment) = .ok e.2 ∧ e.1 = e.2.name ∧
        ∃ w, j.rootSet? .fragment = some w ∧ w.Mirrors e.2.selectionSet)
        fragments d.registry.entries ∧
      List.Forall₂ (fun j t => j.read (.record .usedType) = .ok t) typesUsed d.typesUsed := by
  refine ⟨⟨?_, ?_⟩, fun d hd => ?_⟩
  -- a tree that decodes
  · rintro ⟨d, hd⟩
    obtain ⟨operations, fragments, typesUsed, fs, hparts, hoperations, hfragments, htypes, hnames,
      -⟩ := ofJson_eq_ok_iff_forall₂.1 hd
    exact ⟨operations, fragments, typesUsed, hparts, exists_forall₂_iff.1 ⟨_, hoperations⟩,
      exists_forall₂_iff.1 ⟨_, hfragments⟩, exists_forall₂_iff.1 ⟨_, htypes⟩, hnames⟩
  -- a tree whose elements do
  · rintro ⟨operations, fragments, typesUsed, hparts, hoperations, hfragments, htypes, hnames⟩
    obtain ⟨ops, hops⟩ := exists_forall₂_iff.2 hoperations
    obtain ⟨fs, hfs⟩ := exists_forall₂_iff.2 hfragments
    obtain ⟨ts, hts⟩ := exists_forall₂_iff.2 htypes
    exact ⟨⟨ops, .ofFragments fs, ts⟩, ofJson_eq_ok_iff_forall₂.2
      ⟨operations, fragments, typesUsed, fs, hparts, hops, hfs, hts, hnames, rfl⟩⟩
  -- the document
  · obtain ⟨operations, fragments, typesUsed, fs, hparts, hoperations, hfragments, htypes, -,
      hregistry⟩ := ofJson_eq_ok_iff_forall₂.1 hd
    refine ⟨operations, fragments, typesUsed, hparts, ?_, ?_, htypes⟩
    · exact hoperations.imp fun _ _ hop => ⟨hop, Json.mirrors_of_read_operation hop⟩
    · rw [hregistry, FragmentRegistry.ofFragments, List.forall₂_map_right_iff]
      exact hfragments.imp fun _ _ hf => ⟨hf, rfl, Json.mirrors_of_read_fragment hf⟩

end Document

end QueryPayload
