import Mathlib.Data.List.Nodup
import Mathlib.Tactic.Lemma
import QueryPayload.Proofs.ArgumentValue.OfJson
import QueryPayload.Proofs.Schema.Selections
import QueryPayload.Selection.Preorder

/-!
# What is true of everything that is read

The types of the values that are read admit more than what is ever read: a named type over a list,
an enumeration with fields, an object with a repeated key.  This module says what such values lack
to be proper, and shows that a record made from parts with sound readings is proper.

## Main definitions

* `TypeRef.Proper`, `ArgumentValue.Proper`, `Selection.Proper`, `UsedType.Proper`, … — proper values
  of each type.
* `Shape.Proper`, `Record.Proper` — proper values of a shape and of a record.
* `Reading.Sound` — a reading that finds proper values only.

## Main results

* `Record.proper_of_build` — what can be built from proper fields is proper.
* `Record.ReadFrom.proper`, `Tuple.ReadFrom.proper` — records made from parts with sound readings.

## Implementation notes

A record is proper if its fields are and it could be built: building a type reference or a used type
refuses what would not be.  Therefore `Record.proper_of_build` is the only place where the records
are told apart, and the readers are gone through once for all of them.
-/

set_option relaxedAutoImplicit false
set_option autoImplicit false

namespace QueryPayload

/-! ## Proper values -/

/-- Every named type in a reference is one of a bare name. -/
def TypeRef.Proper : TypeRef → Prop
  | .name _ => True
  | .namedType child => child.isName = true
  | .listType item => item.Proper
  | .nonNullType inner => inner.Proper

/-- The value and the type of an argument are proper. -/
def Argument.Proper (a : Argument) : Prop := a.value.Proper ∧ a.type.Proper

namespace Selection

/-- The types and the arguments in a head are proper. -/
def Head.Proper : Head → Prop
  | .field f => f.type.Proper ∧ ∀ args, f.args = some args → ∀ a ∈ args, a.Proper
  | .typeCondition type => type.Proper
  | .fragmentSpread .. => True
  | .booleanCondition .. => True

mutual

/-- The sets beneath a selection, at every depth. -/
def sets : Selection → List SelectionSet
  | .leaf _ => []
  | .nested _ possibleTypes selections => ⟨possibleTypes, selections⟩ :: setsAll selections

/-- The sets beneath some selections, at every depth. -/
def setsAll : List Selection → List SelectionSet
  | [] => []
  | s :: ss => sets s ++ setsAll ss

end

/-- All heads of a selection are proper, and no set beneath it repeats a possible type. -/
def Proper (s : Selection) : Prop :=
  (∀ head ∈ s.heads, head.Proper) ∧ ∀ set ∈ s.sets, set.possibleTypes.Nodup

end Selection

namespace SelectionSet

/-- A set and the sets beneath it, at every depth. -/
def sets (set : SelectionSet) : List SelectionSet := set :: Selection.setsAll set.selections

/-- All heads in a set are proper, and neither it nor a set beneath it repeats a possible type. -/
def Proper (set : SelectionSet) : Prop :=
  (∀ head ∈ set.heads, head.Proper) ∧ ∀ inner ∈ set.sets, inner.possibleTypes.Nodup

end SelectionSet

/-- The declared types and the selections of an operation are proper. -/
def Operation.Proper (op : Operation) : Prop :=
  (∀ v ∈ op.declared, v.type.Proper) ∧ op.selectionSet.Proper

/-- A used type has the members that its kind has, and the types of its fields are proper. -/
structure UsedType.Proper (t : UsedType) : Prop where
  values_iff : t.values?.isSome = true ↔ t.kind = .enumType
  fields_iff : t.fields?.isSome = true ↔
    t.kind = .inputObjectType ∨ t.kind = .interfaceType ∨ t.kind = .objectType
  fieldTypes : ∀ fields, t.fields? = some fields → ∀ f ∈ fields, f.type.Proper

/-- The members of the three lists are proper. -/
structure DocumentParts.Proper (parts : DocumentParts) : Prop where
  operations : ∀ op ∈ parts.operations, op.Proper
  fragments : ∀ f ∈ parts.fragments, f.selectionSet.Proper
  typesUsed : ∀ t ∈ parts.typesUsed, t.Proper

/-! ## Proper selections -/

namespace Selection

/-- The sets beneath some selections are those beneath each of them. -/
lemma setsAll_eq_flatMap (ss : List Selection) : setsAll ss = ss.flatMap sets := by
  induction ss with
  | nil => rfl
  | cons s ss ih => rw [setsAll, ih, List.flatMap_cons]

/-- The heads of some selections are those of each of them. -/
lemma headsAll_eq_flatMap (ss : List Selection) : headsAll ss = ss.flatMap heads := by
  induction ss with
  | nil => rfl
  | cons s ss ih => rw [headsAll, ih, List.flatMap_cons]

end Selection

/-- A set is proper if it repeats no possible type and its selections are proper. -/
lemma SelectionSet.proper_iff {set : SelectionSet} :
    set.Proper ↔ set.possibleTypes.Nodup ∧ ∀ s ∈ set.selections, s.Proper := by
  simp only [Proper, Selection.Proper, heads, sets, Selection.headsAll_eq_flatMap,
    Selection.setsAll_eq_flatMap, List.forall_mem_cons, List.forall_mem_flatMap]
  constructor
  · rintro ⟨hheads, htypes, hsets⟩
    exact ⟨htypes, fun s hs => ⟨hheads s hs, hsets s hs⟩⟩
  · rintro ⟨htypes, hall⟩
    exact ⟨fun s hs => (hall s hs).1, htypes, fun s hs => (hall s hs).2⟩

/-- A selection is proper if its head is and the set it carries is. -/
lemma Selection.proper_ofHead_iff {head : Head} {set : Option SelectionSet} :
    (ofHead head set).Proper ↔ head.Proper ∧ ∀ inner, set = some inner → inner.Proper := by
  cases set with
  | none => simp [ofHead, Proper, heads, sets]
  | some inner =>
    simp only [ofHead, Proper, heads, sets, List.forall_mem_cons, Option.some.injEq,
      forall_eq', SelectionSet.Proper, SelectionSet.heads, SelectionSet.sets]
    exact and_assoc

/-! ## Proper values of shapes -/

/-- Proper values of a record. -/
def Record.Proper : (r : Record) → r.Val → Prop
  | .typeRef, t => t.Proper
  | .variable, v => v.type.Proper
  | .argument, a => a.Proper
  | .selectionSet, set => set.Proper
  | .field, s => s.Proper
  | .fragmentSpread, s => s.Proper
  | .typeCondition, s => s.Proper
  | .booleanCondition, s => s.Proper
  | .fragment, f => f.selectionSet.Proper
  | .operation, op => op.Proper
  | .schemaField, f => f.type.Proper
  | .schemaEnumValue, _ => True
  | .usedType, t => t.Proper
  | .document, parts => parts.Proper

/-- Proper values of a shape. -/
def Shape.Proper : (s : Shape) → s.Val → Prop
  | .text, _ => True
  | .flag, _ => True
  | .nothing, _ => True
  | .kind _, _ => True
  | .argumentValue, a => a.Proper
  | .selection, s => s.Proper
  | .names, ns => ns.Nodup
  | .record r, v => r.Proper v
  | .list s, vs => ∀ v ∈ vs, s.Proper v
  | .optional s, o => ∀ v, o = some v → s.Proper v

/-- A reading that finds proper values only. -/
def Reading.Sound (read : Reading) : Prop := ∀ s v, read s = .ok v → s.Proper v

/-- The value of each field is proper. -/
def Tuple.Proper : (fs : List Field) → Tuple fs → Prop
  | [], _ => True
  | f :: fs, (v, vs) => f.shape.Proper v ∧ Tuple.Proper fs vs

/-- The value that stands for an absent one is proper. -/
lemma Shape.proper_blank? {s : Shape} {v : s.Val} (h : s.blank? = some v) : s.Proper v := by
  cases s with
  | flag => exact True.intro
  | optional s =>
    obtain rfl : none = v := Option.some.inj h
    exact fun w hw => (by cases hw)
  | _ => cases h

namespace Field

variable {f : Field} {v : f.shape.Val}

/-- What an object that lacks a field has there is proper. -/
lemma proper_absentFromObject? (h : f.absentFromObject? = some v) : f.shape.Proper v := by
  rw [absentFromObject?] at h
  split at h
  · cases h
  · exact Shape.proper_blank? h

/-- What an array that is too short for a field has there is proper. -/
lemma proper_absentFromArray? (h : f.absentFromArray? = some v) : f.shape.Proper v := by
  rw [absentFromArray?] at h
  split at h
  · exact Shape.proper_blank? h
  · cases h

end Field

/-! ## Records -/

/-- The value that a field has among entries with sound readings is proper. -/
lemma Field.FoundIn.proper {f : Field} {es : List (String × Reading)} (hes : ∀ e ∈ es, e.2.Sound)
    {x : f.shape.Val} (h : f.FoundIn es x) : f.shape.Proper x := by
  have hown : ∀ e ∈ es.filter (fun e => f.answersTo e.1), e.2.Sound :=
    fun e he => hes e (List.mem_of_mem_filter he)
  rw [FoundIn] at h
  generalize es.filter (fun e => f.answersTo e.1) = own at h hown
  cases own with
  | nil => exact proper_absentFromObject? h
  | cons e own =>
    cases own with
    | nil => exact hown e List.mem_cons_self _ _ h
    | cons _ _ => exact h.elim

/-- The values that fields have among entries with sound readings are proper. -/
lemma Tuple.FoundIn.proper {fs : List Field} {es : List (String × Reading)}
    (hes : ∀ e ∈ es, e.2.Sound) {vs : Tuple fs} (h : Tuple.FoundIn es fs vs) :
    Tuple.Proper fs vs := by
  induction fs with
  | nil => trivial
  | cons f fs ih => exact ⟨h.1.proper hes, ih h.2⟩

/-- Values read from items with sound readings are proper. -/
lemma Tuple.ReadFrom.proper {fs : List Field} {reads : List Reading}
    (hreads : ∀ read ∈ reads, read.Sound) {vs : Tuple fs} (h : Tuple.ReadFrom fs reads vs) :
    Tuple.Proper fs vs := by
  induction fs generalizing reads with
  | nil => trivial
  | cons f fs ih =>
    obtain ⟨v, vs⟩ := vs
    cases reads with
    | nil => exact ⟨Field.proper_absentFromArray? h.1, ih hreads h.2⟩
    | cons read reads =>
      obtain ⟨hread, hreads⟩ := List.forall_mem_cons.1 hreads
      exact ⟨hread _ _ h.1, ih hreads h.2⟩

/-- A reference made from the parts of its node is proper if they are. -/
lemma TypeRef.proper_of_ofParts {kind : Kind} {value : Option String}
    {name inner : Option TypeRef} {t : TypeRef} (h : ofParts kind value name inner = .ok t)
    (hinner : ∀ u, inner = some u → u.Proper) : t.Proper := by
  cases kind with
  | name => cases value <;> cases h; exact True.intro
  | namedType =>
    cases name with
    | none => cases h
    | some child =>
      rw [ofParts] at h
      split at h
      · rename_i hchild
        cases h
        exact hchild
      · cases h
  | listType =>
    cases inner with
    | none => cases h
    | some item =>
      cases h
      exact hinner item rfl
  | nonNullType =>
    cases inner with
    | none => cases h
    | some of =>
      cases h
      exact hinner of rfl

/-- The type that is made with the members its kind has is proper if its fields are. -/
lemma UsedType.proper_of_ofParts {name : String} {kind : Kind} {description : Option String}
    {fields : Option (List SchemaField)} {values : Option (List SchemaEnumValue)}
    {t : UsedType}
    (h : (Members.ofParts kind fields values).map (⟨name, kind, description, ·⟩) = .ok t)
    (hfields : ∀ fs, fields = some fs → ∀ f ∈ fs, f.type.Proper) : t.Proper := by
  obtain ⟨members, h, rfl⟩ := map_eq_ok_iff.1 h
  have hfieldTypes : ∀ fs, members = .fields fs → ∀ f ∈ fs, f.type.Proper := by
    rintro fs rfl
    apply hfields
    cases kind <;> cases fields <;> cases values <;> cases h <;> rfl
  refine ⟨?_, ?_, fun fs hfs => hfieldTypes fs ?_⟩
  · cases kind <;> cases fields <;> cases values <;> cases h <;> simp [values?]
  · cases kind <;> cases fields <;> cases values <;> cases h <;> simp [fields?]
  · cases members <;> cases hfs; rfl

/-- **A record built from proper values is proper.**

**Proof sketch.** Records only gather their values, apart from type references and used types, which
refuse to be built improper (`TypeRef.proper_of_ofParts`, `UsedType.proper_of_ofParts`). -/
theorem Record.proper_of_build : (r : Record) → {vs : Tuple r.fields} → {v : r.Val} →
    r.build vs = .ok v → Tuple.Proper r.fields vs → r.Proper v
  | .typeRef, (_, _, _, _, ()), _, h, ⟨_, _, _, hinner, _⟩ =>
    TypeRef.proper_of_ofParts h hinner
  | .variable, (_, _, ()), _, rfl, ⟨_, htype, _⟩ => htype
  | .argument, (_, _, _, ()), _, rfl, ⟨_, hvalue, htype, _⟩ => ⟨hvalue, htype⟩
  | .selectionSet, (_, _, ()), _, rfl, ⟨htypes, hselections, _⟩ =>
    SelectionSet.proper_iff.2 ⟨htypes, hselections⟩
  | .field, (_, _, _, _, _, _, _, ()), _, rfl, ⟨_, htype, _, _, _, hargs, hset, _⟩ =>
    Selection.proper_ofHead_iff.2 ⟨⟨htype, hargs⟩, hset⟩
  | .fragmentSpread, (_, _, _, ()), _, rfl, ⟨_, _, hset, _⟩ =>
    Selection.proper_ofHead_iff.2 ⟨True.intro, hset⟩
  | .typeCondition, (_, _, ()), _, rfl, ⟨htype, hset, _⟩ =>
    Selection.proper_ofHead_iff.2 ⟨htype, hset⟩
  | .booleanCondition, (_, _, _, ()), _, rfl, ⟨_, _, hset, _⟩ =>
    Selection.proper_ofHead_iff.2 ⟨True.intro, hset⟩
  | .fragment, (_, _, _, _, ()), _, rfl, ⟨_, _, _, hset, _⟩ => hset
  | .operation, (_, _, _, _, _, _, _, ()), _, rfl, ⟨_, _, _, _, _, hdeclared, hset, _⟩ =>
    ⟨hdeclared, hset⟩
  | .schemaField, (_, _, _, _, ()), _, rfl, ⟨_, htype, _⟩ => htype
  | .schemaEnumValue, (_, _, _, ()), _, rfl, _ => True.intro
  | .usedType, (_, _, _, _, _, ()), _, h, ⟨_, _, _, hfields, _⟩ =>
    UsedType.proper_of_ofParts h hfields
  | .document, (_, _, _, ()), _, rfl, ⟨hoperations, hfragments, htypes, _⟩ =>
    ⟨hoperations, hfragments, htypes⟩

/-- A record made from entries with sound readings is proper. -/
lemma Record.ReadFrom.proper {r : Record} {es : List (String × Reading)} {v : r.Val}
    (hes : ∀ e ∈ es, e.2.Sound) (h : r.ReadFrom es v) : r.Proper v := by
  obtain ⟨vs, hfound, hbuild⟩ := Record.readFrom_iff_foundIn.1 h
  exact Record.proper_of_build r hbuild (hfound.proper hes)

/-- A selection made from entries with sound readings is proper. -/
lemma Selection.Kind.ReadFrom.proper {k : Selection.Kind} {es : List (String × Reading)}
    {sel : Selection} (hes : ∀ e ∈ es, e.2.Sound) (h : k.ReadFrom es sel) : sel.Proper := by
  cases k <;> exact Record.ReadFrom.proper hes h

/-- Names that are counted once are not repeated. -/
lemma nodup_firstOccurrences (names : List String) : (firstOccurrences names).Nodup := by
  have hfold : ∀ (more seen : List String), seen.Nodup →
      (more.foldl (fun seen name => if seen.contains name then seen else seen ++ [name])
        seen).Nodup := by
    intro more
    induction more with
    | nil => exact fun seen hseen => hseen
    | cons name more ih =>
      intro seen hseen
      rw [List.foldl_cons]
      apply ih
      split
      · exact hseen
      · rename_i hnew
        have hmem : name ∉ seen := fun hmem => hnew (List.contains_iff_mem.2 hmem)
        exact List.nodup_append'.2
          ⟨hseen, List.nodup_singleton _, List.disjoint_singleton.2 hmem⟩
  exact hfold names [] List.nodup_nil

end QueryPayload
