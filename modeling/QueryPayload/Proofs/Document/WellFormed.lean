import Mathlib.Tactic.Lemma
import QueryPayload.Proofs.Document.EntryPoints
import QueryPayload.Proofs.Document.Parts
import QueryPayload.Proofs.Report.Valid
import QueryPayload.Proofs.Schema.Sound

/-!
# Decoded documents are well formed

What prints, checks or resolves a document relies on what its types do not say: that a named type
wraps a name, that an enumeration has values, that an object has one value under a key.  It holds of
every document that some payload decodes to.

## Main definitions

* `Document.types`, `Document.arguments`, `Document.allSets` — the types, the arguments and the
  selection sets of a document, at every depth.
* `Document.WellFormed` — what is relied on.

## Main results

* `Document.wellFormed_of_decoded` — decoded documents are well formed.
-/

set_option relaxedAutoImplicit false
set_option autoImplicit false

namespace QueryPayload

/-! ## Proper references -/

namespace TypeRef

/-- Proper references are those with a name at the bottom. -/
lemma proper_iff_innermostName? {t : TypeRef} :
    t.Proper ↔ ∃ name, t.innermostName? = some name := by
  induction t with
  | name value => simp [Proper, innermostName?]
  | namedType child => cases child <;> simp [Proper, isName, innermostName?]
  | listType item ih => exact ih
  | nonNullType inner ih => exact ih

/-- Rendering a proper reference finds all the children it needs. -/
lemma Proper.render_ne {t : TypeRef} (h : t.Proper) (kind : Kind) :
    t.render ≠ .error (.missingRequiredChild kind) := by
  induction t with
  | name value => simp [render]
  | namedType child =>
    cases child with
    | name value => simp [render]
    | _ => cases h
  | listType item ih =>
    have hitem := ih h
    rw [render]
    cases hrender : item.render with
    | ok rendered => simp
    | error e =>
      intro heq
      exact hitem (hrender.trans (congrArg _ (Except.error.inj heq)))
  | nonNullType inner ih =>
    have hinner := ih h
    rw [render]
    cases hrender : inner.render with
    | ok rendered => cases hdrop : dropNullMark? rendered <;> simp [hdrop]
    | error e =>
      intro heq
      exact hinner (hrender.trans (congrArg _ (Except.error.inj heq)))

end TypeRef

/-! ## The parts of a document, at every depth -/

namespace Selection.Head

variable {head : Selection.Head}

/-- The arguments in a head. -/
def arguments : Selection.Head → List Argument
  | .field f => f.args.getD []
  | _ => []

/-- The arguments in a proper head are proper. -/
lemma Proper.argument (h : head.Proper) {a : Argument} (ha : a ∈ head.arguments) : a.Proper := by
  cases head with
  | field f =>
    obtain ⟨args, hargs, ha⟩ : ∃ args, f.args = some args ∧ a ∈ args := by
      rw [arguments] at ha
      cases hargs : f.args with
      | none => simp [hargs] at ha
      | some args => exact ⟨args, rfl, by simpa [hargs] using ha⟩
    exact h.2 args hargs a ha
  | _ => exact absurd ha List.not_mem_nil

/-- The types in a proper head are proper. -/
lemma Proper.type (h : head.Proper) {t : TypeRef} (ht : t ∈ head.types) : t.Proper := by
  cases head with
  | field f =>
    rcases List.mem_cons.1 ht with rfl | ht
    · exact h.1
    · obtain ⟨a, ha, rfl⟩ := List.mem_map.1 ht
      exact (h.argument ha).2
  | typeCondition type =>
    obtain rfl := List.mem_singleton.1 ht
    exact h
  | fragmentSpread ref isConditional => exact absurd ht List.not_mem_nil
  | booleanCondition ref inverted => exact absurd ht List.not_mem_nil

end Selection.Head

namespace Document

/-- The selection sets of a document, at every depth. -/
def allSets (d : Document) : List SelectionSet := d.selectionSets.flatMap SelectionSet.sets

/-- The arguments in a document, at every depth. -/
def arguments (d : Document) : List Argument :=
  d.selectionSets.flatMap fun set => set.heads.flatMap Selection.Head.arguments

/-- The types in a document: those of its variables, those of fields, arguments and type conditions
at every depth, and those of the fields of its used types. -/
def types (d : Document) : List TypeRef :=
  (d.operations.flatMap fun op => op.declared.map Variable.type) ++
    (d.selectionSets.flatMap fun set => set.heads.flatMap Selection.Head.types) ++
    d.typesUsed.flatMap fun t => (t.fields?.getD []).map SchemaField.type

/-- What is relied on in a document. -/
structure WellFormed (d : Document) : Prop where
  /-- Every type has a bare name beneath every named type in it. -/
  types : ∀ t ∈ d.types, t.Proper
  /-- The enumerations, and they only, have values. -/
  values : ∀ t ∈ d.typesUsed, t.values?.isSome = true ↔ t.kind = .enumType
  /-- The input, interface and object types, and they only, have fields. -/
  fields : ∀ t ∈ d.typesUsed, t.fields?.isSome = true ↔
    t.kind = .inputObjectType ∨ t.kind = .interfaceType ∨ t.kind = .objectType
  /-- No selection set repeats a possible type. -/
  possibleTypes : ∀ set ∈ d.allSets, set.possibleTypes.Nodup
  /-- In the value of an argument every integer has 64 bits, every floating-point number is finite,
  and no object repeats a key. -/
  arguments : ∀ a ∈ d.arguments, a.value.Proper
  /-- Every fragment is bound to its name, and no name is bound twice. -/
  registry : d.registry.WellFormed

/-! ## Documents made of proper lists -/

variable {parts : DocumentParts}

/-- The selection sets of a document made of proper lists are proper. -/
lemma proper_of_mem_selectionSets (h : parts.Proper) {set : SelectionSet}
    (hset : set ∈ parts.document.selectionSets) : set.Proper := by
  rcases List.mem_append.1 hset with hset | hset
  · obtain ⟨op, hop, rfl⟩ := List.mem_map.1 hset
    exact (h.operations op hop).2
  · rw [fragments_document] at hset
    obtain ⟨f, hf, rfl⟩ := List.mem_map.1 hset
    exact h.fragments f hf

/-- The types in a document made of proper lists are proper. -/
lemma proper_of_mem_types (h : parts.Proper) {t : TypeRef} (ht : t ∈ parts.document.types) :
    t.Proper := by
  rcases List.mem_append.1 ht with ht | ht
  · rcases List.mem_append.1 ht with ht | ht
    -- a variable, and a part of a selection
    · obtain ⟨op, hop, ht⟩ := List.mem_flatMap.1 ht
      obtain ⟨v, hv, rfl⟩ := List.mem_map.1 ht
      exact (h.operations op hop).1 v hv
    · obtain ⟨set, hset, ht⟩ := List.mem_flatMap.1 ht
      obtain ⟨head, hhead, ht⟩ := List.mem_flatMap.1 ht
      exact ((proper_of_mem_selectionSets h hset).1 head hhead).type ht
  -- a field of a used type
  · obtain ⟨used, hused, ht⟩ := List.mem_flatMap.1 ht
    obtain ⟨f, hf, rfl⟩ := List.mem_map.1 ht
    cases hfields : used.fields? with
    | none => simp [hfields] at hf
    | some fields =>
      rw [hfields, Option.getD_some] at hf
      exact (h.typesUsed used hused).fieldTypes fields hfields f hf

/-- A document made of proper lists, in which no two fragments have one name, is well formed. -/
lemma wellFormed_of_ofParts (h : parts.Proper) {d : Document} (hd : ofParts parts = .ok d) :
    d.WellFormed := by
  have hregistry : d.registry.WellFormed := by
    rw [registry_of_ofParts hd]
    exact FragmentRegistry.wellFormed_empty.addAll parts.fragments
  obtain ⟨-, rfl⟩ := ofParts_eq_ok_iff.1 hd
  constructor
  case types => exact fun t ht => proper_of_mem_types h ht
  case values => exact fun t ht => (h.typesUsed t ht).values_iff
  case fields => exact fun t ht => (h.typesUsed t ht).fields_iff
  case possibleTypes =>
    intro set hset
    obtain ⟨outer, houter, hset⟩ := List.mem_flatMap.1 hset
    exact (proper_of_mem_selectionSets h houter).2 set hset
  case arguments =>
    intro a ha
    obtain ⟨set, hset, ha⟩ := List.mem_flatMap.1 ha
    obtain ⟨head, hhead, ha⟩ := List.mem_flatMap.1 ha
    exact (((proper_of_mem_selectionSets h hset).1 head hhead).argument ha).1
  case registry => exact hregistry

/-- **Decoded documents are well formed**, whether they are decoded from a text in memory, from a
stream or from a tree, which repeats no key.  So every type in such a document has a name at the
bottom, and is not refused for a missing child when it is rendered.

**Proof sketch.** Reading a text, or a tree that repeats no key, is sound
(`Json.Source.sound_read`, `Json.sound_read`), so that the three lists are proper, and what is made
of them is well formed (`wellFormed_of_ofParts`). -/
theorem wellFormed_of_decoded {d : Document}
    (hd : (∃ supply text, ofText supply text = .ok d) ∨
      ∃ v : Json, v.distinctKeys = true ∧ ofJson v = .ok d) :
    d.WellFormed ∧ ∀ t ∈ d.types, (∃ name, t.innermostName? = some name) ∧
      ∀ kind, t.render ≠ .error (.missingRequiredChild kind) := by
  have hwf : d.WellFormed := by
    rcases hd with ⟨supply, text, hd⟩ | ⟨v, hv, hd⟩
    · obtain ⟨parts, hread, -, hparts⟩ := ofText_eq_ok_iff.1 hd
      exact wellFormed_of_ofParts (Json.Source.sound_read _ _ _ hread) hparts
    · obtain ⟨parts, hread, hparts⟩ := ofJson_eq_ok_iff.1 hd
      exact wellFormed_of_ofParts (Json.sound_read hv _ _ hread) hparts
  refine ⟨hwf, fun t ht => ?_⟩
  have hproper := hwf.types t ht
  exact ⟨TypeRef.proper_iff_innermostName?.1 hproper, hproper.render_ne⟩

/-- An operation with an argument whose value is an object, and a set with two possible types. -/
def reviewOperation : Operation :=
  ⟨"Review", .mutation, "Mutation", "r", "mutation", [],
    ⟨["Mutation"], [.nested (.field ⟨"review", .nonNull (.list (.named "Review")), none, none, none,
      some [⟨"by", .object [("stars", .int (-3)), ("weight", .float ⟨false, 0x3FF8000000000000⟩)],
        .named "ReviewInput"⟩]⟩) ["Short", "Long"] []]⟩⟩

/-- A document with an argument, a used type with fields and an enumeration. -/
def review : Document :=
  ⟨[reviewOperation], ⟨[]⟩,
    [⟨"ReviewInput", .inputObjectType, none, .fields [⟨"stars", .named "Int", none, false⟩]⟩,
      ⟨"Episode", .enumType, none, .values [⟨"JEDI", none, false⟩]⟩]⟩

/-- A payload of `review`, in which one possible type is given twice. -/
def reviewPayload : Json :=
  .obj [
    ("operations", .arr [.arr [.str "Review", .str "mutation", .str "Mutation", .str "r",
      .str "mutation", .arr [], .arr [.arr [.str "Mutation"], .arr [.obj [
        ("kind", .str "Field"), ("name", .str "review"),
        ("typeNode", (TypeRef.nonNull (.list (.named "Review"))).toJson),
        ("args", .arr [.arr [.str "by",
          .obj [("stars", .num (.int (-3))), ("weight", .num (.float ⟨false, 0x3FF8000000000000⟩))],
          (TypeRef.named "ReviewInput").toJson]]),
        ("selectionSet", .arr [.arr [.str "Short", .str "Long", .str "Short"], .arr []])]]]]]),
    ("fragments", .arr []),
    ("typesUsed", .arr [
      .obj [("name", .str "ReviewInput"), ("kind", .str "InputObjectType"), ("fields", .arr [
        .obj [("name", .str "stars"), ("type", (TypeRef.named "Int").toJson)]])],
      .obj [("name", .str "Episode"), ("kind", .str "EnumType"), ("values", .arr [
        .obj [("name", .str "JEDI")]])]])]

/-- `wellFormed_of_decoded` where every condition has something to say. -/
theorem wellFormed_review :
    reviewPayload.distinctKeys = true ∧ ofJson reviewPayload = .ok review ∧ review.WellFormed ∧
      ∀ t ∈ review.types, (∃ name, t.innermostName? = some name) ∧
        ∀ kind, t.render ≠ .error (.missingRequiredChild kind) := by
  have hkeys : reviewPayload.distinctKeys = true := by rfl
  have hd : ofJson reviewPayload = .ok review := by rfl
  exact ⟨hkeys, hd, wellFormed_of_decoded (Or.inr ⟨_, hkeys, hd⟩)⟩

end Document

end QueryPayload
