import Mathlib.Tactic.Lemma
import QueryPayload.Proofs.Document.Reachability
import QueryPayload.Proofs.Report.Checks
import QueryPayload.Proofs.Report.Nodes
import QueryPayload.TypeRef.Json

/-!
# Documents without violations

The checks of a document look at every definition by itself.  What is done with a document later
follows spreads from one definition to the next, takes texts of types and writes outlines; this
module shows that none of it fails where the checks have found nothing.

## Main definitions

* `Document.Usable` — everything that is later asked of a document has an answer.
* `SelectionSet.Passes` — nothing fails that a selection set is checked for.

## Main results

* `LoadedFile.usable_of_errors_eq_nil` — a decoded document without errors is usable.
-/

set_option relaxedAutoImplicit false
set_option autoImplicit false

namespace QueryPayload

/-! ## What is asked of a document -/

/-- The types in a head: those of a field and of its arguments, or the one of a type condition. -/
def Selection.Head.types : Selection.Head → List TypeRef
  | .field f => f.type :: (f.args.getD []).map Argument.type
  | .typeCondition type => [type]
  | .fragmentSpread .. => []
  | .booleanCondition .. => []

namespace Document

/-- The selection sets of the operations and of the fragments. -/
def selectionSets (d : Document) : List SelectionSet :=
  d.operations.map Operation.selectionSet ++ d.registry.fragments.map Fragment.selectionSet

/-- Everything that is asked of a document has an answer. -/
structure Usable (d : Document) : Prop where
  /-- Every operation has a closure. -/
  closure : ∀ op ∈ d.operations, ∃ fs, d.referencedFragments op = .ok fs
  /-- Every operation has a full source. -/
  source : ∀ op ∈ d.operations, ∃ text, d.sourceWithFragments op = .ok text
  /-- Every spread, at any depth, finds its fragment. -/
  spread : ∀ set ∈ d.selectionSets, ∀ ref isConditional,
    .fragmentSpread ref isConditional ∈ set.heads → ∃ f, ref.deref d.registry = .ok f
  /-- Every condition of an operation, at any depth, finds its variable. -/
  condition : ∀ op ∈ d.operations, ∀ ref inverted,
    .booleanCondition ref inverted ∈ op.selectionSet.heads → ∃ v, ref.deref op.declared = .ok v
  /-- The type of every variable has a text. -/
  variableType : ∀ op ∈ d.operations, ∀ v ∈ op.declared, ∃ text, v.type.render = .ok text
  /-- The type of every field, argument and type condition, at any depth, has a text. -/
  selectionType : ∀ set ∈ d.selectionSets, ∀ head ∈ set.heads, ∀ t ∈ head.types,
    ∃ text, t.render = .ok text
  /-- The type of every field of a used type has a text. -/
  fieldType : ∀ t ∈ d.typesUsed, ∀ fields, t.members = .fields fields →
    ∀ f ∈ fields, ∃ text, f.type.render = .ok text
  /-- The outline consists of the lines of nodes, in none of which something stands in for a
  type. -/
  outline : ∀ o : Outline, o.document d = o.write (d.nodes o.depth) ∧
    ∀ n ∈ d.nodes o.depth, n.2.properLabel? = some n.2.label

end Document

/-! ## Types that have a text -/

/-- A type that has a text is rendered as that text. -/
lemma TypeRef.rendered_of_render {t : TypeRef} {text : String} (h : t.render = .ok text) :
    t.rendered = text := by
  rw [rendered, h]

/-- A type that has a text has a name at its bottom. -/
lemma TypeRef.exists_innermostName? {t : TypeRef} {text : String} (h : t.render = .ok text) :
    ∃ name, t.innermostName? = some name := by
  induction t generalizing text with
  | name value => exact ⟨value, rfl⟩
  | namedType child =>
    cases child with
    | name value => exact ⟨value, rfl⟩
    | _ => cases h
  | listType item ih =>
    cases hitem : item.render with
    | ok inner => exact ih hitem
    | error e => simp [render, hitem] at h
  | nonNullType inner ih =>
    cases hinner : inner.render with
    | ok rendered => exact ih hinner
    | error e => simp [render, hinner] at h

/-! ## Selection sets without violations -/

/-- Nothing fails that a selection set is checked for. -/
def SelectionSet.Passes (registry : FragmentRegistry) (declared : Option (List Variable))
    (set : SelectionSet) : Prop :=
  ∀ head ∈ set.heads, ∀ c ∈ head.checks declared, ¬ c.Fails registry

/-- The check of a type passes exactly if it has a text. -/
lemma Check.not_type_fails_iff {registry : FragmentRegistry} {part : TypedPart} {t : TypeRef} :
    ¬ (Check.type part t).Fails registry ↔ ∃ text, t.render = .ok text := by
  simp [Fails]

namespace SelectionSet.Passes

variable {registry : FragmentRegistry} {declared : Option (List Variable)} {set : SelectionSet}

/-- The names that a set spreads are bound. -/
lemma mem_keys (h : set.Passes registry declared) {name : String} (hn : name ∈ set.spreadNames) :
    name ∈ registry.keys := by
  obtain ⟨head, hhead, hname⟩ := mem_spreadNames_iff.1 hn
  have hpass := h head hhead _ (Selection.Head.spread_mem_checks_iff.2 hname)
  exact not_not.1 hpass

/-- A spread finds its fragment. -/
lemma spread (h : set.Passes registry declared) {ref : FragmentRef} {isConditional : Option Bool}
    (hhead : .fragmentSpread ref isConditional ∈ set.heads) :
    ∃ f, ref.deref registry = .ok f :=
  FragmentRef.exists_deref_iff.2 (h.mem_keys (mem_spreadNames_iff.2 ⟨_, hhead, rfl⟩))

/-- A condition finds its variable among those declared. -/
lemma condition {vs : List Variable} (h : set.Passes registry (some vs)) {ref : VariableRef}
    {inverted : Bool} (hhead : .booleanCondition ref inverted ∈ set.heads) :
    ∃ v, ref.deref vs = .ok v := by
  have hpass := h _ hhead (.condition ref.name vs) (by simp [Selection.Head.checks])
  rw [VariableRef.exists_deref_iff]
  simpa [Check.Fails] using hpass

/-- The types in a set have texts. -/
lemma type (h : set.Passes registry declared) {head : Selection.Head} (hhead : head ∈ set.heads)
    {t : TypeRef} (ht : t ∈ head.types) : ∃ text, t.render = .ok text := by
  have hpass := h head hhead
  cases head with
  | field f =>
    rcases List.mem_cons.1 ht with rfl | ht
    · exact Check.not_type_fails_iff.1 (hpass _ List.mem_cons_self)
    · obtain ⟨a, ha, rfl⟩ := List.mem_map.1 ht
      exact Check.not_type_fails_iff.1
        (hpass _ (List.mem_cons_of_mem _ (List.mem_map_of_mem ha)))
  | typeCondition type =>
    obtain rfl := List.mem_singleton.1 ht
    exact Check.not_type_fails_iff.1 (hpass _ List.mem_cons_self)
  | fragmentSpread ref isConditional => exact absurd ht List.not_mem_nil
  | booleanCondition ref inverted => exact absurd ht List.not_mem_nil

/-- Nothing stands in for a type in the line of a selection. -/
lemma properLabel? (h : set.Passes registry declared) {head : Selection.Head}
    (hhead : head ∈ set.heads) :
    (Node.selection head).properLabel? = some (Node.selection head).label := by
  cases head with
  | field f =>
    obtain ⟨text, htext⟩ := h.type hhead (t := f.type) List.mem_cons_self
    simp [Node.properLabel?, Node.label, Selection.Head.label, Selection.Field.label, htext,
      TypeRef.rendered_of_render htext, Except.toOption]
  | typeCondition type =>
    obtain ⟨text, htext⟩ := h.type hhead (t := type) List.mem_cons_self
    obtain ⟨name, hname⟩ := TypeRef.exists_innermostName? htext
    simp [Node.properLabel?, Node.label, Selection.Head.label, hname]
  | fragmentSpread ref isConditional => rfl
  | booleanCondition ref inverted => rfl

end SelectionSet.Passes

/-! ## Documents without violations -/

namespace Document

variable {d : Document}

/-- The checks of an operation are among those of its document. -/
lemma mem_checks_of_operation {op : Operation} (hop : op ∈ d.operations) {c : Check}
    (hc : c ∈ op.checks) : (.operation op.name, c) ∈ d.checks :=
  List.mem_append_left _ <| List.mem_append_left _ <|
    List.mem_flatMap.2 ⟨op, hop, List.mem_map_of_mem hc⟩

/-- The checks of a fragment are among those of its document. -/
lemma mem_checks_of_fragment {f : Fragment} (hf : f ∈ d.registry.fragments) {c : Check}
    (hc : c ∈ f.checks) : (.fragment f.name, c) ∈ d.checks :=
  List.mem_append_left _ <| List.mem_append_right _ <|
    List.mem_flatMap.2 ⟨f, hf, List.mem_map_of_mem hc⟩

/-- The checks of a used type are among those of its document. -/
lemma mem_checks_of_usedType {t : UsedType} (ht : t ∈ d.typesUsed) {c : Check}
    (hc : c ∈ t.checks) : (.usedType t.name, c) ∈ d.checks :=
  List.mem_append_right _ <| List.mem_flatMap.2 ⟨t, ht, List.mem_map_of_mem hc⟩

section Checked

variable (h : ∀ p ∈ d.checks, ¬ p.2.Fails d.registry)
include h

/-- The selections of an operation pass, its conditions included. -/
lemma passes_operation {op : Operation} (hop : op ∈ d.operations) :
    op.selectionSet.Passes d.registry (some op.declared) := by
  intro head hhead c hc
  have hmem : c ∈ op.checks := List.mem_append_right _ (List.mem_flatMap.2 ⟨head, hhead, hc⟩)
  exact h _ (mem_checks_of_operation hop hmem)

/-- The selections of a fragment pass. -/
lemma passes_fragment {f : Fragment} (hf : f ∈ d.registry.fragments) :
    f.selectionSet.Passes d.registry none := by
  intro head hhead c hc
  exact h _ (mem_checks_of_fragment hf (List.mem_flatMap.2 ⟨head, hhead, hc⟩))

/-- The selections of a definition pass, apart from conditions. -/
lemma exists_passes {set : SelectionSet} (hset : set ∈ d.selectionSets) :
    ∃ declared, set.Passes d.registry declared := by
  rcases List.mem_append.1 hset with hset | hset
  · obtain ⟨op, hop, rfl⟩ := List.mem_map.1 hset
    exact ⟨_, passes_operation h hop⟩
  · obtain ⟨f, hf, rfl⟩ := List.mem_map.1 hset
    exact ⟨_, passes_fragment h hf⟩

/-- Every name that is reached from an operation is bound: those it spreads since the operation
has been checked, and those that a fragment spreads since the fragment has been. -/
lemma mem_keys_of_reachable {op : Operation} (hop : op ∈ d.operations) {name : String}
    (hre : d.Reachable op name) : name ∈ d.registry.keys := by
  cases hre with
  | direct hname => exact (passes_operation h hop).mem_keys hname
  | through hf _ hname => exact (passes_fragment h hf).mem_keys hname

/-- The type of a variable has a text. -/
lemma exists_render_variable {op : Operation} (hop : op ∈ d.operations) {v : Variable}
    (hv : v ∈ op.declared) : ∃ text, v.type.render = .ok text := by
  have hmem : .type (.variable v.name) v.type ∈ op.checks :=
    List.mem_append_left _ (List.mem_map.2 ⟨v, hv, rfl⟩)
  exact Check.not_type_fails_iff.1 (h _ (mem_checks_of_operation hop hmem))

/-- The type of a field of a used type has a text. -/
lemma exists_render_field {t : UsedType} (ht : t ∈ d.typesUsed) {fields : List SchemaField}
    (hfields : t.members = .fields fields) {f : SchemaField} (hf : f ∈ fields) :
    ∃ text, f.type.render = .ok text := by
  have hmem : .type (.field f.name) f.type ∈ t.checks := by
    rw [UsedType.checks, hfields]
    exact List.mem_map.2 ⟨f, hf, rfl⟩
  exact Check.not_type_fails_iff.1 (h _ (mem_checks_of_usedType ht hmem))

/-- Nothing stands in for a type in the lines of selections. -/
lemma properLabel?_of_mem_nodesAll {set : SelectionSet} (hset : set ∈ d.selectionSets)
    {depth : Nat} {n : Nat × Node} (hn : n ∈ Selection.nodesAll depth set.selections) :
    n.2.properLabel? = some n.2.label := by
  obtain ⟨declared, hpass⟩ := exists_passes h hset
  have hmem : n.2 ∈ (Selection.nodesAll depth set.selections).map (·.2) :=
    List.mem_map_of_mem hn
  rw [Selection.map_snd_nodesAll] at hmem
  obtain ⟨head, hhead, heq⟩ := List.mem_map.1 hmem
  rw [← heq]
  exact hpass.properLabel? hhead

/-- Nothing stands in for a type in the lines of a document. -/
lemma properLabel?_of_mem_nodes {depth : Nat} {n : Nat × Node} (hn : n ∈ d.nodes depth) :
    n.2.properLabel? = some n.2.label := by
  simp only [nodes, List.mem_append, List.mem_flatMap] at hn
  rcases hn with (⟨op, hop, hn⟩ | ⟨f, hf, hn⟩) | ⟨t, ht, hn⟩
  · rcases List.mem_cons.1 hn with rfl | hn
    · rfl
    rcases List.mem_append.1 hn with hn | hn
    · obtain ⟨v, hv, rfl⟩ := List.mem_map.1 hn
      obtain ⟨text, htext⟩ := exists_render_variable h hop hv
      simp [Node.properLabel?, Node.label, Variable.label, htext,
        TypeRef.rendered_of_render htext, Except.toOption]
    · exact properLabel?_of_mem_nodesAll h
        (List.mem_append_left _ (List.mem_map_of_mem hop)) hn
  · rcases List.mem_cons.1 hn with rfl | hn
    · rfl
    · exact properLabel?_of_mem_nodesAll h
        (List.mem_append_right _ (List.mem_map_of_mem hf)) hn
  · rcases List.mem_cons.1 hn with rfl | hn
    · rfl
    cases hmembers : t.members with
    | fields fields =>
      rw [hmembers] at hn
      obtain ⟨f, hf, rfl⟩ := List.mem_map.1 hn
      obtain ⟨text, htext⟩ := exists_render_field h ht hmembers hf
      simp [Node.properLabel?, Node.label, SchemaField.label, htext,
        TypeRef.rendered_of_render htext, Except.toOption]
    | values values =>
      rw [hmembers] at hn
      obtain ⟨v, hv, rfl⟩ := List.mem_map.1 hn
      rfl
    | neither =>
      rw [hmembers] at hn
      cases hn

end Checked

end Document

/-- **A document without errors is usable.**  Where checking a decoded document reports nothing,
every operation has a closure and a full source, every spread finds its fragment and every condition
of an operation its variable, every type has a text, and nothing stands in for a type in the
outline.

**Proof sketch.** There are no errors exactly if no check fails (`errors_eq_nil_iff`), so that the
selections of every definition pass.  A reachable name is spread by an operation or by a fragment
of the document, each of which has been checked, and is therefore bound; by
`exists_referencedFragments_iff` there is a closure.  The lines of the outline are those of its
nodes (`Outline.document_eq_write`), and each node with a type has been checked. -/
theorem LoadedFile.usable_of_errors_eq_nil {path : String} {d : Document} (hd : d.Decoded)
    (herrors : (⟨path, .ok d⟩ : LoadedFile).errors = []) : d.Usable := by
  have h := (errors_eq_nil_iff path d).1 herrors
  have hclosure : ∀ op ∈ d.operations, ∃ fs, d.referencedFragments op = .ok fs :=
    fun op hop => (Document.exists_referencedFragments_iff hd.registry_wellFormed).2
      fun name hre => Document.mem_keys_of_reachable h hop hre
  constructor
  case closure => exact hclosure
  case source =>
    intro op hop
    exact Document.exists_sourceWithFragments_iff.2 (hclosure op hop)
  case spread =>
    intro set hset ref isConditional hhead
    obtain ⟨declared, hpass⟩ := Document.exists_passes h hset
    exact hpass.spread hhead
  case condition =>
    intro op hop ref inverted hhead
    exact (Document.passes_operation h hop).condition hhead
  case variableType =>
    intro op hop v hv
    exact Document.exists_render_variable h hop hv
  case selectionType =>
    intro set hset head hhead t ht
    obtain ⟨declared, hpass⟩ := Document.exists_passes h hset
    exact hpass.type hhead ht
  case fieldType =>
    intro t ht fields hfields f hf
    exact Document.exists_render_field h ht hfields hf
  case outline =>
    intro o
    exact ⟨Outline.document_eq_write o d, fun n hn => Document.properLabel?_of_mem_nodes h hn⟩

namespace Document

/-- An operation that spreads a fragment on the condition that a variable is true. -/
def conditionalOperation : Operation :=
  ⟨"Q", .query, "Query", "q", "query", [⟨"withHero", .nonNullNamed "Boolean"⟩],
    ⟨[], [.nested (.booleanCondition ⟨"withHero"⟩ false) []
      [.leaf (.fragmentSpread ⟨"Hero"⟩ none)]]⟩⟩

/-- A document in which every reference finds something and every type has a text. -/
def conditional : Document :=
  ⟨[conditionalOperation],
    ⟨[("Hero", ⟨"Hero", "h", "fragment Hero",
      ⟨[], [.leaf (.field ⟨"hero", .named "Hero", none, none, none, none⟩)]⟩⟩)]⟩,
    [⟨"Query", .objectType, none, .fields [⟨"hero", .named "Hero", none, false⟩]⟩]⟩

/-- The payload of `conditional`, with every record that may be one as an array of its fields. -/
def conditionalPayload : Json :=
  .arr [
    .arr [.arr [.str "Q", .str "query", .str "Query", .str "q", .str "query",
      .arr [.arr [.str "withHero", (TypeRef.nonNullNamed "Boolean").toJson]],
      .arr [.arr [], .arr [.obj [("kind", .str "BooleanCondition"),
        ("variableName", .str "withHero"), ("inverted", .bool false),
        ("selectionSet", spreadingPayload ["Hero"])]]]]],
    .arr [.arr [.str "Hero", .str "h", .str "fragment Hero",
      .arr [.arr [], .arr [.obj [("kind", .str "Field"), ("name", .str "hero"),
        ("typeNode", (TypeRef.named "Hero").toJson)]]]]],
    .arr [.arr [.str "Query", .str "ObjectType", .null,
      .arr [.arr [.str "hero", (TypeRef.named "Hero").toJson, .null]]]]]

/-- `LoadedFile.usable_of_errors_eq_nil` where a spread stands beneath a condition. -/
theorem usable_conditional :
    conditional.Decoded ∧ (⟨"q.json", .ok conditional⟩ : LoadedFile).errors = [] ∧
      conditional.Usable := by
  have hd : conditional.Decoded := .ofJson conditionalPayload (by rfl)
  have herrors : (⟨"q.json", .ok conditional⟩ : LoadedFile).errors = [] := by rfl
  exact ⟨hd, herrors, LoadedFile.usable_of_errors_eq_nil hd herrors⟩

end Document

end QueryPayload
