import Mathlib.Tactic.Lemma
import QueryPayload.Proofs.Report.Nodes
import QueryPayload.Proofs.Text.Lines
import QueryPayload.Proofs.TypeRef.Texts

/-!
# The lines of an outline

The outline of a document is read line by line.  What a line shows as it is in the document are
names, paths and keys; everything else is written so that it does not end the line.  So where those
do not, there is exactly one line for each node.

## Main definitions

* `Node.words` — what the line of a node shows as it is.
* `Document.words` — what the outline of a document shows as it is.

## Main results

* `Node.oneLine_label` — a node whose words do not end the line has its label on one line.
* `Outline.document_lines` — the lines of the outline are those of the nodes.
-/

set_option relaxedAutoImplicit false
set_option autoImplicit false

namespace QueryPayload

open Text

/-! ## Words -/

/-- The name at the bottom of a type, whatever is around it. -/
def TypeRef.bottomName : TypeRef → String
  | .name value => value
  | .namedType child => child.bottomName
  | .listType item => item.bottomName
  | .nonNullType inner => inner.bottomName

namespace ArgumentValue

mutual

/-- The keys of all objects in a value. -/
def keys : ArgumentValue → List String
  | .list items => itemKeys items
  | .object entries => entryKeys entries
  | _ => []

/-- The keys of all objects in the items of a list. -/
def itemKeys : List ArgumentValue → List String
  | [] => []
  | a :: as => keys a ++ itemKeys as

/-- The keys of an object and of all objects in its values. -/
def entryKeys : List (String × ArgumentValue) → List String
  | [] => []
  | (k, a) :: es => k :: (keys a ++ entryKeys es)

end

end ArgumentValue

/-- The words of an argument: its name, and the keys in its value. -/
def Argument.words (a : Argument) : List String := a.name :: a.value.keys

/-- The words of a field: its names, those of its arguments, and that of its type. -/
def Selection.Field.words (f : Selection.Field) : List String :=
  f.name :: f.selectedName :: f.type.bottomName :: (f.args.getD []).flatMap Argument.words

/-- The words of a node: the names, paths and keys that its line shows as they are. -/
def Node.words : Node → List String
  | .operation op => [op.name, op.rootType]
  | .variable v => [v.name, v.type.bottomName]
  | .selection (.field f) => f.words
  | .selection (.fragmentSpread ref _) => [ref.name]
  | .selection (.typeCondition type) => [type.bottomName]
  | .selection (.booleanCondition variableRef _) => [variableRef.name]
  | .fragment f => [f.name, f.filePath]
  | .usedType t => [t.name]
  | .field f => [f.name, f.type.bottomName]
  | .value v => [v.name]

/-- The words of a document: those of its nodes. -/
def Document.words (d : Document) : List String := (d.nodes 0).flatMap fun n => n.2.words

/-! ## Types -/

namespace TypeRef

variable {t : TypeRef}

/-- The text of a type, or what is wrong with it, is on one line if its name is. -/
lemma oneLine_of_render (h : OneLine t.bottomName) :
    (∀ text, t.render = .ok text → OneLine text) ∧
      ∀ e, t.render = .error e → OneLine e.message := by
  fun_induction render t with
  | case1 value => exact ⟨fun text ht => Except.ok.inj ht ▸ h, nofun⟩
  | case2 value =>
    refine ⟨fun text ht => ?_, nofun⟩
    obtain rfl := Except.ok.inj ht
    exact OneLine.append h (by decide)
  | case3 child hchild =>
    refine ⟨nofun, fun e he => ?_⟩
    obtain rfl := Except.error.inj he
    decide
  | case4 item rendered hrender ih =>
    refine ⟨fun text ht => ?_, nofun⟩
    obtain rfl := Except.ok.inj ht
    have hrendered := (ih h).1 rendered hrender
    exact (OneLine.append (by decide) hrendered).append (by decide)
  | case5 item e hrender ih =>
    refine ⟨nofun, fun e' he => ?_⟩
    obtain rfl := Except.error.inj he
    exact (ih h).2 e hrender
  | case6 inner rendered hrender bare hdrop ih =>
    refine ⟨fun text ht => ?_, nofun⟩
    obtain rfl := Except.ok.inj ht
    have hrendered := (ih h).1 rendered hrender
    rw [dropNullMark?_eq_some_iff.1 hdrop] at hrendered
    exact (oneLine_append_iff.1 hrendered).1
  | case7 inner rendered hrender hdrop ih =>
    refine ⟨nofun, fun e he => ?_⟩
    obtain rfl := Except.error.inj he
    have hrendered := (ih h).1 rendered hrender
    exact (OneLine.append (by decide) hrendered).append (by decide)
  | case8 inner e hrender ih =>
    refine ⟨nofun, fun e' he => ?_⟩
    obtain rfl := Except.error.inj he
    exact (ih h).2 e hrender

/-- What is shown of a type is on one line if its name is. -/
lemma oneLine_rendered (h : OneLine t.bottomName) : OneLine t.rendered := by
  obtain ⟨htext, herror⟩ := oneLine_of_render h
  rw [rendered]
  cases hrender : t.render with
  | ok text => exact htext text hrender
  | error e =>
    exact (OneLine.append (by decide) (herror e hrender)).append (by decide)

/-- The innermost name of a type is the one at its bottom. -/
lemma bottomName_of_innermostName? {name : String} (h : t.innermostName? = some name) :
    t.bottomName = name := by
  fun_induction innermostName? t with
  | case1 value => exact Option.some.inj h
  | case2 value => exact Option.some.inj h
  | case3 => cases h
  | case4 item ih => exact ih h
  | case5 inner ih => exact ih h

end TypeRef

/-! ## Values -/

/-- The digits before and behind the point of a decimal do not contain the end of a line. -/
lemma Decimal.not_mem_positional (d : Decimal) :
    '\n' ∉ d.positional.1 ∧ '\n' ∉ d.positional.2 := by
  have hdigits : '\n' ∉ d.digitChars := not_mem_toDigits (by decide) d.digits
  have hzeros : ∀ n, '\n' ∉ List.replicate n '0' := fun n h =>
    absurd (List.eq_of_mem_replicate h) (by decide)
  rw [positional]
  cases d.exponent with
  | ofNat n => exact ⟨fun h => (List.mem_append.1 h).elim hdigits (hzeros n), List.not_mem_nil⟩
  | negSucc n =>
    simp only [List.splitAt_eq]
    have hpadded : '\n' ∉ List.replicate (n + 2 - d.digitChars.length) '0' ++ d.digitChars :=
      fun h => (List.mem_append.1 h).elim (hzeros _) hdigits
    exact ⟨fun h => hpadded (List.mem_of_mem_take h), fun h => hpadded (List.mem_of_mem_drop h)⟩

/-- A number that is written out is on one line. -/
lemma Binary64.oneLine_plainText (x : Binary64) : OneLine x.plainText := by
  rw [plainText]
  split
  · decide
  · split
    · obtain ⟨hwhole, hpart⟩ := (x.shortest .up).not_mem_positional
      have hsign : '\n' ∉ (x.shortest .up).signChars := by
        rw [Decimal.signChars]
        split <;> decide
      rw [oneLine_ofList, List.mem_append, List.mem_append, not_or, not_or]
      refine ⟨⟨hsign, hwhole⟩, ?_⟩
      split
      · exact List.not_mem_nil
      · exact fun h => (List.mem_cons.1 h).elim (by decide) hpart
    · split <;> decide

/-- An integer is on one line. -/
lemma oneLine_toString (n : Int) : OneLine (toString n) := by
  have hrepr : ∀ m : Nat, OneLine m.repr := fun m => by
    rw [OneLine, Nat.toList_repr]
    exact not_mem_toDigits (by decide) m
  rw [Int.toString_eq_repr, Int.repr_eq_if]
  split
  · exact hrepr _
  · exact OneLine.append (by decide) (hrepr _)

namespace ArgumentValue

mutual

/-- A value is on one line if the keys in it are. -/
theorem oneLine_display : (a : ArgumentValue) → (∀ k ∈ a.keys, OneLine k) → OneLine a.display
  | .null, _ => by decide
  | .bool true, _ => by decide
  | .bool false, _ => by decide
  | .int n, _ => oneLine_toString n
  | .float x, _ => x.oneLine_plainText
  | .string s, _ => oneLine_quoted s
  | .list items, h => by
    have hcomma : OneLine ", " := by decide
    have hitems := oneLine_intercalate hcomma (oneLine_displayItems items h)
    exact (OneLine.append (by decide) hitems).append (by decide)
  | .object entries, h => by
    have hcomma : OneLine ", " := by decide
    have hentries := oneLine_intercalate hcomma (oneLine_displayEntries entries h)
    exact (OneLine.append (by decide) hentries).append (by decide)

/-- The items of a list are on one line if the keys in them are. -/
theorem oneLine_displayItems : (items : List ArgumentValue) → (∀ k ∈ itemKeys items, OneLine k) →
    ∀ text ∈ displayItems items, OneLine text
  | [], _ => fun _ hmem => absurd hmem List.not_mem_nil
  | a :: as, h => by
    obtain ⟨ha, has⟩ := List.forall_mem_append.1 h
    exact List.forall_mem_cons.2 ⟨oneLine_display a ha, oneLine_displayItems as has⟩

/-- The entries of an object are on one line if the keys in them are. -/
theorem oneLine_displayEntries : (entries : List (String × ArgumentValue)) →
    (∀ k ∈ entryKeys entries, OneLine k) → ∀ text ∈ displayEntries entries, OneLine text
  | [], _ => fun _ hmem => absurd hmem List.not_mem_nil
  | (k, a) :: es, h => by
    obtain ⟨hk, hrest⟩ := List.forall_mem_cons.1 h
    obtain ⟨ha, hes⟩ := List.forall_mem_append.1 hrest
    refine List.forall_mem_cons.2 ⟨?_, oneLine_displayEntries es hes⟩
    exact (OneLine.append hk (by decide)).append (oneLine_display a ha)

end

end ArgumentValue

/-! ## Labels -/

/-- An argument is on one line if its words are. -/
lemma Argument.oneLine_label {a : Argument} (h : ∀ w ∈ a.words, OneLine w) : OneLine a.label := by
  obtain ⟨hname, hkeys⟩ := List.forall_mem_cons.1 h
  exact (hname.append (by decide)).append (a.value.oneLine_display hkeys)

/-- The arguments of a field are on one line if the words of each are. -/
lemma Argument.oneLine_listing {args : List Argument}
    (h : ∀ w ∈ args.flatMap Argument.words, OneLine w) : OneLine (Argument.listing args) := by
  cases args with
  | nil => exact (by decide : OneLine "")
  | cons a args =>
    have hcomma : OneLine ", " := by decide
    have hlabels : ∀ text ∈ (a :: args).map Argument.label, OneLine text := by
      refine List.forall_mem_map.2 fun b hb => oneLine_label fun w hw => ?_
      exact h w (List.mem_flatMap.2 ⟨b, hb, hw⟩)
    exact (OneLine.append (by decide) (oneLine_intercalate hcomma hlabels)).append (by decide)

/-- A field is on one line if its words are. -/
lemma Selection.Field.oneLine_label {f : Selection.Field} (h : ∀ w ∈ f.words, OneLine w) :
    OneLine f.label := by
  obtain ⟨hname, hrest⟩ := List.forall_mem_cons.1 h
  obtain ⟨hselected, hrest⟩ := List.forall_mem_cons.1 hrest
  obtain ⟨htype, hargs⟩ := List.forall_mem_cons.1 hrest
  have halias : OneLine (if f.selectedName = f.name then "" else f.selectedName ++ ": ") := by
    split
    · decide
    · exact hselected.append (by decide)
  have hlisting := Argument.oneLine_listing hargs
  exact (((halias.append hname).append hlisting).append (by decide)).append
    (TypeRef.oneLine_rendered htype)

namespace Node

/-- **The label of a node is on one line** if its words are. -/
theorem oneLine_label : (node : Node) → (∀ w ∈ node.words, OneLine w) → OneLine node.label
  | .operation op, h => by
    obtain ⟨hname, hrest⟩ := List.forall_mem_cons.1 h
    have hroot := List.forall_mem_singleton.1 hrest
    have hkind : OneLine op.kind.spelling := by
      cases op.kind <;> decide
    exact ((((hkind.append (by decide)).append hname).append (by decide)).append hroot).append
      (by decide)
  | .variable v, h => by
    obtain ⟨hname, hrest⟩ := List.forall_mem_cons.1 h
    have htype := TypeRef.oneLine_rendered (List.forall_mem_singleton.1 hrest)
    exact ((OneLine.append (by decide) hname).append (by decide)).append htype
  | .selection (.field f), h => Selection.Field.oneLine_label h
  | .selection (.fragmentSpread ref _), h =>
    OneLine.append (by decide) (List.forall_mem_singleton.1 h)
  | .selection (.typeCondition type), h => by
    refine OneLine.append (by decide) ?_
    cases hname : type.innermostName? with
    | none => exact (by decide : OneLine "<unnamed>")
    | some name =>
      have hbottom := List.forall_mem_singleton.1 h
      rwa [TypeRef.bottomName_of_innermostName? hname] at hbottom
  | .selection (.booleanCondition variableRef inverted), h => by
    have hdirective : OneLine (if inverted then "skip" else "include") := by
      cases inverted <;> decide
    have hname := List.forall_mem_singleton.1 h
    exact (((OneLine.append (by decide) hdirective).append (by decide)).append hname).append
      (by decide)
  | .fragment f, h => by
    obtain ⟨hname, hrest⟩ := List.forall_mem_cons.1 h
    have hpath := List.forall_mem_singleton.1 hrest
    exact (((OneLine.append (by decide) hname).append (by decide)).append hpath).append (by decide)
  | .usedType t, h => by
    have hkind : OneLine t.kind.spelling := by
      cases t.kind <;> decide
    exact (hkind.append (by decide)).append (List.forall_mem_singleton.1 h)
  | .field f, h => by
    obtain ⟨hname, hrest⟩ := List.forall_mem_cons.1 h
    have htype := TypeRef.oneLine_rendered (List.forall_mem_singleton.1 hrest)
    exact (hname.append (by decide)).append htype
  | .value _, h => List.forall_mem_singleton.1 h

end Node

/-! ## Lines -/

mutual

/-- The nodes of a selection are found deeper if they are looked for from a greater depth. -/
theorem Selection.nodes_add (n depth : Nat) :
    (s : Selection) → s.nodes (n + depth) = (s.nodes depth).map fun node => (n + node.1, node.2)
  | .leaf _ => rfl
  | .nested head _ selections => by
    rw [nodes, nodes, List.map_cons, Nat.add_assoc, nodesAll_add n (depth + 1) selections]

/-- The nodes of some selections are found deeper if they are looked for from a greater depth. -/
theorem Selection.nodesAll_add (n depth : Nat) :
    (ss : List Selection) →
      nodesAll (n + depth) ss = (nodesAll depth ss).map fun node => (n + node.1, node.2)
  | [] => rfl
  | s :: ss => by
    rw [nodesAll, nodesAll, List.map_append, nodes_add n depth s, nodesAll_add n depth ss]

end

/-- The nodes of a document at a depth are its nodes, each that much deeper. -/
lemma Document.nodes_eq_map (n : Nat) (d : Document) :
    d.nodes n = (d.nodes 0).map fun node => (n + node.1, node.2) := by
  have hselections := fun ss => Selection.nodesAll_add n 1 ss
  have hoperation : ∀ op : Operation,
      op.nodes n = (op.nodes 0).map fun node => (n + node.1, node.2) := fun op => by
    simp [Operation.nodes, hselections, Function.comp_def]
  have hfragment : ∀ f : Fragment,
      f.nodes n = (f.nodes 0).map fun node => (n + node.1, node.2) := fun f => by
    simp [Fragment.nodes, hselections]
  have htype : ∀ t : UsedType,
      t.nodes n = (t.nodes 0).map fun node => (n + node.1, node.2) := fun t => by
    obtain ⟨name, kind, description, fs | vs | _⟩ := t <;>
      simp [UsedType.nodes, UsedType.Members.nodes, Function.comp_def]
  rw [nodes, nodes, funext hoperation, funext hfragment, funext htype]
  simp only [List.map_append, List.map_flatMap]

namespace Outline

/-- An indentation consists of two blanks for each level. -/
lemma indentation_eq (depth : Nat) :
    indentation depth = String.ofList (List.replicate (2 * depth) ' ') := by
  rw [← String.toList_inj, indentation, String.toList_join, String.toList_ofList]
  induction depth with
  | zero => rfl
  | succ depth ih =>
    rw [List.replicate_succ, List.flatMap_cons, ih, Nat.mul_succ, Nat.add_comm,
      List.replicate_add]
    rfl

/-- The line of a node, `n` levels below the outermost one: two blanks for each level it is nested,
and its label. -/
def lineOf (n : Nat) (node : Nat × Node) : String :=
  String.ofList (List.replicate (2 * (n + node.1)) ' ') ++ node.2.label

/-- The line of a node is on one line if its words are. -/
lemma oneLine_lineOf {n : Nat} {node : Nat × Node} (h : ∀ w ∈ node.2.words, OneLine w) :
    OneLine (lineOf n node) := by
  refine OneLine.append (oneLine_ofList.2 fun hmem => ?_) (node.2.oneLine_label h)
  exact absurd (List.eq_of_mem_replicate hmem) (by decide)

/-- **The outline of a document mirrors it.**  If the names, paths, root types and keys in the
document are each on one line, then what is written is one line for each node, in pre-order: two
blanks for each level outside it, and its label.  The depth is left as it was.

**Proof sketch.** What is written are the lines of the nodes (`document_eq_write`), which are the
same at every depth but for the indentation (`Document.nodes_eq_map`).  None of them contains the
end of a line (`Node.oneLine_label`), so that splitting finds them. -/
theorem document_lines (o : Outline) (d : Document) (h : ∀ w ∈ d.words, OneLine w) :
    (o.document d).depth = o.depth ∧
      ∃ written, (o.document d).text = o.text ++ written ∧
        written = String.join ((d.nodes 0).map fun node => lineOf o.depth node ++ "\n") ∧
        Text.split '\n' written = (d.nodes 0).map (lineOf o.depth) ++ [""] ∧
        written.toList.count '\n' = (d.nodes 0).length := by
  have hlines : ∀ line ∈ (d.nodes 0).map (lineOf o.depth), OneLine line :=
    List.forall_mem_map.2 fun node hnode => oneLine_lineOf fun w hw =>
      h w (List.mem_flatMap.2 ⟨node, hnode, hw⟩)
  have hwritten : String.join ((d.nodes o.depth).map nodeLine) =
      Text.ended ((d.nodes 0).map (lineOf o.depth)) := by
    rw [Document.nodes_eq_map, Text.ended, List.map_map, List.map_map]
    simp only [Function.comp_def, nodeLine, indentation_eq, lineOf]
  rw [document_eq_write]
  refine ⟨rfl, _, congrArg (o.text ++ ·) hwritten, ?_, Text.split_ended hlines, ?_⟩
  · rw [Text.ended, List.map_map]
    rfl
  · rw [Text.count_ended hlines, List.length_map]

/-- A query for a hero, with a line end within a value and a type that has no text. -/
def heroDocument : Document where
  operations :=
    [⟨"Hero", .query, "Query", "hero.graphql", "", [⟨"episode", .nonNullNamed "Episode"⟩],
      ⟨["Query"],
        [.nested (.field ⟨"hero", .named "Character", some "who", none, none,
            some [⟨"filter", .object [("note", .string "a\nb")], .named "Filter"⟩]⟩) ["Droid"]
          [.leaf (.fragmentSpread ⟨"Names"⟩ none)]]⟩⟩]
  registry :=
    ⟨[("Names", ⟨"Names", "names.graphql", "", ⟨["Droid"],
      [.leaf (.field ⟨"name", .nonNull (.name "String"), none, none, none, none⟩)]⟩⟩)]⟩
  typesUsed := [⟨"Episode", .enumType, none, .values [⟨"JEDI", none, false⟩]⟩]

/-- `document_lines` on a query, beginning one level deep. -/
theorem document_lines_hero :
    (∀ w ∈ heroDocument.words, OneLine w) ∧
      (document ⟨1, ""⟩ heroDocument).depth = 1 ∧
      ∃ written, (document ⟨1, ""⟩ heroDocument).text = "" ++ written ∧
        written = String.join ((heroDocument.nodes 0).map fun node => lineOf 1 node ++ "\n") ∧
        Text.split '\n' written = (heroDocument.nodes 0).map (lineOf 1) ++ [""] ∧
        written.toList.count '\n' = (heroDocument.nodes 0).length :=
  ⟨by decide, document_lines ⟨1, ""⟩ heroDocument (by decide)⟩

example :
    let who : Selection := .leaf (.field ⟨"hero", .named "Character", some "who", none, none,
      some [⟨"note", .string "a\nb", .named "String"⟩]⟩)
    let query : Operation := ⟨"Hero", .query, "Query", "", "", [], ⟨[], [who]⟩⟩
    (document ⟨1, ""⟩ ⟨[query], ⟨[]⟩, []⟩).text =
      "  query Hero (root: Query)\n    who: hero(note: \"a\\nb\"): Character?\n" := by
  decide +kernel

end Outline

end QueryPayload
