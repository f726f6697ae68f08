import QueryPayload.Proofs.Report.Checks
import QueryPayload.Proofs.TypeRef.NonNullRuns
import QueryPayload.TypeRef.Json

/-!
# Doubly non-null references

A non-null node around another one, or around a bare name, means nothing: there is no null that it
could take away.  Rendering notices this by the text alone, where such a node finds no `?` to take.
A name that ends in `?` itself can therefore stand in for what is missing, and does; nothing else
can, wherever in a reference the node is.

## Main definitions

* `TypeRef.Occurs` — one reference is another one or a part of it, at any depth.
* `TypeRef.Doubled` — the outermost node is non-null, directly around a non-null node or a bare
  name.
* `TypeRef.Covered` — a run of non-null nodes is around a name with enough `?` of its own.

## Main results

* `TypeRef.exists_render_iff_covered` — a doubled node renders exactly if it is covered.
* `TypeRef.Occurs.exists_render_error` — what has no text leaves none to what it is a part of.
* `TypeRef.doubled_rejected` — doubled nodes that are not covered are rejected, at any depth and
  wherever a document has types.
* `TypeRef.doubled_accepted` — a doubled node that is covered goes through.
-/

set_option relaxedAutoImplicit false
set_option autoImplicit false

namespace QueryPayload

namespace TypeRef

variable {t u : TypeRef}

/-! ## Parts of references -/

/-- The first reference is the second one or a part of it, at any depth. -/
inductive Occurs (u : TypeRef) : TypeRef → Prop where
  | here : Occurs u u
  | namedType {child : TypeRef} (h : Occurs u child) : Occurs u (namedType child)
  | listType {item : TypeRef} (h : Occurs u item) : Occurs u (listType item)
  | nonNullType {inner : TypeRef} (h : Occurs u inner) : Occurs u (nonNullType inner)

namespace Occurs

/-- A part of a part is a part. -/
lemma trans {v : TypeRef} (h : v.Occurs u) (h' : u.Occurs t) : v.Occurs t := by
  induction h' with
  | here => exact h
  | namedType _ ih => exact .namedType ih
  | listType _ ih => exact .listType ih
  | nonNullType _ ih => exact .nonNullType ih

/-- What a run is around is a part of it. -/
lemma iterate (h : u.Occurs t) (n : ℕ) : u.Occurs (TypeRef.nonNullType^[n] t) := by
  induction n with
  | zero => exact h
  | succ n ih =>
    rw [Function.iterate_succ_apply']
    exact .nonNullType ih

/-- What has no text leaves none to what it is a part of. -/
theorem exists_render_error (h : u.Occurs t) (hu : ∃ e, u.render = .error e) :
    ∃ e, t.render = .error e := by
  induction h with
  | here => exact hu
  | @namedType child _ ih =>
    have hchild : child.isName = false := by
      cases child with
      | name value =>
        obtain ⟨e, he⟩ := ih
        cases he
      | _ => rfl
    exact ⟨_, render_namedType_of_isName hchild⟩
  | listType _ ih =>
    obtain ⟨e, he⟩ := ih
    exact ⟨e, by rw [render, he]⟩
  | nonNullType _ ih =>
    obtain ⟨e, he⟩ := ih
    exact ⟨e, by rw [render, he]⟩

end Occurs

/-! ## Doubled nodes -/

/-- The outermost node is non-null, directly around a non-null node or a bare name. -/
def Doubled : TypeRef → Prop
  | .nonNullType (.nonNullType _) => True
  | .nonNullType (.name _) => True
  | _ => False

/-- A reference is a run of non-null nodes around a name with enough `?` at its end: one for each
node, or one less if the name is that of a named type. -/
def Covered (t : TypeRef) : Prop :=
  ∃ n v, n ≤ nullMarks v ∧ (t = nonNullType^[n] (name v) ∨ t = nonNullType^[n + 1] (named v))

/-- A run that is a doubled node is not empty, and unless it is around a bare name it has two nodes
at least. -/
lemma Doubled.le_of_run {n : ℕ} {core : TypeRef} (h : (nonNullType^[n] core).Doubled)
    (hcore : core.nullable = true) : 1 ≤ n ∧ (core.isName = false → 2 ≤ n) := by
  match n with
  | 0 =>
    cases core with
    | nonNullType inner => cases hcore
    | _ => exact h.elim
  | 1 =>
    refine ⟨le_rfl, fun hname => ?_⟩
    cases core with
    | name value => cases hname
    | nonNullType inner => cases hcore
    | _ => exact h.elim
  | n + 2 => exact ⟨by omega, fun _ => by omega⟩

/-- A list that renders has one `?` at the end of its text. -/
lemma exists_nullMarks_of_render_listType {item : TypeRef} {text : String}
    (h : (listType item).render = .ok text) : nullMarks text = 1 := by
  obtain ⟨rendered, -, rfl⟩ := render_listType_eq_ok_iff.1 h
  rw [nullMarks_append_mark, nullMarks_of_lastChar? (c := ']') _ (by decide)]
  rw [lastChar?_append]
  rfl

/-- **A doubled node renders exactly if it is covered.**

**Proof sketch.** The node begins a run, and a run renders if it has no more nodes than there are
`?` behind what it is around.  A list has one, which is too few; a name has only its own, and in a
named type one more. -/
theorem exists_render_iff_covered (h : u.Doubled) : (∃ text, u.render = .ok text) ↔ u.Covered := by
  constructor
  · rintro ⟨text, hrender⟩
    obtain ⟨n, core, hcore, rfl⟩ := exists_run u
    obtain ⟨hone, htwo⟩ := h.le_of_run hcore
    rw [render_iterate] at hrender
    cases hbase : core.render with
    | error e => simp [hbase] at hrender
    | ok base =>
      -- the run has found a mark for each of its nodes
      have hmarks : n ≤ nullMarks base := by
        by_contra hn
        obtain ⟨e, he⟩ := exists_unmarked_eq_error_iff.2 (Nat.lt_of_not_le hn)
        simp [hbase, he] at hrender
      cases core with
      | name v =>
        have hv : v = base := Except.ok.inj hbase
        subst hv
        exact ⟨n, v, hmarks, Or.inl rfl⟩
      | namedType child =>
        cases child with
        | name v =>
          cases hbase
          obtain ⟨m, rfl⟩ : ∃ m, n = m + 1 := ⟨n - 1, by omega⟩
          rw [nullMarks_append_mark] at hmarks
          exact ⟨m, v, by omega, Or.inr rfl⟩
        | _ => cases hbase
      | listType item =>
        have hlist := exists_nullMarks_of_render_listType hbase
        have := htwo rfl
        omega
      | nonNullType inner => cases hcore
  · rintro ⟨n, v, hn, rfl | rfl⟩
    · refine ⟨dropEnd n v, ?_⟩
      rw [render_iterate, render]
      exact if_pos hn
    · refine ⟨dropEnd n v, ?_⟩
      rw [render_iterate, named, render]
      exact (unmarked_succ_append_mark n v).trans (if_pos hn)

/-- A doubled node is not covered if no name in it ends in `?`. -/
lemma Doubled.not_covered (h : u.Doubled)
    (hnames : ∀ v, (name v).Occurs u → nullMarks v = 0) : ¬ u.Covered := by
  rintro ⟨n, v, hn, rfl | rfl⟩
  · have hmarks := hnames v (Occurs.here.iterate n)
    obtain rfl : n = 0 := by omega
    exact h
  · have hmarks := hnames v ((Occurs.namedType Occurs.here).iterate (n + 1))
    obtain rfl : n = 0 := by omega
    exact h

/-- A type of a document that has no text is among the errors of the document. -/
lemma exists_mem_errors_of_check (path : String) {d : Document} {definition : Definition}
    {part : TypedPart} (hcheck : (definition, Check.type part t) ∈ d.checks)
    (ht : ∃ e, t.render = .error e) :
    ∃ e, t.render = .error e ∧
      Violation.error path ⟨definition, .malformedType part t e⟩ ∈
        (⟨path, .ok d⟩ : LoadedFile).errors := by
  obtain ⟨e, he⟩ := ht
  have hfails : (Check.type part t).Fails d.registry := fun text hok => by simp [he] at hok
  obtain ⟨⟨definition', defect⟩, hmem, hdefinition, hreported⟩ :=
    d.checks_report.exists_of_fails hcheck hfails
  cases hdefinition
  cases hreported with
  | type h =>
    rw [LoadedFile.errors_ok]
    exact ⟨_, h, List.mem_map_of_mem hmem⟩

/-- **Doubled nodes are rejected unless they are covered.**  A doubled node has no text exactly if
it is not covered, as none is where no name ends in `?`, and then a reference has no text in which
the node occurs at any depth.  Where a document has such a reference among the types it is checked
for, the reference is among its errors.

**Proof sketch.** `exists_render_iff_covered` for the node, `Occurs.exists_render_error` for what it
is a part of, and `exists_mem_errors_of_check` for the document. -/
theorem doubled_rejected (u : TypeRef) (hu : u.Doubled) :
    ((∃ e, u.render = .error e) ↔ ¬ u.Covered) ∧
    (∀ t, u.Occurs t → ¬ u.Covered → ∃ e, t.render = .error e) ∧
    (∀ t, u.Occurs t → (∀ v, (name v).Occurs t → nullMarks v = 0) → ∃ e, t.render = .error e) ∧
    ∀ (path : String) (d : Document) (definition : Definition) (part : TypedPart) (t : TypeRef),
      (definition, Check.type part t) ∈ d.checks → u.Occurs t → ¬ u.Covered →
      ∃ e, t.render = .error e ∧
        Violation.error path ⟨definition, .malformedType part t e⟩ ∈
          (⟨path, .ok d⟩ : LoadedFile).errors := by
  have hnode : (∃ e, u.render = .error e) ↔ ¬ u.Covered := by
    rw [← exists_render_iff_covered hu]
    cases u.render <;> simp
  have hpart : ∀ t, u.Occurs t → ¬ u.Covered → ∃ e, t.render = .error e :=
    fun t ht hcovered => ht.exists_render_error (hnode.2 hcovered)
  refine ⟨hnode, hpart, fun t ht hnames => ?_, ?_⟩
  · exact hpart t ht (hu.not_covered fun v hv => hnames v (hv.trans ht))
  · intro path d definition part t hcheck ht hcovered
    exact exists_mem_errors_of_check path hcheck (hpart t ht hcovered)

/-- A document that uses a type with one field of the given type. -/
def usingType (t : TypeRef) : Document :=
  ⟨[], ⟨[]⟩, [⟨"Review", .inputObjectType, none, .fields [⟨"episode", t, none, false⟩]⟩]⟩

/-- The payload of a document that uses a type with one field of the given type. -/
def usingTypePayload (t : TypeRef) : Json :=
  .arr [.arr [], .arr [], .arr [.arr [.str "Review", .str "InputObjectType", .null,
    .arr [.arr [.str "episode", t.toJson, .null, .bool false]], .null]]]

/-- `doubled_rejected` at a list of doubly non-null items, in a document that uses it. -/
theorem doubled_rejected_list :
    (usingType (list (nonNull (nonNullNamed "Episode")))).Decoded ∧
      ∃ e, (list (nonNull (nonNullNamed "Episode"))).render = .error e ∧
        Violation.error "review.json" ⟨.usedType "Review", .malformedType (.field "episode")
            (list (nonNull (nonNullNamed "Episode"))) e⟩ ∈
          (⟨"review.json", .ok (usingType (list (nonNull (nonNullNamed "Episode"))))⟩ :
            LoadedFile).errors := by
  have hdoubled : (nonNull (nonNullNamed "Episode")).Doubled := True.intro
  obtain ⟨hnode, -, -, hdocument⟩ := doubled_rejected (nonNull (nonNullNamed "Episode")) hdoubled
  have hcovered : ¬ (nonNull (nonNullNamed "Episode")).Covered :=
    hnode.1 ⟨.missingNullabilitySuffix "Episode", by decide⟩
  exact ⟨.ofJson (usingTypePayload (list (nonNull (nonNullNamed "Episode")))) (by rfl),
    hdocument _ _ _ _ _ List.mem_cons_self (.listType .here) hcovered⟩

/-- Doubled nodes are not always rejected: around names that end in `?` they have a text, and a
document that uses one has no errors. -/
theorem doubled_accepted :
    (nonNull (name "Episode?")).Doubled ∧ (nonNull (name "Episode?")).render = .ok "Episode" ∧
      (nonNull (nonNullNamed "Episode?")).Doubled ∧
      (nonNull (nonNullNamed "Episode?")).render = .ok "Episode" ∧
      (usingType (nonNull (nonNullNamed "Episode?"))).Decoded ∧
      (.usedType "Review", Check.type (.field "episode") (nonNull (nonNullNamed "Episode?"))) ∈
        (usingType (nonNull (nonNullNamed "Episode?"))).checks ∧
      (⟨"review.json", .ok (usingType (nonNull (nonNullNamed "Episode?")))⟩ :
        LoadedFile).errors = [] := by
  exact ⟨True.intro, by decide, True.intro, by decide,
    .ofJson (usingTypePayload (nonNull (nonNullNamed "Episode?"))) (by rfl),
    List.mem_cons_self, by rfl⟩

end TypeRef

end QueryPayload
