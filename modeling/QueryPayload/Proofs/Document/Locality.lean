import Mathlib.Tactic.Lemma
import QueryPayload.Proofs.Document.Composition
import QueryPayload.Proofs.Document.Reachability
import QueryPayload.TypeRef.Json
import QueryPayload.Proofs.Selection.Same

/-!
# The closure depends on reachable fragments only

Two documents may bind the names that an operation reaches to the same fragments and differ in
everything else: in the order of their fragments, in the fragments that are not reached, in the
order of the entries of objects.  The closure of the operation is the same in both.

## Main definitions

* `Agree` — two outcomes are related values or one error.
* `FragmentRegistry.BoundAlike` — two registries bind a name to related fragments, or neither binds
  it.

## Main results

* `FragmentRegistry.walk_agree` — walks through two registries go in step.
* `Document.referencedFragments_eq_of_mem_iff` — documents with the same fragments of reachable
  names.
* `Document.closure_local` — the closure in two documents.

## Implementation notes

Fragments that mean the same need not be equal, and two payloads with the same fragments have equal
ones.  The walks go in step in both cases, since all that a walk looks at is what fragments spread;
so they are compared up to a relation that respects it (`Fragment.Respects`).
-/

set_option relaxedAutoImplicit false
set_option autoImplicit false

namespace QueryPayload

/-- Two outcomes agree: either both are values, and these are related, or both are one error. -/
inductive Agree {ε α β : Type} (R : α → β → Prop) : Except ε α → Except ε β → Prop where
  | ok {a : α} {b : β} (h : R a b) : Agree R (.ok a) (.ok b)
  | error (e : ε) : Agree R (.error e) (.error e)

/-- Outcomes that agree up to equality are equal. -/
lemma Agree.eq {ε α : Type} {x y : Except ε α} (h : Agree Eq x y) : x = y := by
  cases h with
  | ok h => rw [h]
  | error e => rfl

/-- What is computed alike from related values agrees if these do. -/
lemma Agree.map_eq {ε α β γ : Type} {R : α → β → Prop} {x : Except ε α} {y : Except ε β}
    (h : Agree R x y) {f : α → γ} {g : β → γ} (hfg : ∀ a b, R a b → f a = g b) :
    x.map f = y.map g := by
  cases h with
  | ok h => exact congrArg Except.ok (hfg _ _ h)
  | error e => rfl

/-- Related fragments have one name and one source, and spread the same fragments. -/
structure Fragment.Respects (R : Fragment → Fragment → Prop) : Prop where
  name_eq : ∀ {f g}, R f g → f.name = g.name
  source_eq : ∀ {f g}, R f g → f.source = g.source
  spreadNames_eq : ∀ {f g}, R f g → f.selectionSet.spreadNames = g.selectionSet.spreadNames

/-- Equal fragments have everything in common. -/
lemma Fragment.respects_eq : Fragment.Respects Eq :=
  ⟨congrArg _, congrArg _, congrArg fun f : Fragment => f.selectionSet.spreadNames⟩

/-- Fragments that mean the same spread the same fragments. -/
lemma Fragment.respects_same : Fragment.Respects fun f g => f.same g = true :=
  ⟨name_eq_of_same, source_eq_of_same, spreadNames_eq_of_same⟩

namespace FragmentRegistry

variable {R : Fragment → Fragment → Prop} {r r' : FragmentRegistry} {names : List String}

/-- Two registries bind a name to related fragments, or neither of them binds it. -/
def BoundAlike (R : Fragment → Fragment → Prop) (r r' : FragmentRegistry) (name : String) : Prop :=
  Option.Rel R (r.get? name) (r'.get? name)

/-- The names of related fragments, one by one. -/
lemma map_name_eq (hR : Fragment.Respects R) {fs gs : List Fragment}
    (h : List.Forall₂ R fs gs) : fs.map Fragment.name = gs.map Fragment.name := by
  induction h with
  | nil => rfl
  | cons hfg _ ih => rw [List.map_cons, List.map_cons, hR.name_eq hfg, ih]

/-- **Walks through two registries go in step**, if the registries bind all names reached in the
first one alike: they visit related fragments in the same order, or fail at the same name.

**Proof sketch.** Induction along the walk through the first registry.  What has been visited is
related, so that the same names count as visited.  A fragment visited for the first time has a
related one in the second registry, and both spread the same names; whatever is reached after the
visit was reached before it (`Reaches.of_visit`). -/
theorem walk_agree (hR : Fragment.Respects R) (hr : r.WellFormed) (hr' : r'.WellFormed)
    {visited visited' : List Fragment} (hvisited : List.Forall₂ R visited visited')
    (hbound : ∀ name, r.Reaches names name → r.BoundAlike R r' name) :
    Agree (List.Forall₂ R) (r.walk visited names) (r'.walk visited' names) := by
  induction visited, names using walk_induction hr generalizing visited' with
  | nil visited =>
    rw [walk_nil, walk_nil]
    exact .ok hvisited
  | seen visited name names hseen ih =>
    have hseen' : name ∈ visited'.map Fragment.name := map_name_eq hR hvisited ▸ hseen
    rw [walk_visited hseen, walk_visited hseen']
    exact ih hvisited fun n hn => hbound n hn.of_tail
  | dangling visited name names hfree hkey =>
    have hfree' : name ∉ visited'.map Fragment.name := map_name_eq hR hvisited ▸ hfree
    have hnone : Option.Rel R none (r'.get? name) :=
      get?_eq_none_iff.2 hkey ▸ hbound name (.direct List.mem_cons_self)
    have hkey' : name ∉ r'.keys := by
      cases hget : r'.get? name with
      | none => exact get?_eq_none_iff.1 hget
      | some g =>
        rw [hget] at hnone
        cases hnone
    rw [walk_dangling hfree hkey, walk_dangling hfree' hkey']
    exact .error _
  | visit visited f names hf hfree ih =>
    have hsome : Option.Rel R (some f) (r'.get? f.name) :=
      hr.get?_eq_some_iff.2 ⟨hf, rfl⟩ ▸ hbound f.name (.direct List.mem_cons_self)
    cases hget : r'.get? f.name with
    | none =>
      rw [hget] at hsome
      cases hsome
    | some g =>
      rw [hget] at hsome
      obtain ⟨hfg⟩ := hsome
      obtain ⟨hg, -⟩ := hr'.get?_eq_some_iff.1 hget
      have hname := hR.name_eq hfg
      have hfree' : g.name ∉ visited'.map Fragment.name := by
        rw [← hname, ← map_name_eq hR hvisited]
        exact hfree
      rw [walk_visit hr hf hfree, hname, walk_visit hr' hg hfree', hR.spreadNames_eq hfg]
      have hvisited' : List.Forall₂ R (visited ++ [f]) (visited' ++ [g]) :=
        List.rel_append hvisited (.cons hfg .nil)
      refine ih _ _ List.prefix_rfl hvisited' fun n hn => hbound n ?_
      rw [← hR.spreadNames_eq hfg] at hn
      exact hn.of_visit hf

end FragmentRegistry

namespace Document

open FragmentRegistry

variable {R : Fragment → Fragment → Prop} {d d' : Document} {op : Operation}

/-- Closures agree if the names reached are bound alike. -/
lemma referencedFragments_agree (hR : Fragment.Respects R) (hd : d.registry.WellFormed)
    (hd' : d'.registry.WellFormed)
    (hbound : ∀ name, d.Reachable op name → d.registry.BoundAlike R d'.registry name) :
    Agree (List.Forall₂ R) (d.referencedFragments op) (d'.referencedFragments op) := by
  rw [referencedFragments_eq_walk, referencedFragments_eq_walk]
  exact walk_agree hR hd hd' .nil hbound

/-- Full sources are equal if closures agree. -/
lemma sourceWithFragments_eq_of_agree (hR : Fragment.Respects R)
    (h : Agree (List.Forall₂ R) (d.referencedFragments op) (d'.referencedFragments op)) :
    d.sourceWithFragments op = d'.sourceWithFragments op := by
  rw [sourceWithFragments_eq, sourceWithFragments_eq]
  refine h.map_eq fun fs gs hfs => ?_
  have hsources : fs.map (fun f => "\n" ++ f.source) = gs.map fun g => "\n" ++ g.source := by
    rw [← List.forall₂_eq_eq_eq, List.forall₂_map_left_iff, List.forall₂_map_right_iff]
    exact hfs.imp fun f g hfg => congrArg ("\n" ++ ·) (hR.source_eq hfg)
  rw [hsources]

/-- Documents that hold the same fragments of reachable names have one closure. -/
lemma referencedFragments_eq_of_mem_iff (hd : d.Decoded) (hd' : d'.Decoded)
    (h : ∀ f, d.Reachable op f.name → (f ∈ d.registry.fragments ↔ f ∈ d'.registry.fragments)) :
    d.referencedFragments op = d'.referencedFragments op ∧
      d.sourceWithFragments op = d'.sourceWithFragments op := by
  have hr := hd.registry_wellFormed
  have hr' := hd'.registry_wellFormed
  have hbound : ∀ name, d.Reachable op name → d.registry.BoundAlike Eq d'.registry name := by
    intro name hname
    have hget : d.registry.get? name = d'.registry.get? name := by
      ext f
      rw [hr.get?_eq_some_iff, hr'.get?_eq_some_iff]
      exact and_congr_left fun hf => h f (hf ▸ hname)
    rw [BoundAlike, hget]
    cases d'.registry.get? name with
    | none => exact .none
    | some f => exact .some rfl
  have hagree := referencedFragments_agree Fragment.respects_eq hr hr' hbound
  refine ⟨Agree.eq ?_, sourceWithFragments_eq_of_agree Fragment.respects_eq hagree⟩
  rwa [List.forall₂_eq_eq_eq] at hagree

/-- The payloads of the fragments in a payload. -/
def fragmentPayloads? (v : Json) : Option (List Json) :=
  match v.parts? .document with
  | some [_, .arr fragments, _] => some fragments
  | _ => none

/-- A decoded document holds the fragments that the payloads of its fragments decode to. -/
lemma mem_fragments_iff {v : Json} (hd : ofJson v = .ok d) {js : List Json}
    (hjs : fragmentPayloads? v = some js) {f : Fragment} :
    f ∈ d.registry.fragments ↔ ∃ j ∈ js, j.read (.record .fragment) = .ok f := by
  obtain ⟨operations, fragments, typesUsed, fs, hparts, -, hfragments, -, -, hregistry⟩ :=
    ofJson_eq_ok_iff_forall₂.1 hd
  rw [fragmentPayloads?, hparts] at hjs
  obtain rfl := Option.some.inj hjs
  rw [hregistry, FragmentRegistry.fragments_ofFragments]
  constructor
  · exact exists_rel_of_mem_right hfragments
  · rintro ⟨j, hj, hf⟩
    obtain ⟨g, hg, hjg⟩ := exists_rel_of_mem_left hfragments hj
    obtain rfl : f = g := Except.ok.inj (hf.symm.trans hjg)
    exact hg

/-- **The closure depends on reachable fragments only.**  If two documents bind every name that is
reachable in the first one alike, to fragments that mean the same or not at all, then the closures
agree fragment by fragment, or dangle at the same name, and the full sources are equal.  If the
documents hold the same fragments of reachable names, in whatever order, then the closures are
equal.  That is so if the payloads of fragments that stand in one payload and not in the other all
decode to fragments that are not reachable: reordering fragments, and adding or removing those that
are not reachable, changes neither the closure nor the full source.

**Proof sketch.** Walks through the two registries go in step (`FragmentRegistry.walk_agree`), with
fragments that mean the same in the first case and equal ones in the others.  A registry holds what
the payloads of its fragments decode to (`mem_fragments_iff`). -/
theorem closure_local :
    (∀ (d d' : Document) (op : Operation), d.Decoded → d'.Decoded →
      (∀ name, d.Reachable op name →
        d.registry.BoundAlike (fun f g => f.same g = true) d'.registry name) →
      Agree (List.Forall₂ fun f g => f.same g = true)
          (d.referencedFragments op) (d'.referencedFragments op) ∧
        d.sourceWithFragments op = d'.sourceWithFragments op) ∧
    (∀ (d d' : Document) (op : Operation), d.Decoded → d'.Decoded →
      (∀ f : Fragment, d.Reachable op f.name →
        (f ∈ d.registry.fragments ↔ f ∈ d'.registry.fragments)) →
      d.referencedFragments op = d'.referencedFragments op ∧
        d.sourceWithFragments op = d'.sourceWithFragments op) ∧
    ∀ (v v' : Json) (d d' : Document) (op : Operation) (js js' : List Json),
      ofJson v = .ok d → ofJson v' = .ok d' →
      fragmentPayloads? v = some js → fragmentPayloads? v' = some js' →
      (∀ (j : Json) (f : Fragment), ¬ (j ∈ js ↔ j ∈ js') → j.read (.record .fragment) = .ok f →
        ¬ d.Reachable op f.name) →
      d.referencedFragments op = d'.referencedFragments op ∧
        d.sourceWithFragments op = d'.sourceWithFragments op := by
  refine ⟨fun d d' op hd hd' hbound => ?_, fun d d' op hd hd' h =>
    referencedFragments_eq_of_mem_iff hd hd' h, fun v v' d d' op js js' hd hd' hjs hjs' h => ?_⟩
  · have hagree := referencedFragments_agree Fragment.respects_same hd.registry_wellFormed
      hd'.registry_wellFormed hbound
    exact ⟨hagree, sourceWithFragments_eq_of_agree Fragment.respects_same hagree⟩
  · refine referencedFragments_eq_of_mem_iff (.ofJson v hd) (.ofJson v' hd') fun f hf => ?_
    rw [mem_fragments_iff hd hjs, mem_fragments_iff hd' hjs']
    refine exists_congr fun j => and_congr_left fun hj => ?_
    by_contra hone
    exact h j f hone hj hf

/-- A fragment `A` whose field filters by an object, and which spreads `B`. -/
def filtering (filter : List (String × ArgumentValue)) : Fragment :=
  ⟨"A", "a", "fragment A", [], [
    .leaf (.field ⟨"items", .named "Item", none, none, none,
      some [⟨"filter", .object filter, .named "Filter"⟩]⟩),
    .leaf (.fragmentSpread ⟨"B"⟩ none)]⟩

/-- The name that `filtering` spreads. -/
@[simp] lemma spreadNames_filtering (filter : List (String × ArgumentValue)) :
    (filtering filter).selectionSet.spreadNames = ["B"] := rfl

/-- The payload of `filtering`. -/
def filteringPayload (filter : List (String × Json)) : Json :=
  .arr [.str "A", .str "a", .str "fragment A", .arr [.arr [], .arr [
    .obj [("kind", .str "Field"), ("name", .str "items"),
      ("typeNode", (TypeRef.named "Item").toJson),
      ("args", .arr [.arr [.str "filter", .obj filter, (TypeRef.named "Filter").toJson]])],
    .obj [("kind", .str "FragmentSpread"), ("fragmentName", .str "B")]]]]

/-- A fragment that spreads one fragment. -/
def passing (name target : String) : Fragment := ⟨name, "p", "fragment", spreading [target]⟩

/-- The payload of `passing`. -/
def passingPayload (name target : String) : Json :=
  .arr [.str name, .str "p", .str "fragment", spreadingPayload [target]]

/-- A document with the operation of `cyclic` and the given fragments. -/
def ofSpread (fragments : List Fragment) : Document :=
  ⟨[cyclicOperation], .ofFragments fragments, []⟩

/-- The payload of `ofSpread`. -/
def ofSpreadPayload (fragments : List Json) : Json :=
  .arr [
    .arr [.arr [.str "Q", .str "query", .str "Query", .str "q", .str "query", .arr [],
      spreadingPayload ["A"]]],
    .arr fragments, .arr []]

/-- `closure_local` where a payload has its fragments rearranged, with one more that spreads `A` and
is not reachable; in the last of three payloads the object in `A` is rearranged as well. -/
theorem closure_local_rearranged :
    let xy : List (String × Json) := [("x", .num (.int 1)), ("y", .null)]
    let v := ofSpreadPayload [filteringPayload xy, passingPayload "B" "A"]
    let w := ofSpreadPayload [passingPayload "C" "A", passingPayload "B" "A", filteringPayload xy]
    let d := ofSpread [filtering [("x", .int 1), ("y", .null)], passing "B" "A"]
    let e := ofSpread [passing "C" "A", passing "B" "A", filtering [("x", .int 1), ("y", .null)]]
    let e' := ofSpread [passing "C" "A", passing "B" "A", filtering [("y", .null), ("x", .int 1)]]
    ofJson v = .ok d ∧ ofJson w = .ok e ∧
      d.sourceWithFragments cyclicOperation = .ok "query\nfragment A\nfragment" ∧
      d.referencedFragments cyclicOperation = e.referencedFragments cyclicOperation ∧
      d.sourceWithFragments cyclicOperation = e.sourceWithFragments cyclicOperation ∧
      Agree (List.Forall₂ fun f g => f.same g = true)
        (d.referencedFragments cyclicOperation) (e'.referencedFragments cyclicOperation) := by
  intro xy v w d e e'
  have hd : ofJson v = .ok d := by rfl
  have he : ofJson w = .ok e := by rfl
  have he' : ofJson (ofSpreadPayload [passingPayload "C" "A", passingPayload "B" "A",
      filteringPayload [("y", .null), ("x", .num (.int 1))]]) = .ok e' := by rfl
  have hclosure : d.referencedFragments cyclicOperation =
      .ok [filtering [("x", .int 1), ("y", .null)], passing "B" "A"] := by
    have hname : (filtering [("x", .int 1), ("y", .null)]).name = "A" := rfl
    simp [d, referencedFragments, cyclicOperation, ofSpread, follow, takeNamed?, addName,
      Except.map, FragmentRegistry.ofFragments, passing, hname]
  have hreach : ∀ name, d.Reachable cyclicOperation name → name = "A" ∨ name = "B" := by
    intro name hname
    have hmem := mem_of_reachable (Decoded.ofJson v hd).registry_wellFormed hclosure hname
    simpa [filtering, passing] using hmem
  obtain ⟨hsame, hmembers, hpayloads⟩ := closure_local
  have hmem : ∀ f : Fragment, d.Reachable cyclicOperation f.name →
      (f ∈ d.registry.fragments ↔ f ∈ e.registry.fragments) := by
    intro f hf
    have hC : f ≠ passing "C" "A" := by
      rintro rfl
      exact absurd (hreach _ hf) (by decide)
    change f ∈ [_, _] ↔ f ∈ [_, _, _]
    simp [hC, or_comm]
  have hout : ∀ (j : Json) (f : Fragment),
      ¬ (j ∈ [filteringPayload xy, passingPayload "B" "A"] ↔
        j ∈ [passingPayload "C" "A", passingPayload "B" "A", filteringPayload xy]) →
      j.read (.record .fragment) = .ok f → ¬ d.Reachable cyclicOperation f.name := by
    intro j f hone hj hf
    have hC : j = passingPayload "C" "A" := by
      by_contra hC
      simp [hC, or_comm] at hone
    obtain rfl : passing "C" "A" = f := Except.ok.inj (hC ▸ hj)
    exact absurd (hreach _ hf) (by decide)
  have hbound : ∀ name, d.Reachable cyclicOperation name →
      d.registry.BoundAlike (fun f g => f.same g = true) e'.registry name := by
    intro name hname
    obtain rfl | rfl := hreach name hname
    · exact .some (by rfl)
    · exact .some (by rfl)
  obtain ⟨hfs, -⟩ := hmembers d e cyclicOperation (.ofJson v hd) (.ofJson w he) hmem
  obtain ⟨-, htext⟩ := hpayloads v w d e cyclicOperation _ _ hd he rfl rfl hout
  obtain ⟨hagree, -⟩ := hsame d e' cyclicOperation (.ofJson v hd) (.ofJson _ he') hbound
  refine ⟨hd, he, ?_, hfs, htext, hagree⟩
  rw [sourceWithFragments_eq, hclosure]
  rfl

end Document

end QueryPayload
