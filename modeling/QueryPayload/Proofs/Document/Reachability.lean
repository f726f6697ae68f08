import Mathlib.Tactic.Lemma
import QueryPayload.Proofs.Document.Walk

/-!
# Reachable fragments

A name is reachable from an operation if the operation spreads it, or a fragment with a reachable
name does.  The closure of an operation holds the fragments of exactly these names.

## Main definitions

* `FragmentRegistry.Reaches` — the names reached from some names.
* `FragmentRegistry.Visits` — the walk as nested visits, in which the spreads of a fragment are
  followed to their end before anything behind it is looked at.
* `Document.Reachable` — the names reached from an operation.

## Main results

* `FragmentRegistry.visits_iff` — nested visits come to an end, and with the result of the walk.
* `FragmentRegistry.reaches_of_walk_error` — a walk fails at a name that is reached.
* `FragmentRegistry.walk_closed` — a walk that succeeds has followed all spreads on its way.
* `Document.referencedFragments_exact` — the closure of an operation is exact.

## Implementation notes

A fragment counts as visited before the names it spreads are followed, so "the spreads of visited
fragments are visited" is no invariant of the walk.  What is invariant speaks of the end: the
spreads of the fragments that are not visited *yet* are visited then (`walk_closed`).
-/

set_option relaxedAutoImplicit false
set_option autoImplicit false

namespace QueryPayload

namespace FragmentRegistry

variable {r : FragmentRegistry} {visited out : List Fragment} {f : Fragment} {name : String}
  {names : List String}

/-! ## Reached names -/

/-- The names reached from some names: these, and those spread by a fragment with a reached
name. -/
inductive Reaches (r : FragmentRegistry) (names : List String) : String → Prop where
  | direct {name : String} (h : name ∈ names) : Reaches r names name
  | through {f : Fragment} {name : String} (hf : f ∈ r.fragments) (hr : Reaches r names f.name)
      (h : name ∈ f.selectionSet.spreadNames) : Reaches r names name

/-- What is reached from reached names is reached. -/
lemma Reaches.of_forall {more : List String} (h : ∀ n ∈ more, r.Reaches names n)
    (hm : r.Reaches more name) : r.Reaches names name := by
  induction hm with
  | direct hmem => exact h _ hmem
  | through hf _ hmem ih => exact .through hf ih hmem

/-- What is reached from the names behind one is reached from all of them. -/
lemma Reaches.of_tail {n : String} (h : r.Reaches names name) :
    r.Reaches (n :: names) name :=
  h.of_forall fun _ hn => .direct (List.mem_cons_of_mem _ hn)

/-- What is reached after a visit is reached from the name of the fragment visited and the names
behind it. -/
lemma Reaches.of_visit (hf : f ∈ r.fragments)
    (h : r.Reaches (f.selectionSet.spreadNames ++ names) name) :
    r.Reaches (f.name :: names) name := by
  refine h.of_forall fun n hn => ?_
  rcases List.mem_append.1 hn with hn | hn
  · exact .through hf (.direct List.mem_cons_self) hn
  · exact .direct (List.mem_cons_of_mem _ hn)

/-! ## What a walk does -/

/-- A walk keeps what has been visited, in front of what it visits. -/
lemma prefix_of_walk (hr : r.WellFormed) (h : r.walk visited names = .ok out) :
    visited <+: out := by
  induction visited, names using walk_induction hr with
  | nil visited =>
    rw [walk_nil] at h
    cases h
    exact List.prefix_rfl
  | seen visited name names hseen ih => exact ih (walk_visited hseen ▸ h)
  | dangling visited name names hfree hkey =>
    rw [walk_dangling hfree hkey] at h
    cases h
  | visit visited f names hf hfree ih =>
    rw [walk_visit hr hf hfree] at h
    exact (List.prefix_append _ _).trans (ih _ _ List.prefix_rfl h)

/-- A walk visits no fragment twice. -/
lemma nodup_of_walk (hr : r.WellFormed) (h : r.walk visited names = .ok out)
    (hnd : (visited.map Fragment.name).Nodup) : (out.map Fragment.name).Nodup := by
  induction visited, names using walk_induction hr with
  | nil visited =>
    rw [walk_nil] at h
    cases h
    exact hnd
  | seen visited name names hseen ih => exact ih (walk_visited hseen ▸ h) hnd
  | dangling visited name names hfree hkey =>
    rw [walk_dangling hfree hkey] at h
    cases h
  | visit visited f names hf hfree ih =>
    rw [walk_visit hr hf hfree] at h
    refine ih _ _ List.prefix_rfl h ?_
    rw [List.map_append]
    exact List.nodup_append'.2 ⟨hnd, List.nodup_singleton _, List.disjoint_singleton.2 hfree⟩

/-- A walk visits fragments of the registry with reached names. -/
lemma reaches_of_walk (hr : r.WellFormed) (h : r.walk visited names = .ok out) :
    ∀ f ∈ out, f ∈ visited ∨ f ∈ r.fragments ∧ r.Reaches names f.name := by
  induction visited, names using walk_induction hr with
  | nil visited =>
    rw [walk_nil] at h
    cases h
    exact fun f hf => .inl hf
  | seen visited name names hseen ih =>
    intro f hf
    exact (ih (walk_visited hseen ▸ h) f hf).imp_right fun ⟨hmem, hre⟩ => ⟨hmem, hre.of_tail⟩
  | dangling visited name names hfree hkey =>
    rw [walk_dangling hfree hkey] at h
    cases h
  | visit visited g names hg hfree ih =>
    rw [walk_visit hr hg hfree] at h
    intro f hf
    rcases ih _ _ List.prefix_rfl h f hf with hf | ⟨hmem, hre⟩
    · rcases List.mem_append.1 hf with hf | hf
      · exact .inl hf
      · obtain rfl := List.mem_singleton.1 hf
        exact .inr ⟨hg, .direct List.mem_cons_self⟩
    · exact .inr ⟨hmem, hre.of_visit hg⟩

/-- A walk that ends has visited the names it was to follow, and all spreads of the fragments it
has visited on the way. -/
lemma walk_closed (hr : r.WellFormed) (h : r.walk visited names = .ok out) :
    (∀ n ∈ names, n ∈ out.map Fragment.name) ∧
      ∀ f ∈ out, f ∉ visited → ∀ n ∈ f.selectionSet.spreadNames, n ∈ out.map Fragment.name := by
  induction visited, names using walk_induction hr with
  | nil visited =>
    rw [walk_nil] at h
    cases h
    exact ⟨fun n hn => absurd hn List.not_mem_nil, fun f hf hnew => absurd hf hnew⟩
  | seen visited name names hseen ih =>
    rw [walk_visited hseen] at h
    obtain ⟨hnames, hspreads⟩ := ih h
    refine ⟨fun n hn => ?_, hspreads⟩
    rcases List.mem_cons.1 hn with rfl | hn
    · exact List.map_subset _ (prefix_of_walk hr h).subset hseen
    · exact hnames n hn
  | dangling visited name names hfree hkey =>
    rw [walk_dangling hfree hkey] at h
    cases h
  | visit visited g names hg hfree ih =>
    rw [walk_visit hr hg hfree] at h
    obtain ⟨hnames, hspreads⟩ := ih _ _ List.prefix_rfl h
    have hgout : g ∈ out := (prefix_of_walk hr h).subset (by simp)
    constructor
    · intro n hn
      rcases List.mem_cons.1 hn with rfl | hn
      · exact List.mem_map_of_mem hgout
      · exact hnames n (List.mem_append_right _ hn)
    · intro f hf hnew n hn
      -- for the walk behind this visit `g` counts as visited, and so `ih` leaves it out
      by_cases hfg : f = g
      · subst hfg
        exact hnames n (List.mem_append_left _ hn)
      · exact hspreads f hf (by simp [hnew, hfg]) n hn

/-- A walk that fails does so at a name that is reached and not bound. -/
lemma reaches_of_walk_error (hr : r.WellFormed) {e : DanglingReference}
    (h : r.walk visited names = .error e) : r.Reaches names e.name ∧ e.name ∉ r.keys := by
  induction visited, names using walk_induction hr with
  | nil visited =>
    rw [walk_nil] at h
    cases h
  | seen visited name names hseen ih =>
    rw [walk_visited hseen] at h
    exact (ih h).imp_left Reaches.of_tail
  | dangling visited name names hfree hkey =>
    rw [walk_dangling hfree hkey] at h
    cases h
    exact ⟨.direct List.mem_cons_self, hkey⟩
  | visit visited f names hf hfree ih =>
    rw [walk_visit hr hf hfree] at h
    exact (ih _ _ List.prefix_rfl h).imp_left (Reaches.of_visit hf)

/-! ## The walk as nested visits -/

/-- Following names one after the other, where a fragment that is visited for the first time has
its spreads followed to their end before the names behind its own.  `Visits r visited names
outcome` is a finite tree of such visits, from the fragments already visited to the outcome. -/
inductive Visits (r : FragmentRegistry) :
    List Fragment → List String → Except DanglingReference (List Fragment) → Prop where
  /-- No name is left. -/
  | done (visited : List Fragment) : Visits r visited [] (.ok visited)
  /-- A name is not bound. -/
  | dangling {visited : List Fragment} {name : String} {names : List String}
      (hget : r.get? name = none) : Visits r visited (name :: names) (.error ⟨name⟩)
  /-- A fragment has been visited before. -/
  | again {visited : List Fragment} {f : Fragment} {name : String} {names : List String}
      {outcome : Except DanglingReference (List Fragment)} (hget : r.get? name = some f)
      (hseen : name ∈ visited.map Fragment.name) (behind : Visits r visited names outcome) :
      Visits r visited (name :: names) outcome
  /-- A fragment is visited for the first time. -/
  | visit {visited inner : List Fragment} {f : Fragment} {name : String} {names : List String}
      {outcome : Except DanglingReference (List Fragment)} (hget : r.get? name = some f)
      (hfree : name ∉ visited.map Fragment.name)
      (within : Visits r (visited ++ [f]) f.selectionSet.spreadNames (.ok inner))
      (behind : Visits r inner names outcome) : Visits r visited (name :: names) outcome
  /-- A fragment is visited for the first time, and something below it fails. -/
  | fail {visited : List Fragment} {f : Fragment} {name : String} {names : List String}
      {e : DanglingReference} (hget : r.get? name = some f)
      (hfree : name ∉ visited.map Fragment.name)
      (within : Visits r (visited ++ [f]) f.selectionSet.spreadNames (.error e)) :
      Visits r visited (name :: names) (.error e)

/-- A walk along names and more names is two walks, unless the first one fails. -/
lemma walk_append (hr : r.WellFormed) (more : List String) :
    r.walk visited (names ++ more) =
      (r.walk visited names).bind fun inner => r.walk inner more := by
  induction visited, names using walk_induction hr with
  | nil visited =>
    rw [walk_nil]
    rfl
  | seen visited name names hseen ih =>
    rw [List.cons_append, walk_visited hseen, walk_visited hseen, ih]
  | dangling visited name names hfree hkey =>
    rw [List.cons_append, walk_dangling hfree hkey, walk_dangling hfree hkey]
    rfl
  | visit visited f names hf hfree ih =>
    rw [List.cons_append, walk_visit hr hf hfree, walk_visit hr hf hfree, ← List.append_assoc,
      ih _ _ List.prefix_rfl]

/-- A walk from fragments of the registry visits fragments of the registry. -/
lemma subset_of_walk (hr : r.WellFormed) (hv : visited ⊆ r.fragments)
    (h : r.walk visited names = .ok out) : out ⊆ r.fragments := fun f hf =>
  (reaches_of_walk hr h f hf).elim (fun hmem => hv hmem) And.left

/-- Fragments of the registry with one more of them. -/
lemma append_singleton_subset (hv : visited ⊆ r.fragments) (hf : f ∈ r.fragments) :
    visited ++ [f] ⊆ r.fragments :=
  List.append_subset.2 ⟨hv, List.cons_subset.2 ⟨hf, List.nil_subset _⟩⟩

/-- **Nested visits come to an end**, and the outcome of the walk is one they have.

**Proof sketch.** Induction along the walk.  At a first visit the walk is one along the spreads of
the fragment followed by one along the names behind (`walk_append`); the first of them has a tree
of visits since it starts with one more fragment visited, and so has the second since nothing
visited is ever lost (`prefix_of_walk`). -/
theorem visits_walk (hr : r.WellFormed) (hv : visited ⊆ r.fragments) :
    r.Visits visited names (r.walk visited names) := by
  induction visited, names using walk_induction hr with
  | nil visited =>
    rw [walk_nil]
    exact .done visited
  | seen visited name names hseen ih =>
    obtain ⟨f, hf, rfl⟩ := List.mem_map.1 hseen
    rw [walk_visited hseen]
    exact .again (hr.get?_eq_some_iff.2 ⟨hv hf, rfl⟩) hseen (ih hv)
  | dangling visited name names hfree hkey =>
    rw [walk_dangling hfree hkey]
    exact .dangling (get?_eq_none_iff.2 hkey)
  | visit visited f names hf hfree ih =>
    have hget : r.get? f.name = some f := hr.get?_eq_some_iff.2 ⟨hf, rfl⟩
    have hv' := append_singleton_subset hv hf
    have within := ih (visited ++ [f]) f.selectionSet.spreadNames List.prefix_rfl hv'
    rw [walk_visit hr hf hfree, walk_append hr]
    -- the walk along the spreads decides whether the names behind are followed at all
    cases hw : r.walk (visited ++ [f]) f.selectionSet.spreadNames with
    | error e => exact .fail hget hfree (hw ▸ within)
    | ok inner =>
      have behind := ih inner names (prefix_of_walk hr hw) (subset_of_walk hr hv' hw)
      exact .visit hget hfree (hw ▸ within) behind

/-- Nested visits have no other outcome than the walk. -/
lemma walk_of_visits (hr : r.WellFormed) (hv : visited ⊆ r.fragments)
    {outcome : Except DanglingReference (List Fragment)}
    (h : r.Visits visited names outcome) : r.walk visited names = outcome := by
  induction h with
  | done visited => exact walk_nil
  | @dangling visited name names hget =>
    have hkey := get?_eq_none_iff.1 hget
    refine walk_dangling (fun hseen => hkey ?_) hkey
    obtain ⟨f, hf, rfl⟩ := List.mem_map.1 hseen
    exact hr.mem_keys_iff.2 ⟨f, hv hf, rfl⟩
  | again hget hseen _ ih => rw [walk_visited hseen, ih hv]
  | visit hget hfree _ _ ihWithin ihBehind =>
    obtain ⟨hf, rfl⟩ := hr.get?_eq_some_iff.1 hget
    have hv' := append_singleton_subset hv hf
    have hw := ihWithin hv'
    rw [walk_visit hr hf hfree, walk_append hr, hw]
    exact ihBehind (subset_of_walk hr hv' hw)
  | fail hget hfree _ ih =>
    obtain ⟨hf, rfl⟩ := hr.get?_eq_some_iff.1 hget
    rw [walk_visit hr hf hfree, walk_append hr, ih (append_singleton_subset hv hf)]
    rfl

/-- **Nested visits have exactly one outcome**, that of the walk. -/
theorem visits_iff (hr : r.WellFormed) (hv : visited ⊆ r.fragments)
    {outcome : Except DanglingReference (List Fragment)} :
    r.Visits visited names outcome ↔ outcome = r.walk visited names := by
  constructor
  · exact fun h => (walk_of_visits hr hv h).symm
  · rintro rfl
    exact visits_walk hr hv

end FragmentRegistry

/-! ## The closure of an operation -/

namespace Document

open FragmentRegistry

variable {d : Document} {op : Operation} {fs : List Fragment}

/-- The names reached from an operation: those it spreads, and those spread by a fragment with a
reached name. -/
def Reachable (d : Document) (op : Operation) (name : String) : Prop :=
  d.registry.Reaches op.selectionSet.spreadNames name

/-- A closure holds every reachable name. -/
lemma mem_of_reachable (hr : d.registry.WellFormed) (h : d.referencedFragments op = .ok fs)
    {name : String} (hre : d.Reachable op name) : name ∈ fs.map Fragment.name := by
  rw [referencedFragments_eq_walk] at h
  obtain ⟨hnames, hspreads⟩ := walk_closed hr h
  induction hre with
  | direct hname => exact hnames _ hname
  | @through f name hf _ hname ih =>
    obtain ⟨g, hg, hgf⟩ := List.mem_map.1 ih
    have hgr : g ∈ d.registry.fragments := subset_of_walk hr (List.nil_subset _) h hg
    obtain rfl : f = g := hr.eq_of_name_eq hf hgr hgf.symm
    exact hspreads f hg List.not_mem_nil name hname

/-- A closure holds the fragments with reachable names and no others. -/
lemma mem_referencedFragments_iff (hr : d.registry.WellFormed)
    (h : d.referencedFragments op = .ok fs) {f : Fragment} :
    f ∈ fs ↔ f ∈ d.registry.fragments ∧ d.Reachable op f.name := by
  constructor
  · intro hf
    rw [referencedFragments_eq_walk] at h
    exact (reaches_of_walk hr h f hf).resolve_left List.not_mem_nil
  · rintro ⟨hf, hre⟩
    obtain ⟨g, hg, hgf⟩ := List.mem_map.1 (mem_of_reachable hr h hre)
    rw [referencedFragments_eq_walk] at h
    have hgr : g ∈ d.registry.fragments := subset_of_walk hr (List.nil_subset _) h hg
    obtain rfl : f = g := hr.eq_of_name_eq hf hgr hgf.symm
    exact hg

/-- There is a closure exactly if every reachable name is bound. -/
lemma exists_referencedFragments_iff (hr : d.registry.WellFormed) :
    (∃ fs, d.referencedFragments op = .ok fs) ↔
      ∀ name, d.Reachable op name → name ∈ d.registry.keys := by
  constructor
  · rintro ⟨fs, h⟩ name hre
    obtain ⟨f, hf, rfl⟩ := List.mem_map.1 (mem_of_reachable hr h hre)
    exact hr.mem_keys_iff.2 ⟨f, ((mem_referencedFragments_iff hr h).1 hf).1, rfl⟩
  · intro hkeys
    cases h : d.referencedFragments op with
    | ok fs => exact ⟨fs, rfl⟩
    | error e =>
      rw [referencedFragments_eq_walk] at h
      obtain ⟨hre, hkey⟩ := reaches_of_walk_error hr h
      exact absurd (hkeys e.name hre) hkey

/-- Appending the sources of fragments one by one appends all of them. -/
private lemma foldl_source (fs : List Fragment) (text : String) :
    fs.foldl (fun text f => text ++ "\n" ++ f.source) text =
      text ++ String.join (fs.map fun f => "\n" ++ f.source) := by
  induction fs generalizing text with
  | nil => simp
  | cons f fs ih =>
    rw [List.foldl_cons, ih, List.map_cons, String.join_cons]
    simp only [String.append_assoc]

/-- The full source of an operation is its own, and behind a line feed each that of a fragment of
its closure. -/
lemma sourceWithFragments_eq (d : Document) (op : Operation) :
    d.sourceWithFragments op = (d.referencedFragments op).map fun fs =>
      op.source ++ String.join (fs.map fun f => "\n" ++ f.source) := by
  simp only [sourceWithFragments, foldl_source]

/-- There is a full source exactly if there is a closure. -/
lemma exists_sourceWithFragments_iff :
    (∃ text, d.sourceWithFragments op = .ok text) ↔ ∃ fs, d.referencedFragments op = .ok fs := by
  rw [sourceWithFragments_eq]
  cases d.referencedFragments op <;> simp [Except.map]

/-- **The closure of an operation is exact.**  Following spreads comes to an end with the closure
as its one outcome, also where fragments spread each other in cycles; there is a closure exactly
if every reachable name is bound; the closure then holds the fragments with reachable names, each
once, and no others.  The full source exists under the same condition, and is that of the
operation followed by those of the closure in order, each behind a line feed.

**Proof sketch.** The closure is a walk (`referencedFragments_eq_walk`) that starts with nothing
visited, so that every fragment it ends with was visited on the way: its spreads are visited at
the end (`walk_closed`), and an induction on reachability finds every reachable name there.  The
converse is `reaches_of_walk`, and a walk that fails has met a reachable name that is not bound
(`reaches_of_walk_error`). -/
theorem referencedFragments_exact (hd : d.Decoded) (op : Operation) :
    (∀ outcome, d.registry.Visits [] op.selectionSet.spreadNames outcome ↔
      outcome = d.referencedFragments op) ∧
    ((∃ fs, d.referencedFragments op = .ok fs) ↔
      ∀ name, d.Reachable op name → name ∈ d.registry.keys) ∧
    (∀ fs, d.referencedFragments op = .ok fs →
      (fs.map Fragment.name).Nodup ∧
      ∀ f, f ∈ fs ↔ f ∈ d.registry.fragments ∧ d.Reachable op f.name) ∧
    ((∃ text, d.sourceWithFragments op = .ok text) ↔
      ∀ name, d.Reachable op name → name ∈ d.registry.keys) ∧
    ∀ fs, d.referencedFragments op = .ok fs →
      d.sourceWithFragments op =
        .ok (op.source ++ String.join (fs.map fun f => "\n" ++ f.source)) := by
  have hr := hd.registry_wellFormed
  refine ⟨fun outcome => ?_, exists_referencedFragments_iff hr, fun fs h => ⟨?_, fun f => ?_⟩,
    exists_sourceWithFragments_iff.trans (exists_referencedFragments_iff hr), fun fs h => ?_⟩
  · rw [referencedFragments_eq_walk]
    exact visits_iff hr (List.nil_subset _)
  · rw [referencedFragments_eq_walk] at h
    exact nodup_of_walk hr h List.nodup_nil
  · exact mem_referencedFragments_iff hr h
  · rw [sourceWithFragments_eq, h]
    rfl

/-- A set of spreads and nothing else. -/
def spreading (names : List String) : SelectionSet :=
  ⟨[], names.map fun name => .leaf (.fragmentSpread ⟨name⟩ none)⟩

/-- A set of spreads spreads their names, each of them once. -/
@[simp] lemma spreadNames_spreading (names : List String) :
    (spreading names).spreadNames = names.foldl addName [] := by
  rw [spreading, SelectionSet.spreadNames]
  generalize ([] : List String) = found
  induction names generalizing found with
  | nil => rfl
  | cons name names ih => exact ih (addName found name)

/-- The payload of a set of spreads. -/
def spreadingPayload (names : List String) : Json :=
  .arr [.arr [], .arr <| names.map fun name =>
    .obj [("kind", .str "FragmentSpread"), ("fragmentName", .str name)]]

/-- An operation that spreads `A`. -/
def cyclicOperation : Operation := ⟨"Q", .query, "Query", "q", "query", [], spreading ["A"]⟩

/-- A document whose fragments spread each other, and one of them itself. -/
def cyclic : Document :=
  ⟨[cyclicOperation],
    ⟨[("A", ⟨"A", "a", "fragment A", spreading ["B"]⟩),
      ("B", ⟨"B", "b", "fragment B", spreading ["A", "B"]⟩)]⟩, []⟩

/-- The payload of `cyclic`, with every record as an array of its fields. -/
def cyclicPayload : Json :=
  .arr [
    .arr [.arr [.str "Q", .str "query", .str "Query", .str "q", .str "query", .arr [],
      spreadingPayload ["A"]]],
    .arr [.arr [.str "A", .str "a", .str "fragment A", spreadingPayload ["B"]],
      .arr [.str "B", .str "b", .str "fragment B", spreadingPayload ["A", "B"]]],
    .arr []]

/-- `referencedFragments_exact` where fragments spread each other in a cycle: the closure holds
both, and so both are all that is reachable. -/
theorem reachable_cyclic :
    cyclic.Decoded ∧
      cyclic.referencedFragments cyclicOperation = .ok cyclic.registry.fragments ∧
      ∀ name, cyclic.Reachable cyclicOperation name → name ∈ cyclic.registry.keys := by
  have hd : cyclic.Decoded := .ofJson cyclicPayload (by rfl)
  have hfs : cyclic.referencedFragments cyclicOperation = .ok cyclic.registry.fragments := by
    simp [referencedFragments, cyclicOperation, cyclic, follow, takeNamed?, addName, Except.map,
      FragmentRegistry.fragments]
  exact ⟨hd, hfs, (referencedFragments_exact hd cyclicOperation).2.1.1 ⟨_, hfs⟩⟩

end Document

end QueryPayload
