import Mathlib.Data.List.Lex
import Mathlib.Data.List.Perm.Subperm
import Mathlib.Data.Nat.Find
import Mathlib.Order.Bounds.Basic
import Mathlib.Tactic.Lemma
import QueryPayload.Proofs.Document.Reachability

/-!
# The order of the closure

A fragment is found by following references: one of the names that the operation spreads, then one
of the names spread by the fragment of that name, and so on.  The positions taken on the way are a
path to the fragment, and paths are ordered as words are in a dictionary.  The closure of an
operation lists its fragments in the order of the least paths to them, and where there is no
closure, the name reported is the one with the least path among all that are not bound.

## Main definitions

* `FragmentRegistry.PathTo` — a path from some names to a name, with the names passed before it.
* `FragmentRegistry.LeastPath` — the least of all paths to a name.
* `FragmentRegistry.Traced` — what is known half-way of a walk whose names carry their paths.

## Main results

* `FragmentRegistry.reaches_iff_exists_leastPath` — the names reached are those with a least path.
* `FragmentRegistry.Traced.exists_le` — no path to a name yet unvisited evades the names to follow.
* `FragmentRegistry.Traced.visit` — one step of the walk keeps what is known.
* `FragmentRegistry.Traced.of_walk`, `leastPath_of_walk_error` — a whole walk, by induction.
* `Document.referencedFragments_in_order` — the order of the closure, and the first error.

## Implementation notes

A path passes no name twice.  Without this condition a cycle could be run through any number of
times, and a name behind it would have paths, each less than the one before, and no least one.

The definition of paths does not mention the walk, which skips names for having been visited on
*other* paths.  That this hides no smaller path is `Traced.exists_le`: on its way to a name that is
not visited, a path leaves the visited fragments somewhere, and there it is no less than the path
that the walk itself has kept for the name behind.
-/

set_option relaxedAutoImplicit false
set_option autoImplicit false

namespace QueryPayload

/-! ## The order of paths -/

/-- A path less than another one is a beginning of it, or stays less however it goes on. -/
lemma isPrefix_or_append_lt {p q : List ℕ} (h : p < q) : p <+: q ∨ ∀ more, p ++ more < q := by
  induction p generalizing q with
  | nil => exact Or.inl List.nil_prefix
  | cons i p ih =>
    cases h with
    | rel hij => exact Or.inr fun more => List.Lex.rel hij
    | @cons _ _ q hpq =>
      rcases ih hpq with hpre | hlt
      · exact Or.inl (List.cons_prefix_cons.2 ⟨rfl, hpre⟩)
      · exact Or.inr fun more => List.Lex.cons (hlt more)

/-- A path is less than what goes on from it. -/
lemma lt_append_singleton (p : List ℕ) (i : ℕ) : p < p ++ [i] := by
  have h : List.Lex (· < ·) (p ++ []) (p ++ [i]) := List.Lex.append_left _ List.Lex.nil p
  rwa [List.append_nil] at h

/-- Of some paths of bounded length one is the least.

**Proof sketch.** Induction on the bound.  If the empty path is there, it is the least; otherwise
take the least first position, and behind it the least of what follows it. -/
lemma exists_isLeast_of_length_le {n : ℕ} {paths : Set (List ℕ)} (hne : paths.Nonempty)
    (hlen : ∀ p ∈ paths, p.length ≤ n) : ∃ p, IsLeast paths p := by
  induction n generalizing paths with
  | zero =>
    obtain ⟨p, hp⟩ := hne
    obtain rfl : p = [] := List.length_eq_zero_iff.1 (Nat.le_zero.1 (hlen p hp))
    exact ⟨[], hp, fun q hq => (List.length_eq_zero_iff.1 (Nat.le_zero.1 (hlen q hq))).ge⟩
  | succ n ih =>
    by_cases hnil : [] ∈ paths
    · refine ⟨[], hnil, fun q _ => ?_⟩
      cases q with
      | nil => exact le_rfl
      | cons i q => exact le_of_lt List.Lex.nil
    · have hfirst : ∃ i q, i :: q ∈ paths := by
        obtain ⟨p, hp⟩ := hne
        cases p with
        | nil => exact absurd hp hnil
        | cons i q => exact ⟨i, q, hp⟩
      classical
      have hrest : {q | Nat.find hfirst :: q ∈ paths}.Nonempty := Nat.find_spec hfirst
      obtain ⟨p, hp, hleast⟩ := ih hrest fun q hq => Nat.le_of_succ_le_succ (hlen _ hq)
      refine ⟨Nat.find hfirst :: p, hp, fun q hq => ?_⟩
      cases q with
      | nil => exact absurd hq hnil
      | cons j q =>
        rcases (Nat.find_min' hfirst ⟨q, hq⟩).lt_or_eq with hlt | heq
        · exact le_of_lt (List.Lex.rel hlt)
        · subst heq
          exact List.cons_le_cons _ (hleast hq)

namespace FragmentRegistry

variable {r : FragmentRegistry} {names passed : List String} {name : String} {path : List ℕ}
  {f : Fragment}

/-! ## Paths -/

/-- Following `path` from some names, the first position among these and each further one among
the names spread by the fragment reached so far, leads to `name` and before it through the names
of `passed`, the last one first.  No name is met twice. -/
inductive PathTo (r : FragmentRegistry) (names : List String) :
    List ℕ → String → List String → Prop where
  | direct {i : ℕ} {name : String} (h : names[i]? = some name) : PathTo r names [i] name []
  | through {path : List ℕ} {f : Fragment} {passed : List String} {i : ℕ} {name : String}
      (hf : f ∈ r.fragments) (hpath : PathTo r names path f.name passed)
      (h : f.selectionSet.spreadNames[i]? = some name) (hnew : name ∉ f.name :: passed) :
      PathTo r names (path ++ [i]) name (f.name :: passed)

/-- The least of all paths to a name. -/
def LeastPath (r : FragmentRegistry) (names : List String) (path : List ℕ) (name : String) :
    Prop :=
  IsLeast {q | ∃ passed, r.PathTo names q name passed} path

namespace PathTo

/-- A path takes a position at least. -/
lemma ne_nil (h : r.PathTo names path name passed) : path ≠ [] := by
  cases h <;> simp

/-- A path takes one position for each name it meets. -/
lemma length_eq (h : r.PathTo names path name passed) : path.length = passed.length + 1 := by
  induction h with
  | direct h => rfl
  | through hf hpath h hnew ih => simp [ih]

/-- A path meets no name twice. -/
lemma nodup (h : r.PathTo names path name passed) : (name :: passed).Nodup := by
  induction h with
  | direct h => exact List.nodup_singleton _
  | through hf hpath h hnew ih => exact List.nodup_cons.2 ⟨hnew, ih⟩

/-- The names passed on a path are bound. -/
lemma subset_keys (hr : r.WellFormed) (h : r.PathTo names path name passed) :
    passed ⊆ r.keys := by
  induction h with
  | direct h => exact List.nil_subset _
  | through hf hpath h hnew ih => exact List.cons_subset.2 ⟨hr.mem_keys_iff.2 ⟨_, hf, rfl⟩, ih⟩

/-- Names are reached on paths. -/
lemma reaches (h : r.PathTo names path name passed) : r.Reaches names name := by
  induction h with
  | direct h => exact .direct (List.mem_of_getElem? h)
  | through hf hpath h hnew ih => exact .through hf ih (List.mem_of_getElem? h)

/-- There is a path to every name that is passed on a path. -/
lemma exists_of_mem_passed (h : r.PathTo names path name passed) {n : String} (hn : n ∈ passed) :
    ∃ path' passed', r.PathTo names path' n passed' := by
  induction h with
  | direct h => exact absurd hn List.not_mem_nil
  | through hf hpath h hnew ih =>
    rcases List.mem_cons.1 hn with rfl | hn
    · exact ⟨_, _, hpath⟩
    · exact ih hn

/-- A path leads to one name, and through the same names. -/
lemma unique (hr : r.WellFormed) (h : r.PathTo names path name passed) {name' : String}
    {passed' : List String} (h' : r.PathTo names path name' passed') :
    name = name' ∧ passed = passed' := by
  induction h generalizing name' passed' with
  | @direct i name h =>
    generalize hpath : [i] = path at h'
    cases h' with
    | direct h'' =>
      obtain rfl := List.singleton_inj.1 hpath
      exact ⟨Option.some.inj (h.symm.trans h''), rfl⟩
    | @through path _ _ j _ _ hpath' =>
      have hnil : path = [] := by simpa using congrArg List.length hpath
      exact absurd hnil hpath'.ne_nil
  | @through path f passed i name hf hpath h hnew ih =>
    generalize hq : path ++ [i] = q at h'
    cases h' with
    | direct h'' =>
      have hnil : path = [] := by simpa using congrArg List.length hq
      exact absurd hnil hpath.ne_nil
    | through hf' hpath' h'' =>
      obtain ⟨rfl, hi⟩ := List.append_inj' hq rfl
      obtain rfl := List.singleton_inj.1 hi
      obtain ⟨hname, rfl⟩ := ih hpath'
      obtain rfl := hr.eq_of_name_eq hf hf' hname
      exact ⟨Option.some.inj (h.symm.trans h''), rfl⟩

/-- A path that goes on from another one passes the name which that one leads to. -/
lemma mem_passed_of_append (hr : r.WellFormed) (h : r.PathTo names path name passed)
    {more : List ℕ} (hmore : more ≠ []) {name' : String} {passed' : List String}
    (h' : r.PathTo names (path ++ more) name' passed') : name ∈ passed' := by
  generalize hq : path ++ more = q at h'
  induction h' generalizing more with
  | direct h' =>
    have hlen := congrArg List.length hq
    have hpath := List.length_pos_iff.2 h.ne_nil
    have hmore := List.length_pos_iff.2 hmore
    simp only [List.length_append, List.length_singleton] at hlen
    omega
  | @through path' f passed' i name' hf hpath' h' hnew ih =>
    obtain ⟨more, j, rfl⟩ := (List.eq_nil_or_concat' more).resolve_left hmore
    rw [← List.append_assoc] at hq
    obtain ⟨hq, -⟩ := List.append_inj' hq rfl
    by_cases hnil : more = []
    · subst hnil
      rw [List.append_nil] at hq
      subst hq
      rw [(h.unique hr hpath').1]
      exact List.mem_cons_self
    · exact List.mem_cons_of_mem _ (ih hnil hq)

end PathTo

/-- A name that is reached has a path: the one to the fragment that spreads it, and one position
more, unless that path has passed the name before. -/
lemma exists_pathTo_of_reaches (h : r.Reaches names name) :
    ∃ path passed, r.PathTo names path name passed := by
  induction h with
  | direct h =>
    obtain ⟨i, hi⟩ := List.getElem?_of_mem h
    exact ⟨_, _, .direct hi⟩
  | @through f name hf _ h ih =>
    obtain ⟨path, passed, hpath⟩ := ih
    obtain ⟨i, hi⟩ := List.getElem?_of_mem h
    by_cases hname : name ∈ f.name :: passed
    · rcases List.mem_cons.1 hname with rfl | hpassed
      · exact ⟨_, _, hpath⟩
      · exact hpath.exists_of_mem_passed hpassed
    · exact ⟨_, _, .through hf hpath hi hname⟩

/-- **The names that are reached are those with a least path.** -/
theorem reaches_iff_exists_leastPath (hr : r.WellFormed) :
    r.Reaches names name ↔ ∃ path, r.LeastPath names path name := by
  constructor
  · intro h
    refine exists_isLeast_of_length_le (n := r.keys.length + 1) (exists_pathTo_of_reaches h) ?_
    rintro path ⟨passed, hpath⟩
    have hlen := (hpath.nodup.of_cons.subperm (hpath.subset_keys hr)).length_le
    rw [hpath.length_eq]
    omega
  · rintro ⟨path, ⟨passed, hpath⟩, -⟩
    exact hpath.reaches

/-- What goes on from the least path to a name by one position is no more than what goes on from
any other path to it by the same position. -/
lemma LeastPath.append_le (hr : r.WellFormed) (h : r.LeastPath names path name)
    {path' : List ℕ} {passed : List String} (h' : r.PathTo names path' name passed) (i : ℕ) :
    path ++ [i] ≤ path' ++ [i] := by
  obtain ⟨⟨passed', hpath⟩, hleast⟩ := h
  rcases (hleast ⟨passed, h'⟩ : path ≤ path').eq_or_lt with rfl | hlt
  · exact le_rfl
  · rcases isPrefix_or_append_lt hlt with ⟨more, rfl⟩ | hbefore
    · -- the other path would meet the name a second time
      have hmore : more ≠ [] := by
        rintro rfl
        simp at hlt
      have hmem := hpath.mem_passed_of_append hr hmore h'
      exact absurd hmem (List.nodup_cons.1 h'.nodup).1
    · exact le_of_lt ((hbefore [i]).trans (lt_append_singleton path' i))

/-! ## Walks with paths -/

/-- The names that follow a path, each with its own position behind the path. -/
def branches (path : List ℕ) (names : List String) : List (List ℕ × String) :=
  names.zipIdx.map fun e => (path ++ [e.2], e.1)

/-- The names of the branches. -/
@[simp] lemma map_snd_branches (path : List ℕ) (names : List String) :
    (branches path names).map (·.2) = names := by
  simp [branches, Function.comp_def]

/-- The branches, by their positions. -/
lemma mem_branches_iff {e : List ℕ × String} :
    e ∈ branches path names ↔ ∃ i, names[i]? = some e.2 ∧ e.1 = path ++ [i] := by
  obtain ⟨p, n⟩ := e
  simp only [branches, List.mem_map, Prod.exists, List.mem_zipIdx_iff_getElem?, Prod.mk.injEq]
  constructor
  · rintro ⟨n', i, h, rfl, rfl⟩
    exact ⟨i, h, rfl⟩
  · rintro ⟨i, h, rfl⟩
    exact ⟨n, i, h, rfl, rfl⟩

/-- Branches are in order, however they go on. -/
lemma pairwise_branches (path : List ℕ) (names : List String) :
    (branches path names).Pairwise fun e e' => ∀ more, e.1 ++ more < e'.1 := by
  rw [List.pairwise_iff_getElem]
  intro i j hi hj hij more
  simp only [branches, List.getElem_map, List.getElem_zipIdx, Nat.zero_add, List.append_assoc]
  exact List.Lex.append_left _ (List.Lex.rel hij) path

/-- A name that stands at a path has been visited or is to be followed with this path. -/
def Met (visited : List Fragment) (todo : List (List ℕ × String)) (path : List ℕ)
    (name : String) : Prop :=
  name ∈ visited.map Fragment.name ∨ (path, name) ∈ todo

/-- What is known half-way of a walk from some names, when some fragments have been visited and
the names still to be followed are given with paths to them. -/
structure Traced (r : FragmentRegistry) (names : List String) (visited : List Fragment)
    (todo : List (List ℕ × String)) : Prop where
  /-- The fragments visited are those of the registry. -/
  subset : visited ⊆ r.fragments
  /-- The fragments visited are in the order of the least paths to them. -/
  ordered : visited.Pairwise fun f g =>
    ∀ p q, r.LeastPath names p f.name → r.LeastPath names q g.name → p < q
  /-- The least path to a fragment visited is less than those to the names to follow, and what the
  fragment spreads is visited or to be followed behind this path. -/
  followed : ∀ f ∈ visited, ∃ p, r.LeastPath names p f.name ∧ (∀ e ∈ todo, p < e.1) ∧
    ∀ i name, f.selectionSet.spreadNames[i]? = some name → Met visited todo (p ++ [i]) name
  /-- The names from which the walk began are visited or to be followed. -/
  begun : ∀ i name, names[i]? = some name → Met visited todo [i] name
  /-- The names to follow are in the order of their paths, however these go on. -/
  sorted : todo.Pairwise fun e e' => ∀ more, e.1 ++ more < e'.1
  /-- The path to a name that is not visited passes names of visited fragments only. -/
  led : ∀ e ∈ todo, e.2 ∉ visited.map Fragment.name →
    ∃ passed ⊆ visited.map Fragment.name, r.PathTo names e.1 e.2 passed

namespace Traced

variable {visited out : List Fragment} {todo : List (List ℕ × String)} {e : List ℕ × String}

/-- A walk begins with nothing visited and all names to follow. -/
lemma start (r : FragmentRegistry) (names : List String) :
    r.Traced names [] (branches [] names) where
  subset := List.nil_subset _
  ordered := List.Pairwise.nil
  followed := fun f hf => absurd hf List.not_mem_nil
  begun := fun i name h => Or.inr (mem_branches_iff.2 ⟨i, h, rfl⟩)
  sorted := pairwise_branches [] names
  led := by
    intro e he _
    obtain ⟨i, hi, hpath⟩ := mem_branches_iff.1 he
    rw [hpath]
    exact ⟨[], List.nil_subset _, .direct hi⟩

/-- **No path evades the names to follow**: one that leads to a name which is not visited is no
less than the path kept for one of them.

**Proof sketch.** Induction on the path, from its end.  If the fragment that spreads the name is
not visited either, the path to this fragment is no less already.  If it is visited, the name is to
be followed behind the least path to it (`LeastPath.append_le`). -/
theorem exists_le (hr : r.WellFormed) (h : r.Traced names visited todo)
    (hpath : r.PathTo names path name passed) (hfree : name ∉ visited.map Fragment.name) :
    ∃ e ∈ todo, e.1 ≤ path := by
  induction hpath with
  | @direct i name hi => exact ⟨_, (h.begun i name hi).resolve_left hfree, le_rfl⟩
  | @through path f passed i name hf hpath hi hnew ih =>
    by_cases hvisited : f.name ∈ visited.map Fragment.name
    · obtain ⟨g, hg, hgf⟩ := List.mem_map.1 hvisited
      obtain rfl := hr.eq_of_name_eq (h.subset hg) hf hgf
      obtain ⟨p, hp, -, hspreads⟩ := h.followed g hg
      exact ⟨_, (hspreads i name hi).resolve_left hfree, hp.append_le hr hpath i⟩
    · obtain ⟨e, he, hle⟩ := ih hvisited
      exact ⟨e, he, hle.trans (lt_append_singleton path i).le⟩

/-- The first path kept is no more than any path to a name that is not visited. -/
lemma head_le (hr : r.WellFormed) (h : r.Traced names visited (e :: todo))
    (hpath : r.PathTo names path name passed) (hfree : name ∉ visited.map Fragment.name) :
    e.1 ≤ path := by
  obtain ⟨e', he', hle⟩ := h.exists_le hr hpath hfree
  rcases List.mem_cons.1 he' with rfl | he'
  · exact hle
  · have hlt := List.rel_of_pairwise_cons h.sorted he' []
    rw [List.append_nil] at hlt
    exact hlt.le.trans hle

/-- The first path kept is the least one to its name, if that is not visited. -/
lemma leastPath_head (hr : r.WellFormed) (h : r.Traced names visited (e :: todo))
    (hfree : e.2 ∉ visited.map Fragment.name) : r.LeastPath names e.1 e.2 := by
  obtain ⟨passed, -, hpath⟩ := h.led e List.mem_cons_self hfree
  refine ⟨⟨passed, hpath⟩, ?_⟩
  rintro q ⟨passed', hq⟩
  exact h.head_le hr hq hfree

/-- Passing over the name of a visited fragment keeps what is known. -/
lemma skip (h : r.Traced names visited (e :: todo)) (hseen : e.2 ∈ visited.map Fragment.name) :
    r.Traced names visited todo := by
  have hmet : ∀ path name, Met visited (e :: todo) path name → Met visited todo path name := by
    rintro path name (hmem | hmem)
    · exact Or.inl hmem
    · rcases List.mem_cons.1 hmem with rfl | hmem
      · exact Or.inl hseen
      · exact Or.inr hmem
  refine ⟨h.subset, h.ordered, fun f hf => ?_, fun i name hi => hmet _ _ (h.begun i name hi),
    h.sorted.of_cons, fun e' he' => h.led e' (List.mem_cons_of_mem _ he')⟩
  obtain ⟨p, hp, hlt, hspreads⟩ := h.followed f hf
  exact ⟨p, hp, fun e' he' => hlt e' (List.mem_cons_of_mem _ he'),
    fun i name hi => hmet _ _ (hspreads i name hi)⟩

/-- **Visiting a fragment for the first time keeps what is known**: its name is replaced by those
it spreads, with paths that go on from its own. -/
theorem visit (hr : r.WellFormed) (h : r.Traced names visited ((path, f.name) :: todo))
    (hf : f ∈ r.fragments) (hfree : f.name ∉ visited.map Fragment.name) :
    r.Traced names (visited ++ [f]) (branches path f.selectionSet.spreadNames ++ todo) := by
  have hleast : r.LeastPath names path f.name := h.leastPath_head hr hfree
  have hbefore : ∀ e ∈ todo, ∀ more, path ++ more < e.1 :=
    fun e he => List.rel_of_pairwise_cons h.sorted he
  have hlt : ∀ e ∈ branches path f.selectionSet.spreadNames ++ todo, path < e.1 := by
    intro e he
    rcases List.mem_append.1 he with he | he
    · obtain ⟨i, -, hpath⟩ := mem_branches_iff.1 he
      exact hpath ▸ lt_append_singleton path i
    · simpa using hbefore e he []
  have hnames : (visited ++ [f]).map Fragment.name = visited.map Fragment.name ++ [f.name] := by
    simp
  -- what was to be followed is the name of `f`, which is visited now, or still to be followed
  have hmet : ∀ p name, Met visited ((path, f.name) :: todo) p name →
      Met (visited ++ [f]) (branches path f.selectionSet.spreadNames ++ todo) p name := by
    rintro p name (hmem | hmem)
    · exact Or.inl (hnames ▸ List.mem_append_left _ hmem)
    · rcases List.mem_cons.1 hmem with heq | hmem
      · cases heq
        exact Or.inl (by simp)
      · exact Or.inr (List.mem_append_right _ hmem)
  constructor
  case subset => exact append_singleton_subset h.subset hf
  case ordered =>
    refine List.pairwise_append.2 ⟨h.ordered, List.pairwise_singleton _ _, ?_⟩
    intro g hg f' hf' p q hp hq
    obtain rfl := List.mem_singleton.1 hf'
    obtain ⟨p', hp', hlt, -⟩ := h.followed g hg
    rw [hp.unique hp', hq.unique hleast]
    exact hlt _ List.mem_cons_self
  case followed =>
    intro g hg
    rcases List.mem_append.1 hg with hg | hg
    · obtain ⟨p, hp, hltp, hspreads⟩ := h.followed g hg
      have hp' : p < path := hltp _ List.mem_cons_self
      exact ⟨p, hp, fun e he => hp'.trans (hlt e he),
        fun i name hi => hmet _ _ (hspreads i name hi)⟩
    · obtain rfl := List.mem_singleton.1 hg
      exact ⟨path, hleast, hlt, fun i name hi =>
        Or.inr (List.mem_append_left _ (mem_branches_iff.2 ⟨i, hi, rfl⟩))⟩
  case begun => exact fun i name hi => hmet _ _ (h.begun i name hi)
  case sorted =>
    refine List.pairwise_append.2 ⟨pairwise_branches _ _, h.sorted.of_cons, ?_⟩
    intro e he e' he' more
    obtain ⟨i, -, hpath⟩ := mem_branches_iff.1 he
    rw [hpath, List.append_assoc]
    exact hbefore e' he' _
  case led =>
    intro e he hnew
    rw [hnames, List.mem_append, List.mem_singleton, not_or] at hnew
    rw [hnames]
    rcases List.mem_append.1 he with he | he
    · obtain ⟨i, hi, hpath⟩ := mem_branches_iff.1 he
      obtain ⟨passed, hpassed, hto⟩ := h.led _ List.mem_cons_self hfree
      refine ⟨f.name :: passed, ?_, hpath ▸ .through hf hto hi ?_⟩
      · exact List.cons_subset.2 ⟨by simp, List.subset_append_of_subset_left _ hpassed⟩
      · exact fun hmem => (List.mem_cons.1 hmem).elim hnew.2 fun hmem => hnew.1 (hpassed hmem)
    · obtain ⟨passed, hpassed, hto⟩ := h.led e (List.mem_cons_of_mem _ he) hnew.1
      exact ⟨passed, List.subset_append_of_subset_left _ hpassed, hto⟩

/-- **What is known at the end of a walk**: nothing is left to follow. -/
theorem of_walk (hr : r.WellFormed) (h : r.Traced names visited todo)
    (hout : r.walk visited (todo.map (·.2)) = .ok out) : r.Traced names out [] := by
  generalize hnames : todo.map (·.2) = following at hout
  induction visited, following using walk_induction hr generalizing todo with
  | nil visited =>
    rw [walk_nil] at hout
    cases hout
    rwa [List.map_eq_nil_iff.1 hnames] at h
  | seen visited name following hseen ih =>
    obtain ⟨e, todo, rfl, rfl, rfl⟩ := List.map_eq_cons_iff.1 hnames
    exact ih (h.skip hseen) rfl (walk_visited hseen ▸ hout)
  | dangling visited name following hfree hkey =>
    rw [walk_dangling hfree hkey] at hout
    cases hout
  | visit visited f following hf hfree ih =>
    obtain ⟨⟨path, name⟩, todo, rfl, rfl, rfl⟩ := List.map_eq_cons_iff.1 hnames
    rw [walk_visit hr hf hfree] at hout
    exact ih _ _ List.prefix_rfl (h.visit hr hf hfree) (by simp) hout

/-- **Where a walk fails** the name has a least path, and every path to another name that is not
bound is greater. -/
theorem leastPath_of_walk_error (hr : r.WellFormed) (h : r.Traced names visited todo)
    {dangling : DanglingReference} (herr : r.walk visited (todo.map (·.2)) = .error dangling) :
    ∃ p, r.LeastPath names p dangling.name ∧
      ∀ name q, name ∉ r.keys → name ≠ dangling.name → r.LeastPath names q name → p < q := by
  generalize hnames : todo.map (·.2) = following at herr
  induction visited, following using walk_induction hr generalizing todo with
  | nil visited =>
    rw [walk_nil] at herr
    cases herr
  | seen visited name following hseen ih =>
    obtain ⟨e, todo, rfl, rfl, rfl⟩ := List.map_eq_cons_iff.1 hnames
    exact ih (h.skip hseen) rfl (walk_visited hseen ▸ herr)
  | dangling visited name following hfree hkey =>
    obtain ⟨e, todo, rfl, rfl, rfl⟩ := List.map_eq_cons_iff.1 hnames
    rw [walk_dangling hfree hkey] at herr
    cases herr
    refine ⟨e.1, h.leastPath_head hr hfree, fun name q hname hne hq => ?_⟩
    obtain ⟨⟨passed, hpath⟩, -⟩ := h.leastPath_head hr hfree
    obtain ⟨⟨passed', hpath'⟩, -⟩ := hq
    have hunvisited : name ∉ visited.map Fragment.name := by
      intro hmem
      obtain ⟨g, hg, rfl⟩ := List.mem_map.1 hmem
      exact hname (hr.mem_keys_iff.2 ⟨g, h.subset hg, rfl⟩)
    refine (h.head_le hr hpath' hunvisited).lt_of_ne ?_
    rintro rfl
    exact hne (hpath'.unique hr hpath).1
  | visit visited f following hf hfree ih =>
    obtain ⟨⟨path, name⟩, todo, rfl, rfl, rfl⟩ := List.map_eq_cons_iff.1 hnames
    rw [walk_visit hr hf hfree] at herr
    exact ih _ _ List.prefix_rfl (h.visit hr hf hfree) (by simp) herr

end Traced

end FragmentRegistry

/-! ## The closure of an operation -/

namespace Document

open FragmentRegistry

variable {d : Document}

/-- The least path on which references lead from an operation to a name. -/
def LeastPath (d : Document) (op : Operation) (path : List ℕ) (name : String) : Prop :=
  d.registry.LeastPath op.selectionSet.spreadNames path name

/-- **The closure of an operation is in the order of the least paths to its fragments**, where the
names with a least path are those that are reachable.  If there is no closure, the name reported is
one that is not bound, and the least path to it is less than that to any other name that is not
bound.

**Proof sketch.** The closure is a walk along the names that the operation spreads, and these begin
with their own positions as paths (`Traced.start`).  From there what is known is carried to the end
of the walk (`Traced.of_walk`), or to the name where it fails (`Traced.leastPath_of_walk_error`). -/
theorem referencedFragments_in_order (hd : d.Decoded) (op : Operation) :
    (∀ name, d.Reachable op name ↔ ∃ path, d.LeastPath op path name) ∧
    (∀ fs, d.referencedFragments op = .ok fs →
      (∀ f ∈ fs, ∃ path, d.LeastPath op path f.name) ∧
      fs.Pairwise fun f g => ∀ p q, d.LeastPath op p f.name → d.LeastPath op q g.name → p < q) ∧
    ∀ e, d.referencedFragments op = .error e →
      e.name ∉ d.registry.keys ∧
      ∃ p, d.LeastPath op p e.name ∧
        ∀ name q, name ∉ d.registry.keys → name ≠ e.name → d.LeastPath op q name → p < q := by
  have hr := hd.registry_wellFormed
  have hstart := Traced.start d.registry op.selectionSet.spreadNames
  have hnames := map_snd_branches [] op.selectionSet.spreadNames
  refine ⟨fun name => reaches_iff_exists_leastPath hr, fun fs h => ?_, fun e h => ?_⟩
  · rw [referencedFragments_eq_walk, ← hnames] at h
    have hend := hstart.of_walk hr h
    refine ⟨fun f hf => ?_, hend.ordered⟩
    obtain ⟨path, hpath, -⟩ := hend.followed f hf
    exact ⟨path, hpath⟩
  · rw [referencedFragments_eq_walk, ← hnames] at h
    exact ⟨(reaches_of_walk_error hr h).2, hstart.leastPath_of_walk_error hr h⟩

/-- A document in which `B` is spread by `C` below `A`, and `D` spreads a fragment that is not
defined; `A` and `D` spread themselves. -/
def shared : Document :=
  ⟨[], ⟨[("A", ⟨"A", "a", "fragment A", spreading ["C", "A"]⟩),
    ("B", ⟨"B", "b", "fragment B", spreading []⟩),
    ("C", ⟨"C", "c", "fragment C", spreading ["B"]⟩),
    ("D", ⟨"D", "d", "fragment D", spreading ["D", "Y"]⟩)]⟩, []⟩

/-- The payload of `shared`, with every record as an array of its fields. -/
def sharedPayload : Json :=
  .arr [.arr [],
    .arr [.arr [.str "A", .str "a", .str "fragment A", spreadingPayload ["C", "A"]],
      .arr [.str "B", .str "b", .str "fragment B", spreadingPayload []],
      .arr [.str "C", .str "c", .str "fragment C", spreadingPayload ["B"]],
      .arr [.str "D", .str "d", .str "fragment D", spreadingPayload ["D", "Y"]]],
    .arr []]

/-- An operation that spreads fragments of the given names. -/
def spreadingOperation (names : List String) : Operation :=
  ⟨"Q", .query, "Query", "q", "query", [], spreading names⟩

/-- `referencedFragments_in_order` where a fragment is reached first on the longer one of two paths,
and where a name that is not bound is met below a fragment before another one beside it. -/
theorem referencedFragments_in_order_shared :
    shared.Decoded ∧
      (shared.referencedFragments (spreadingOperation ["A", "B"])).map (·.map Fragment.name) =
        .ok ["A", "C", "B"] ∧
      (∀ p q, shared.LeastPath (spreadingOperation ["A", "B"]) p "C" →
        shared.LeastPath (spreadingOperation ["A", "B"]) q "B" → p < q) ∧
      shared.referencedFragments (spreadingOperation ["D", "X"]) = .error ⟨"Y"⟩ ∧
      ∃ p, shared.LeastPath (spreadingOperation ["D", "X"]) p "Y" ∧
        ∀ q, shared.LeastPath (spreadingOperation ["D", "X"]) q "X" → p < q := by
  have hd : shared.Decoded := .ofJson sharedPayload (by rfl)
  have hfs : shared.referencedFragments (spreadingOperation ["A", "B"]) =
      .ok [⟨"A", "a", "fragment A", spreading ["C", "A"]⟩,
        ⟨"C", "c", "fragment C", spreading ["B"]⟩, ⟨"B", "b", "fragment B", spreading []⟩] := by
    simp [referencedFragments, spreadingOperation, shared, follow, takeNamed?, addName, Except.map]
  have herr : shared.referencedFragments (spreadingOperation ["D", "X"]) = .error ⟨"Y"⟩ := by
    simp [referencedFragments, spreadingOperation, shared, follow, takeNamed?, addName, Except.map]
  obtain ⟨-, hordered⟩ := (referencedFragments_in_order hd _).2.1 _ hfs
  obtain ⟨-, p, hp, hless⟩ := (referencedFragments_in_order hd _).2.2 _ herr
  refine ⟨hd, by rw [hfs]; rfl, ?_, herr, p, hp, fun q => ?_⟩
  · exact List.rel_of_pairwise_cons hordered.of_cons List.mem_cons_self
  · exact hless "X" q (by decide) (by decide)

end Document

end QueryPayload
