import QueryPayload.Document.Closure
import QueryPayload.Proofs.Document.Registry

/-!
# The walk along spreads

`Document.follow` keeps what it has visited and what it has not in two lists of entries.  In a
well-formed registry the second list is determined by the first, and an entry by its fragment, so
that the walk is a function of the fragments visited and the names still to be followed.  This
module gives that function, its four equations and its induction principle; nothing behind it
needs to open `Document.follow` again.

## Main definitions

* `FragmentRegistry.walk` — the walk as a function of fragments visited and names to follow.

## Main results

* `Document.follow_of_taken`, `Document.follow_of_not_taken` — one name is followed.
* `FragmentRegistry.walk_nil`, `walk_visited`, `walk_dangling`, `walk_visit` — its equations.
* `FragmentRegistry.walk_induction` — its induction principle, which holds the measure by which
  the walk ends.
* `Document.referencedFragments_eq_walk` — the closure of an operation is a walk.
-/

set_option relaxedAutoImplicit false
set_option autoImplicit false

namespace QueryPayload

namespace Document

variable {name : String} {names : List String} {f : Fragment} {es : List (String × Fragment)}

/-- No entry is taken exactly if none has the name. -/
lemma takeNamed?_eq_none_iff : takeNamed? name es = none ↔ name ∉ es.map (·.1) := by
  induction es with
  | nil => simp [takeNamed?]
  | cons e es ih =>
    obtain ⟨key, g⟩ := e
    by_cases h : key = name
    · simp [takeNamed?, h]
    · simp [takeNamed?, h, ih, Ne.symm h]

/-- Where no name is bound twice, the entry of a name is taken and the entries of other names
are left. -/
lemma takeNamed?_of_mem (hnd : (es.map (·.1)).Nodup) (h : (name, f) ∈ es) :
    takeNamed? name es = some (f, es.filter (·.1 ≠ name)) := by
  induction es with
  | nil => exact absurd h List.not_mem_nil
  | cons e es ih =>
    obtain ⟨key, g⟩ := e
    obtain ⟨hkey, hnd⟩ := List.nodup_cons.1 hnd
    rcases List.mem_cons.1 h with heq | h
    · cases heq
      have hrest : es.filter (·.1 ≠ name) = es := List.filter_eq_self.2 fun e he => by
        have hne : e.1 ≠ name := fun heq => hkey (List.mem_map.2 ⟨e, he, heq⟩)
        simpa using hne
      rw [List.filter_cons_of_neg (by simp), hrest]
      simp [takeNamed?]
    · have hne : key ≠ name := fun heq => hkey (List.mem_map.2 ⟨_, h, heq.symm⟩)
      simp [takeNamed?, hne, ih hnd h]

variable {visited unvisited : List (String × Fragment)}

/-- A name whose entry is taken is visited, and what it spreads is followed before the other
names. -/
lemma follow_of_taken (h : takeNamed? name unvisited = some (f, es)) :
    follow visited unvisited (name :: names) =
      follow (visited ++ [(name, f)]) es (f.selectionSet.spreadNames ++ names) := by
  rw [follow]
  split
  · rename_i g es' htaken
    obtain ⟨rfl, rfl⟩ := Prod.mk.inj (Option.some.inj (h.symm.trans htaken))
    rfl
  · rename_i hnone
    exact absurd (h.symm.trans hnone) (Option.some_ne_none _)

/-- A name without an entry is passed over if it has been visited, and dangles if not. -/
lemma follow_of_not_taken (h : takeNamed? name unvisited = none) :
    follow visited unvisited (name :: names) =
      if visited.any (·.1 == name) then follow visited unvisited names else .error ⟨name⟩ := by
  rw [follow]
  split
  · rename_i g es' htaken
    exact absurd (htaken.symm.trans h) (Option.some_ne_none _)
  · rfl

end Document

namespace FragmentRegistry

variable {r : FragmentRegistry} {visited : List Fragment} {f : Fragment} {name : String}
  {names : List String}

/-- Fragments under their names. -/
def bound (fs : List Fragment) : List (String × Fragment) := fs.map fun f => (f.name, f)

/-- The entries whose names are not those of visited fragments. -/
def unvisited (r : FragmentRegistry) (visited : List Fragment) : List (String × Fragment) :=
  r.entries.filter fun e => e.1 ∉ visited.map Fragment.name

/-- The walk along some names, when some fragments have been visited. -/
def walk (r : FragmentRegistry) (visited : List Fragment) (names : List String) :
    Except DanglingReference (List Fragment) :=
  (Document.follow (bound visited) (r.unvisited visited) names).map (·.map (·.2))

/-- Binding fragments to their names loses none of them. -/
@[simp] lemma map_snd_bound (fs : List Fragment) : (bound fs).map (·.2) = fs := by
  simp [bound, Function.comp_def]

/-- One more fragment is bound behind the others. -/
lemma bound_append_singleton (fs : List Fragment) (f : Fragment) :
    bound (fs ++ [f]) = bound fs ++ [(f.name, f)] := by
  simp [bound]

/-- Whether a name is bound in the visited part of the walk. -/
lemma any_bound : (bound visited).any (·.1 == name) = true ↔ name ∈ visited.map Fragment.name := by
  simp [bound]

/-- A name is unvisited if it is a key and not that of a visited fragment. -/
lemma mem_map_fst_unvisited :
    name ∈ (r.unvisited visited).map (·.1) ↔
      name ∈ r.keys ∧ name ∉ visited.map Fragment.name := by
  rw [unvisited, keys, List.mem_map, List.mem_map]
  constructor
  · rintro ⟨e, he, rfl⟩
    obtain ⟨hmem, hfree⟩ := List.mem_filter.1 he
    exact ⟨⟨e, hmem, rfl⟩, by simpa using hfree⟩
  · rintro ⟨⟨e, he, rfl⟩, hfree⟩
    exact ⟨e, List.mem_filter.2 ⟨he, by simpa using hfree⟩, rfl⟩

/-- Visiting a fragment leaves the unvisited entries of other names. -/
lemma unvisited_append_singleton (r : FragmentRegistry) (visited : List Fragment)
    (f : Fragment) :
    r.unvisited (visited ++ [f]) = (r.unvisited visited).filter (·.1 ≠ f.name) := by
  rw [unvisited, unvisited, List.filter_filter]
  congr 1
  funext e
  rw [Bool.eq_iff_iff]
  simp [and_comm]

/-! ## The equations of the walk -/

/-- With no name to follow the walk ends. -/
lemma walk_nil : r.walk visited [] = .ok visited := by
  rw [walk, Document.follow]
  simp [Except.map]

/-- The name of a visited fragment is passed over. -/
lemma walk_visited (h : name ∈ visited.map Fragment.name) :
    r.walk visited (name :: names) = r.walk visited names := by
  have htake : Document.takeNamed? name (r.unvisited visited) = none :=
    Document.takeNamed?_eq_none_iff.2 fun hmem => (mem_map_fst_unvisited.1 hmem).2 h
  rw [walk, Document.follow_of_not_taken htake, if_pos (any_bound.2 h), walk]

/-- The walk ends with a name that is neither visited nor bound. -/
lemma walk_dangling (h : name ∉ visited.map Fragment.name) (hkey : name ∉ r.keys) :
    r.walk visited (name :: names) = .error ⟨name⟩ := by
  have htake : Document.takeNamed? name (r.unvisited visited) = none :=
    Document.takeNamed?_eq_none_iff.2 fun hmem => hkey (mem_map_fst_unvisited.1 hmem).1
  rw [walk, Document.follow_of_not_taken htake, if_neg (mt any_bound.1 h)]
  rfl

/-- An unvisited fragment is visited before the names it spreads are followed, and these before
the names behind its own. -/
lemma walk_visit (hr : r.WellFormed) (hf : f ∈ r.fragments)
    (h : f.name ∉ visited.map Fragment.name) :
    r.walk visited (f.name :: names) =
      r.walk (visited ++ [f]) (f.selectionSet.spreadNames ++ names) := by
  have hmem : (f.name, f) ∈ r.unvisited visited :=
    List.mem_filter.2 ⟨hr.mem_entries_of_mem_fragments hf, by simpa using h⟩
  have hnd : ((r.unvisited visited).map (·.1)).Nodup :=
    hr.nodup_keys.sublist (List.filter_sublist.map _)
  have htake := Document.takeNamed?_of_mem hnd hmem
  rw [walk, Document.follow_of_taken htake, walk, bound_append_singleton,
    unvisited_append_singleton]

/-! ## Induction along the walk -/

/-- Visiting a fragment of the registry for the first time leaves fewer entries unvisited. -/
lemma length_unvisited_lt (hr : r.WellFormed) (hf : f ∈ r.fragments)
    (h : f.name ∉ visited.map Fragment.name) {visited' : List Fragment}
    (hpre : visited ++ [f] <+: visited') :
    (r.unvisited visited').length < (r.unvisited visited).length := by
  have hsub : r.unvisited visited' =
      (r.unvisited visited).filter fun e => e.1 ∉ visited'.map Fragment.name := by
    rw [unvisited, unvisited, List.filter_filter]
    refine List.filter_congr fun e _ => ?_
    have hmono : e.1 ∈ visited.map Fragment.name → e.1 ∈ visited'.map Fragment.name :=
      fun hmem => List.map_subset _ (fun g hg => hpre.subset (List.mem_append_left _ hg)) hmem
    rw [Bool.eq_iff_iff]
    simpa using mt hmono
  rw [hsub, List.length_filter_lt_length_iff_exists]
  have hvisited : f.name ∈ visited'.map Fragment.name :=
    List.mem_map_of_mem (hpre.subset (by simp))
  refine ⟨(f.name, f), List.mem_filter.2 ⟨hr.mem_entries_of_mem_fragments hf, ?_⟩, ?_⟩
  · simpa using h
  · simpa using hvisited

/-- **Induction along the walk.**  What holds without names, is not changed by the name of a
visited fragment, holds where the walk ends with a dangling name, and holds at a first visit if it
holds for all names wherever that visit has been made, holds always.

**Proof sketch.** Induction on the number of unvisited entries and, for equal numbers, on the
names.  A first visit lowers the number (`length_unvisited_lt`), and nothing raises it. -/
theorem walk_induction (hr : r.WellFormed) {motive : List Fragment → List String → Prop}
    (nil : ∀ visited, motive visited [])
    (seen : ∀ visited name names, name ∈ visited.map Fragment.name →
      motive visited names → motive visited (name :: names))
    (dangling : ∀ visited name names, name ∉ visited.map Fragment.name → name ∉ r.keys →
      motive visited (name :: names))
    (visit : ∀ visited f names, f ∈ r.fragments → f.name ∉ visited.map Fragment.name →
      (∀ visited' names', visited ++ [f] <+: visited' → motive visited' names') →
      motive visited (f.name :: names))
    (visited : List Fragment) (names : List String) : motive visited names := by
  induction hn : (r.unvisited visited).length using Nat.strongRecOn
    generalizing visited names with
  | _ n ih =>
    -- a name that is passed over leaves the number as it is, but shortens the list
    induction names with
    | nil => exact nil visited
    | cons name names ihNames =>
      by_cases h : name ∈ visited.map Fragment.name
      · exact seen visited name names h ihNames
      · by_cases hkey : name ∈ r.keys
        · obtain ⟨f, hf, rfl⟩ := hr.mem_keys_iff.1 hkey
          refine visit visited f names hf h fun visited' names' hpre => ?_
          exact ih _ (hn ▸ length_unvisited_lt hr hf h hpre) visited' names' rfl
        · exact dangling visited name names h hkey

end FragmentRegistry

/-- The fragments that an operation refers to are those of a walk along the names it spreads. -/
lemma Document.referencedFragments_eq_walk (d : Document) (op : Operation) :
    d.referencedFragments op = d.registry.walk [] op.selectionSet.spreadNames := by
  have hall : d.registry.unvisited [] = d.registry.entries := by
    simp [FragmentRegistry.unvisited]
  rw [Document.referencedFragments, FragmentRegistry.walk, hall]
  rfl

end QueryPayload
