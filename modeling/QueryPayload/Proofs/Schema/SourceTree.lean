import Mathlib.Data.List.Nodup
import Mathlib.Tactic.Lemma
import QueryPayload.Proofs.Json.Source
import QueryPayload.Proofs.Related
import QueryPayload.Proofs.Schema.Readings
import QueryPayload.Schema.SourceTree

/-!
# The trees of source trees

A source tree becomes a tree of values in one of two ways, which differ in what they do with a key
that is repeated.  Both refuse everything that is not JSON, so that where there is a tree the
insides of arrays and objects are lists of parts which all have trees.

## Main definitions

* `Json.putAll` — several entries put into an object one by one.

## Main results

* `Json.Source.itemTrees_eq_ok_iff`, `entryTrees_eq_ok_iff` — the trees of the parts of a node.
* `Json.Source.tree_refused_eq_ok_iff` — refusing repeated keys leaves the trees of the values
  without any.
* `Json.Source.skipFault?_of_tree` — a value with a tree can be passed over.
-/

set_option relaxedAutoImplicit false
set_option autoImplicit false

namespace QueryPayload

namespace Json

/-! ## Putting entries into an object -/

/-- An object after some entries have been put into it, one by one. -/
def putAll (done es : List (String × Json)) : List (String × Json) :=
  es.foldl (fun done e => putEntry e.1 e.2 done) done

variable {key : String} {v : Json} {done es : List (String × Json)}

/-- Putting an entry shows among the entries of the keys it belongs to. -/
lemma filter_putEntry (p : String → Bool) :
    (putEntry key v done).filter (fun e => p e.1) =
      if p key then putEntry key v (done.filter fun e => p e.1)
      else done.filter fun e => p e.1 := by
  induction done with
  | nil => cases hp : p key <;> simp [putEntry, hp]
  | cons e done ih =>
    obtain ⟨k, w⟩ := e
    rw [putEntry]
    by_cases hk : k = key
    · subst hk
      cases hp : p k <;> simp [putEntry, hp]
    · rw [if_neg hk, List.filter_cons, ih, List.filter_cons]
      by_cases hp : p k = true
      · cases p key <;> simp [putEntry, hp, hk]
      · simp [hp]

/-- The keys of an object after an entry has been put into it. -/
lemma mem_map_fst_putEntry {k : String} :
    k ∈ (putEntry key v done).map (·.1) ↔ k = key ∨ k ∈ done.map (·.1) := by
  induction done with
  | nil => simp [putEntry]
  | cons e done ih =>
    obtain ⟨k', w⟩ := e
    rw [putEntry]
    by_cases hk : k' = key
    · subst hk
      simp
    · rw [if_neg hk, List.map_cons, List.mem_cons, ih, List.map_cons, List.mem_cons]
      exact or_left_comm

/-- Putting entries does not mix those of some keys with those of others. -/
lemma filter_putAll (p : String → Bool) :
    (putAll done es).filter (fun e => p e.1) =
      putAll (done.filter fun e => p e.1) (es.filter fun e => p e.1) := by
  induction es generalizing done with
  | nil => rfl
  | cons e es ih =>
    rw [putAll, List.foldl_cons, ← putAll, ih, filter_putEntry, List.filter_cons]
    cases hp : p e.1 <;> simp [putAll]

/-- An entry with a new key is put behind the others. -/
lemma putEntry_of_not_mem (h : key ∉ done.map (·.1)) :
    putEntry key v done = done ++ [(key, v)] := by
  induction done with
  | nil => rfl
  | cons e done ih =>
    obtain ⟨k, w⟩ := e
    simp only [List.map_cons, List.mem_cons, not_or] at h
    rw [putEntry, if_neg (Ne.symm h.1), ih h.2, List.cons_append]

/-- Entries with new keys of which none is repeated are put behind the others. -/
lemma putAll_of_nodup (hnd : (es.map (·.1)).Nodup)
    (hnew : ∀ k ∈ es.map (·.1), k ∉ done.map (·.1)) : putAll done es = done ++ es := by
  induction es generalizing done with
  | nil => exact (List.append_nil _).symm
  | cons e es ih =>
    obtain ⟨hkey, hnd⟩ := List.nodup_cons.1 hnd
    obtain ⟨hfree, hrest⟩ := List.forall_mem_cons.1 hnew
    rw [putAll, List.foldl_cons, putEntry_of_not_mem hfree, ← putAll, ih hnd, List.append_assoc,
      List.singleton_append]
    intro k hk
    have hne : k ≠ e.1 := by
      rintro rfl
      exact hkey hk
    simpa [hne] using hrest k hk

/-! ## The trees of parts -/

namespace Source

variable {repeats : Repeats}

/-- A bracket that is opened. -/
lemma opening_eq_ok_iff {start level : Nat} : opening start level = .ok () ↔ level ≤ maxLevel := by
  rw [opening, open?]
  split <;> simp [Except.mapError] <;> omega

/-- The items of an array have trees if its inside is closed and each of them has one. -/
lemma itemTrees_eq_ok_iff {index : Nat} {items : Items Source} {vs : List Json} :
    itemTrees repeats index items = .ok vs ↔
      items.Closed ∧ List.Forall₂ (fun node v => node.tree repeats = .ok v) items.toList vs := by
  induction items generalizing index vs with
  | close _ => simp [itemTrees, Items.Closed, Items.toList, eq_comm]
  | stop _ _ => simp [itemTrees, Items.Closed]
  | item node left rest ih =>
    rw [itemTrees, Items.Closed, Items.toList, List.forall₂_cons_left_iff]
    cases node.tree repeats with
    | error e => simp
    | ok v =>
      simp only [map_eq_ok_iff, ih, Except.ok.injEq]
      constructor
      · rintro ⟨ws, ⟨hc, hws⟩, rfl⟩
        exact ⟨hc, v, ws, rfl, hws, rfl⟩
      · rintro ⟨hc, _, ws, rfl, hws, rfl⟩
        exact ⟨ws, ⟨hc, hws⟩, rfl⟩

/-- What a key is taken up as. -/
lemma accept_eq_ok_iff {done : List (String × Json)} {key : Key} {k : String} :
    accept repeats done key = .ok k ↔
      key.text = .ok k ∧ (repeats = .refused → k ∉ done.map (·.1)) := by
  rw [accept]
  cases key.text with
  | error fault => simp
  | ok k' =>
    cases repeats with
    | lastWins => simp
    | refused =>
      have hany : done.any (·.1 == k') = true ↔ k' ∈ done.map (·.1) := by
        simp [List.any_eq_true, List.mem_map]
      by_cases hmem : k' ∈ done.map (·.1)
      · simp only [if_pos (hany.2 hmem), reduceCtorEq, Except.ok.injEq, true_implies, false_iff]
        rintro ⟨rfl, hk⟩
        exact hk hmem
      · simp only [if_neg (mt hany.1 hmem), Except.ok.injEq, true_implies]
        constructor
        · rintro rfl
          exact ⟨rfl, hmem⟩
        · exact And.left

/-- Keys are new and not repeated if the first one is new and the others stay so after it has been
put. -/
lemma fresh_cons_iff {k : String} {ks : List String} :
    ((k :: ks).Nodup ∧ ∀ x ∈ k :: ks, x ∉ done.map (·.1)) ↔
      k ∉ done.map (·.1) ∧ ks.Nodup ∧ ∀ x ∈ ks, x ∉ (putEntry k v done).map (·.1) := by
  simp only [mem_map_fst_putEntry, List.nodup_cons, List.forall_mem_cons, not_or]
  constructor
  · rintro ⟨⟨hk, hnd⟩, hfree, hks⟩
    exact ⟨hfree, hnd, fun x hx => ⟨fun heq => hk (heq ▸ hx), hks x hx⟩⟩
  · rintro ⟨hfree, hnd, hks⟩
    exact ⟨⟨fun hk => (hks k hk).1 rfl, hnd⟩, hfree, fun x hx => (hks x hx).2⟩

/-- The entries of an object have trees if its inside is closed and each of them has one; where
repeated keys are refused, none may be repeated. -/
lemma entryTrees_eq_ok_iff {done out : List (String × Json)} {entries : Entries Source} :
    entryTrees repeats done entries = .ok out ↔
      entries.Closed ∧
      (repeats = .refused → entries.keys.Nodup ∧ ∀ k ∈ entries.keys, k ∉ done.map (·.1)) ∧
      ∃ es, List.Forall₂ (fun e p => e.1 = p.1 ∧ e.2.tree repeats = .ok p.2) entries.toList es ∧
        out = putAll done es := by
  induction entries generalizing done with
  | close _ => simp [entryTrees, Entries.Closed, Entries.toList, Entries.keys, putAll, eq_comm]
  | stop _ _ => simp [entryTrees, Entries.Closed]
  | brokenKey _ _ => simp [entryTrees, Entries.Closed]
  | unpaired key fault =>
    rw [entryTrees]
    cases accept repeats done key <;> simp [Entries.Closed]
  | entry key node left rest ih =>
    rw [entryTrees, Entries.Closed, Entries.keys, Entries.toList]
    cases htext : key.text with
    | error fault => simp [accept, htext]
    | ok k =>
      rw [List.map_cons, ← Entries.keys]
      cases haccept : accept repeats done key with
      | error e =>
        -- the text of the key is fine, so that the key must have been put before
        have hrefused : ¬ (repeats = .refused → k ∉ done.map (·.1)) := fun h => by
          rw [accept_eq_ok_iff.2 ⟨htext, h⟩] at haccept
          cases haccept
        simp only [reduceCtorEq, false_iff]
        rintro ⟨-, hkeys, -⟩
        exact hrefused fun h => (hkeys h).2 k List.mem_cons_self
      | ok k' =>
        obtain ⟨hk', hfree⟩ := accept_eq_ok_iff.1 haccept
        obtain rfl : k = k' := Except.ok.inj (htext.symm.trans hk')
        cases htree : node.tree repeats with
        | error e => simp [List.forall₂_cons_left_iff, htree]
        | ok v =>
          -- `ih` speaks of the object with this entry in it, `fresh_cons_iff` takes it out again
          simp only [ih, fresh_cons_iff (v := v), List.forall₂_cons_left_iff, htree]
          constructor
          · rintro ⟨hc, hkeys, es, hes, rfl⟩
            exact ⟨⟨⟨k, rfl⟩, hc⟩, fun h => ⟨hfree h, hkeys h⟩, (k, v) :: es,
              ⟨(k, v), es, ⟨rfl, rfl⟩, hes, rfl⟩, rfl⟩
          · rintro ⟨⟨-, hc⟩, hkeys, _, ⟨⟨_, _⟩, es, ⟨rfl, hv⟩, hes, rfl⟩, rfl⟩
            cases hv
            exact ⟨hc, fun h => (hkeys h).2, es, hes, rfl⟩

/-! ## The trees of nodes -/

/-- A value without parts has a tree if a reader makes something of it. -/
lemma tree_scalar_eq_ok_iff {start stop : Nat} {value : Scalar} {j : Json} :
    (scalar start value stop).tree repeats = .ok j ↔
      (value = .word .null ∧ j = .null) ∨ (∃ b, value = .word (.bool b) ∧ j = .bool b) ∨
        (∃ n, value = .number (.ok n) ∧ j = .num n) ∨
        ∃ t, value = .text (.ok t) ∧ j = .str t := by
  rcases value with (_ | _) | (_ | _) | (_ | _) <;> simp [tree, eq_comm]

/-- An array has a tree if it is not nested too deeply and its items have trees. -/
lemma tree_array_eq_ok_iff {start level : Nat} {items : Items Source} {j : Json} :
    (array start level items).tree repeats = .ok j ↔
      level ≤ maxLevel ∧ items.Closed ∧
        ∃ vs, List.Forall₂ (fun node v => node.tree repeats = .ok v) items.toList vs ∧
          j = .arr vs := by
  rw [tree]
  by_cases hlevel : level ≤ maxLevel
  · simp only [opening_eq_ok_iff.2 hlevel, map_eq_ok_iff, itemTrees_eq_ok_iff, hlevel, true_and]
    constructor
    · rintro ⟨vs, ⟨hc, hvs⟩, rfl⟩
      exact ⟨hc, vs, hvs, rfl⟩
    · rintro ⟨hc, vs, hvs, rfl⟩
      exact ⟨vs, ⟨hc, hvs⟩, rfl⟩
  · cases hopen : opening start level with
    | error e => simp [hlevel]
    | ok _ => exact absurd (opening_eq_ok_iff.1 hopen) hlevel

/-- An object has a tree if it is not nested too deeply and its entries have trees; where repeated
keys are refused, none may be repeated. -/
lemma tree_object_eq_ok_iff {start level : Nat} {entries : Entries Source} {j : Json} :
    (object start level entries).tree repeats = .ok j ↔
      level ≤ maxLevel ∧ entries.Closed ∧ (repeats = .refused → entries.keys.Nodup) ∧
        ∃ es, List.Forall₂ (fun e p => e.1 = p.1 ∧ e.2.tree repeats = .ok p.2)
          entries.toList es ∧ j = .obj (putAll [] es) := by
  rw [tree]
  by_cases hlevel : level ≤ maxLevel
  · simp only [opening_eq_ok_iff.2 hlevel, map_eq_ok_iff, entryTrees_eq_ok_iff, hlevel, true_and,
      List.map_nil, List.not_mem_nil, not_false_eq_true, implies_true, and_true]
    constructor
    · rintro ⟨_, ⟨hc, hkeys, es, hes, rfl⟩, rfl⟩
      exact ⟨hc, hkeys, es, hes, rfl⟩
    · rintro ⟨hc, hkeys, es, hes, rfl⟩
      exact ⟨_, ⟨hc, hkeys, es, hes, rfl⟩, rfl⟩
  · cases hopen : opening start level with
    | error e => simp [hlevel]
    | ok _ => exact absurd (opening_eq_ok_iff.1 hopen) hlevel

/-- **Refusing repeated keys** leaves those trees in which no key is repeated, and leaves them as
they are.

**Proof sketch.** Induction on the source tree.  At an object the keys put are all new, so that
none of them replaces another one; the parts have the same trees by the hypotheses. -/
theorem tree_refused_eq_ok_iff {v : Source} {j : Json} :
    v.tree .refused = .ok j ↔ v.tree .lastWins = .ok j ∧ v.distinctKeys = true := by
  induction v using induction generalizing j with
  | scalar start value stop =>
    rcases value with (_ | _) | (_ | _) | (_ | _) <;> simp [tree, distinctKeys]
  | broken start beginning fault skipFault => simp [tree]
  | array start level items ih =>
    simp only [tree_array_eq_ok_iff, distinctKeys, itemsDistinctKeys_iff,
      forall₂_iff_and_forall fun node hnode v => ih node hnode]
    constructor
    · rintro ⟨hlevel, hc, vs, ⟨hvs, hdistinct⟩, rfl⟩
      exact ⟨⟨hlevel, hc, vs, hvs, rfl⟩, hdistinct⟩
    · rintro ⟨⟨hlevel, hc, vs, hvs, rfl⟩, hdistinct⟩
      exact ⟨hlevel, hc, vs, ⟨hvs, hdistinct⟩, rfl⟩
  | object start level entries ih =>
    have hparts : ∀ es : List (String × Json),
        List.Forall₂ (fun e p => e.1 = p.1 ∧ e.2.tree .refused = .ok p.2) entries.toList es ↔
          List.Forall₂ (fun e p => e.1 = p.1 ∧ e.2.tree .lastWins = .ok p.2) entries.toList es ∧
            ∀ e ∈ entries.toList, e.2.distinctKeys = true :=
      fun es => forall₂_iff_and_forall fun e he p => by rw [ih e he, and_assoc]
    simp only [tree_object_eq_ok_iff, distinctKeys, hparts, reduceCtorEq, false_implies,
      true_implies, true_and, Bool.and_eq_true, decide_eq_true_eq]
    constructor
    · rintro ⟨hlevel, hc, hkeys, es, ⟨hes, hdistinct⟩, rfl⟩
      exact ⟨⟨hlevel, hc, es, hes, rfl⟩, hkeys, (entriesDistinctKeys_iff hc).2 hdistinct⟩
    · rintro ⟨⟨hlevel, hc, es, hes, rfl⟩, hkeys, hdistinct⟩
      exact ⟨hlevel, hc, hkeys, es, ⟨hes, (entriesDistinctKeys_iff hc).1 hdistinct⟩, rfl⟩

/-- A value that has a tree can be passed over. -/
theorem skipFault?_of_tree {v : Source} {j : Json} (h : v.tree repeats = .ok j) :
    v.skipFault? = none := by
  induction v using induction generalizing j with
  | scalar start value stop => rfl
  | broken start beginning fault skipFault => simp [tree] at h
  | array start level items ih =>
    obtain ⟨-, hc, vs, hvs, -⟩ := tree_array_eq_ok_iff.1 h
    refine skipItemsFault?_eq_none hc fun node hnode => ?_
    obtain ⟨v, -, hv⟩ := exists_rel_of_mem_left hvs hnode
    exact ih node hnode hv
  | object start level entries ih =>
    obtain ⟨-, hc, -, es, hes, -⟩ := tree_object_eq_ok_iff.1 h
    refine skipEntriesFault?_eq_none hc fun e he => ?_
    obtain ⟨p, -, hp⟩ := exists_rel_of_mem_left hes he
    exact ih e he hp.2

/-- The values of an object whose entries have trees can be passed over. -/
lemma skipFault?_of_entries {entries : Entries Source} {es : List (String × Json)}
    (h : List.Forall₂ (fun e p => e.1 = p.1 ∧ e.2.tree repeats = .ok p.2) entries.toList es) :
    ∀ e ∈ entries.toList, e.2.skipFault? = none := by
  intro e he
  obtain ⟨p, -, hp⟩ := exists_rel_of_mem_left h he
  exact skipFault?_of_tree hp.2

/-- The trees of the entries of an object stand under the keys of the object. -/
lemma keys_eq_of_entries {entries : Entries Source} {es : List (String × Json)}
    (h : List.Forall₂ (fun e p => e.1 = p.1 ∧ e.2.tree repeats = .ok p.2) entries.toList es) :
    entries.keys = es.map (·.1) := by
  rw [Entries.keys, ← List.forall₂_eq_eq_eq, List.forall₂_map_left_iff,
    List.forall₂_map_right_iff]
  exact h.imp fun _ _ => And.left

end Source

end Json

end QueryPayload
