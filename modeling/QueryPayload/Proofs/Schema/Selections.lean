import Mathlib.Data.List.Perm.Basic
import Mathlib.Tactic.Lemma
import QueryPayload.Proofs.Schema.Fields

/-!
# What selections are read as

A selection gives up its entry `kind` before the others are read, and the last entry takes the place
that became free.  What is found depends on neither: the records of selections have no field `kind`
and do not look at the order of their entries.  So a selection is the record of its kind, made from
all of its entries.

## Main definitions

* `Selection.Kind.record` — the record of a kind of selection.
* `Selection.Kind.ReadFrom` — the selection of a kind that some entries make.
* `Json.kindOf?` — the kind of a selection.

## Main results

* `Selection.Kind.readFrom_perm_iff`, `readFrom_cons_kind_iff` — entries make selections in any
  order, and with their kind or without it.
* `Json.readSelection_eq_ok_iff` — what the reader of selections finds.
* `Json.read_obj_selection_iff` — what an object is read as where a selection is wanted.
-/

set_option relaxedAutoImplicit false
set_option autoImplicit false

namespace QueryPayload

/-! ## Taking an entry out -/

section TakeOut

variable {α : Type} {key : String} {es rest : List (String × α)} {a : α}

/-- What is taken out is the first value under the key. -/
lemma map_fst_takeOut? (key : String) (es : List (String × α)) :
    (takeOut? key es).map (·.1) = (es.find? (·.1 == key)).map (·.2) := by
  induction es with
  | nil => rfl
  | cons e es ih =>
    obtain ⟨k, b⟩ := e
    rw [takeOut?, List.find?_cons]
    by_cases hk : k = key
    · simp [hk]
    · have hbeq : (k == key) = false := beq_eq_false_iff_ne.2 hk
      simp only [if_neg hk, hbeq, ← ih]
      cases takeOut? key es <;> rfl

/-- The value taken out and what is left are the entries there were. -/
lemma perm_of_takeOut? (h : takeOut? key es = some (a, rest)) : es.Perm ((key, a) :: rest) := by
  induction es generalizing rest with
  | nil => cases h
  | cons e es ih =>
    obtain ⟨k, b⟩ := e
    rw [takeOut?] at h
    by_cases hk : k = key
    · subst hk
      rw [if_pos rfl, Option.some.injEq, Prod.mk.injEq] at h
      obtain ⟨rfl, rfl⟩ := h
      refine List.Perm.cons _ ?_
      cases hlast : es.getLast? with
      | none => simp [List.getLast?_eq_none_iff.1 hlast]
      | some last =>
        -- the last entry moves to the front
        have hes : es.dropLast ++ [last] = es := List.dropLast_append_getLast? last hlast
        have hmove : (es.dropLast ++ [last]).Perm (last :: es.dropLast) :=
          List.perm_append_comm
        rwa [hes] at hmove
    · rw [if_neg hk, Option.map_eq_some_iff] at h
      obtain ⟨⟨b', rest'⟩, htake, heq⟩ := h
      obtain ⟨rfl, rfl⟩ := Prod.mk.inj heq
      calc (k, b) :: es
          _ |>.Perm ((k, b) :: (key, b') :: rest') := List.Perm.cons _ (ih htake)
          _ |>.Perm ((key, b') :: (k, b) :: rest') := List.Perm.swap _ _ _

end TakeOut

/-! ## Selections -/

namespace Selection

namespace Kind

variable {k : Kind} {es es' : List (String × Reading)} {sel : Selection}

/-- The record that the selections of a kind are. -/
def record : Kind → Record
  | .booleanCondition => .booleanCondition
  | .field => .field
  | .fragmentSpread => .fragmentSpread
  | .typeCondition => .typeCondition

/-- The selection of a kind that some entries make. -/
def ReadFrom (es : List (String × Reading)) (sel : Selection) : Kind → Prop
  | .booleanCondition => Record.ReadFrom .booleanCondition es sel
  | .field => Record.ReadFrom .field es sel
  | .fragmentSpread => Record.ReadFrom .fragmentSpread es sel
  | .typeCondition => Record.ReadFrom .typeCondition es sel

/-- No field of a selection is called `kind`. -/
lemma answersTo_kind (k : Kind) : ∀ f ∈ k.record.fields, f.answersTo "kind" = false := by
  cases k <;> decide

/-- Entries make the selections that others make in which the fields have the same values. -/
lemma readFrom_congr
    (h : ∀ vs, Tuple.FoundIn es k.record.fields vs ↔ Tuple.FoundIn es' k.record.fields vs) :
    k.ReadFrom es sel ↔ k.ReadFrom es' sel := by
  cases k <;> exact Record.readFrom_iff_foundIn.trans
    ((exists_congr fun vs => and_congr_left' (h vs)).trans Record.readFrom_iff_foundIn.symm)

/-- Entries make selections in any order. -/
lemma readFrom_perm_iff (h : es.Perm es') : k.ReadFrom es sel ↔ k.ReadFrom es' sel :=
  readFrom_congr fun _ => Tuple.foundIn_congr fun _ _ _ => Field.foundIn_perm_iff h

/-- The entry `kind` is not one that a selection is made from. -/
lemma readFrom_cons_kind_iff {read : Reading} :
    k.ReadFrom (("kind", read) :: es) sel ↔ k.ReadFrom es sel := by
  refine readFrom_congr fun vs => Tuple.foundIn_congr fun f hf x => ?_
  have hskip : f.FoundIn ([] ++ ("kind", read) :: es) x ↔ f.FoundIn ([] ++ es) x :=
    Field.foundIn_middle_iff (k.answersTo_kind f hf)
  exact hskip

end Kind

end Selection

namespace Json

variable {es : List (String × Reading)} {sel : Selection}

/-- Reading entries as a selection of a kind. -/
lemma readOfKind_eq_ok_iff {k : Selection.Kind} :
    readOfKind es k = .ok sel ↔ k.ReadFrom es sel := by
  cases k <;> exact readRecord_eq_ok_iff

/-- **Reading entries as a selection**: the first entry `kind` says which record all of them make.

**Proof sketch.** What is left when the entry `kind` has been taken out is, together with it, what
there was (`perm_of_takeOut?`); the order does not matter (`Selection.Kind.readFrom_perm_iff`), and
neither does the entry itself (`Selection.Kind.readFrom_cons_kind_iff`). -/
theorem readSelection_eq_ok_iff :
    readSelection es = .ok sel ↔
      ∃ read k, es.find? (·.1 == "kind") = some ("kind", read) ∧
        read (.kind .selection) = .ok k ∧ k.ReadFrom es sel := by
  have hfst := map_fst_takeOut? "kind" es
  rw [readSelection]
  cases htake : takeOut? "kind" es with
  | none =>
    rw [htake, Option.map_none, eq_comm, Option.map_eq_none_iff] at hfst
    simp [hfst]
  | some taken =>
    obtain ⟨read, rest⟩ := taken
    have hperm := perm_of_takeOut? htake
    have hfind : es.find? (·.1 == "kind") = some ("kind", read) := by
      rw [htake, Option.map_some, eq_comm, Option.map_eq_some_iff] at hfst
      obtain ⟨⟨k, read'⟩, hfound, rfl⟩ := hfst
      have hk : k = "kind" := by simpa using List.find?_some hfound
      rw [hfound, hk]
    have hfrom : ∀ k : Selection.Kind, k.ReadFrom rest sel ↔ k.ReadFrom es sel := fun k =>
      Selection.Kind.readFrom_cons_kind_iff.symm.trans
        (Selection.Kind.readFrom_perm_iff hperm.symm)
    simp only [hfind, ← hfrom, ← readOfKind_eq_ok_iff]
    cases hkind : read (.kind .selection) with
    | error e => simp [hkind]
    | ok k => cases hrest : readOfKind rest k <;> simp [hkind, hrest]

/-! ## Nodes of a tree -/

variable {entries : List (String × Json)}

/-- The kind that the entries of a selection give it. -/
def kindOf? (entries : List (String × Json)) : Option Selection.Kind :=
  match entries.find? (·.1 == "kind") with
  | some (_, v) => (v.read (.kind .selection)).toOption
  | none => none

/-- The first reading under a key is that of the first entry under it. -/
lemma find?_entryReadings (key : String) :
    (entryReadings entries).find? (·.1 == key) =
      (entries.find? (·.1 == key)).map fun e => (e.1, e.2.read) := by
  rw [entryReadings_eq, List.find?_map]
  rfl

/-- Reading an object as a selection: its kind says which record the entries make. -/
lemma read_obj_selection_iff {sel : Selection} :
    (obj entries).read .selection = .ok sel ↔
      ∃ k, kindOf? entries = some k ∧ k.ReadFrom (entryReadings entries) sel := by
  rw [read, readAs, readSelection_eq_ok_iff, find?_entryReadings, kindOf?]
  cases hkind : entries.find? (·.1 == "kind") with
  | none => simp
  | some e =>
    obtain ⟨key, v⟩ := e
    have hkey : key = "kind" := by simpa using List.find?_some hkind
    subst hkey
    cases hread : v.read (.kind .selection) <;> simp [hread, Except.toOption]

end Json

end QueryPayload
