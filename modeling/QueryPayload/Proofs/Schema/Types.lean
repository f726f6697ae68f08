import Mathlib.Tactic.Lemma
import QueryPayload.Proofs.Document.WellFormed
import QueryPayload.Proofs.Json.Levels

/-!
# The type references in a payload are no deeper than the payload

A reference is read from one array or object for each of its nodes.  So the nesting of a payload
bounds the depth of all references that are read from it, wherever they stand in what is read.

## Main definitions

* `TypeRef.depth` — the number of nodes from a reference down to its name.
* `Record.EveryType`, `Shape.EveryType` — all references in a value have a property.
* `Reading.Within` — a reading that finds references of bounded depth only.

## Main results

* `Record.everyType_of_build` — building a record deepens its references by one node at most.
* `Json.within_read` — the references read from a tree are bounded by its nesting.
* `Json.Source.within_read` — those read from a text by the brackets that a reader keeps open.
-/

set_option relaxedAutoImplicit false
set_option autoImplicit false

namespace QueryPayload

/-- The number of nodes from a reference down to the name at its bottom. -/
def TypeRef.depth : TypeRef → Nat
  | .name _ => 1
  | .namedType child => child.depth + 1
  | .listType item => item.depth + 1
  | .nonNullType inner => inner.depth + 1

variable {P Q : TypeRef → Prop}

/-! ## The references in a value -/

/-- All types in a selection set have a property, at every depth. -/
def SelectionSet.EveryType (P : TypeRef → Prop) (set : SelectionSet) : Prop :=
  ∀ head ∈ set.heads, ∀ t ∈ head.types, P t

/-- All types in a selection have a property, at every depth. -/
def Selection.EveryType (P : TypeRef → Prop) (s : Selection) : Prop :=
  ∀ head ∈ s.heads, ∀ t ∈ head.types, P t

/-- All types in an operation have a property: those of its variables and in its selections. -/
def Operation.EveryType (P : TypeRef → Prop) (op : Operation) : Prop :=
  (∀ v ∈ op.declared, P v.type) ∧ op.selectionSet.EveryType P

/-- The types of all fields of a used type have a property. -/
def UsedType.EveryType (P : TypeRef → Prop) (t : UsedType) : Prop :=
  ∀ f ∈ t.fields?.getD [], P f.type

/-- All references in the value of a record have a property. -/
def Record.EveryType (P : TypeRef → Prop) : (r : Record) → r.Val → Prop
  | .typeRef, t => P t
  | .variable, v => P v.type
  | .argument, a => P a.type
  | .selectionSet, set => set.EveryType P
  | .field, s => s.EveryType P
  | .fragmentSpread, s => s.EveryType P
  | .typeCondition, s => s.EveryType P
  | .booleanCondition, s => s.EveryType P
  | .fragment, f => f.selectionSet.EveryType P
  | .operation, op => op.EveryType P
  | .schemaField, f => P f.type
  | .schemaEnumValue, _ => True
  | .usedType, t => t.EveryType P
  | .document, parts =>
    (∀ op ∈ parts.operations, op.EveryType P) ∧
      (∀ f ∈ parts.fragments, f.selectionSet.EveryType P) ∧ ∀ t ∈ parts.typesUsed, t.EveryType P

/-- All references in the value of a shape have a property. -/
def Shape.EveryType (P : TypeRef → Prop) : (s : Shape) → s.Val → Prop
  | .selection, s => s.EveryType P
  | .record r, v => r.EveryType P v
  | .list s, vs => ∀ v ∈ vs, s.EveryType P v
  | .optional s, o => ∀ v, o = some v → s.EveryType P v
  | _, _ => True

/-- All references in the values of fields have a property. -/
def Tuple.EveryType (P : TypeRef → Prop) : (fs : List Field) → Tuple fs → Prop
  | [], _ => True
  | f :: fs, (v, vs) => f.shape.EveryType P v ∧ Tuple.EveryType P fs vs

/-- A reading that finds references of bounded depth only. -/
def Reading.Within (n : Nat) (read : Reading) : Prop :=
  ∀ s v, read s = .ok v → s.EveryType (·.depth ≤ n) v

/-- All references in a record have a property that follows from another one they have. -/
lemma Record.EveryType.imp (hPQ : ∀ t, P t → Q t) :
    (r : Record) → {v : r.Val} → r.EveryType P v → r.EveryType Q v
  | .typeRef, _, h => hPQ _ h
  | .variable, _, h => hPQ _ h
  | .argument, _, h => hPQ _ h
  | .selectionSet, _, h => fun head hhead t ht => hPQ t (h head hhead t ht)
  | .field, _, h => fun head hhead t ht => hPQ t (h head hhead t ht)
  | .fragmentSpread, _, h => fun head hhead t ht => hPQ t (h head hhead t ht)
  | .typeCondition, _, h => fun head hhead t ht => hPQ t (h head hhead t ht)
  | .booleanCondition, _, h => fun head hhead t ht => hPQ t (h head hhead t ht)
  | .fragment, _, h => fun head hhead t ht => hPQ t (h head hhead t ht)
  | .operation, _, h =>
    ⟨fun v hv => hPQ _ (h.1 v hv), fun head hhead t ht => hPQ t (h.2 head hhead t ht)⟩
  | .schemaField, _, h => hPQ _ h
  | .schemaEnumValue, _, h => h
  | .usedType, _, h => fun f hf => hPQ _ (h f hf)
  | .document, _, h =>
    ⟨fun op hop => ⟨fun v hv => hPQ _ ((h.1 op hop).1 v hv),
        fun head hhead t ht => hPQ t ((h.1 op hop).2 head hhead t ht)⟩,
      fun f hf head hhead t ht => hPQ t (h.2.1 f hf head hhead t ht),
      fun t ht f hf => hPQ _ (h.2.2 t ht f hf)⟩

/-- All references in a value have a property that follows from another one they have. -/
lemma Shape.EveryType.imp (hPQ : ∀ t, P t → Q t) {s : Shape} {v : s.Val} (h : s.EveryType P v) :
    s.EveryType Q v := by
  induction s with
  | selection => exact fun head hhead t ht => hPQ t (h head hhead t ht)
  | record r => exact Record.EveryType.imp hPQ r h
  | list s ih => exact fun w hw => ih (h w hw)
  | optional s ih => exact fun w hw => ih (h w hw)
  | _ => exact True.intro

/-- The value that stands for an absent one has no references. -/
lemma Shape.everyType_blank? {s : Shape} {v : s.Val} (h : s.blank? = some v) :
    s.EveryType P v := by
  cases s with
  | flag => exact True.intro
  | optional s =>
    obtain rfl : none = v := Option.some.inj h
    exact fun w hw => (by cases hw)
  | _ => cases h

namespace Field

variable {f : Field} {v : f.shape.Val}

/-- What an object that lacks a field has there has no references. -/
lemma everyType_absentFromObject? (h : f.absentFromObject? = some v) : f.shape.EveryType P v := by
  rw [absentFromObject?] at h
  split at h
  · cases h
  · exact Shape.everyType_blank? h

/-- What an array that is too short for a field has there has no references. -/
lemma everyType_absentFromArray? (h : f.absentFromArray? = some v) : f.shape.EveryType P v := by
  rw [absentFromArray?] at h
  split at h
  · exact Shape.everyType_blank? h
  · cases h

end Field

/-! ## Records -/

/-- The types in a selection are those of its head and of the set it carries. -/
lemma Selection.everyType_ofHead_iff {head : Head} {set : Option SelectionSet} :
    (ofHead head set).EveryType P ↔
      (∀ t ∈ head.types, P t) ∧ ∀ inner, set = some inner → inner.EveryType P := by
  cases set with
  | none => simp [ofHead, EveryType, heads]
  | some inner => simp [ofHead, EveryType, heads, SelectionSet.EveryType, SelectionSet.heads]

/-- The types in a set are those of its selections. -/
lemma SelectionSet.everyType_iff {set : SelectionSet} :
    set.EveryType P ↔ ∀ s ∈ set.selections, s.EveryType P := by
  simp only [EveryType, Selection.EveryType, heads, Selection.headsAll_eq_flatMap,
    List.forall_mem_flatMap]

/-- The types in the head of a field are its own and those of its arguments. -/
lemma Selection.Head.forall_types_field_iff {f : Field} :
    (∀ t ∈ (Head.field f).types, P t) ↔
      P f.type ∧ ∀ args, f.args = some args → ∀ a ∈ args, P a.type := by
  cases hargs : f.args <;> simp [types, hargs]

/-- A reference made from the parts of its node is one node deeper than they are, at most. -/
lemma TypeRef.depth_le_of_ofParts {kind : Kind} {value : Option String}
    {name inner : Option TypeRef} {t : TypeRef} {n : Nat}
    (h : ofParts kind value name inner = .ok t) (hname : ∀ u, name = some u → u.depth ≤ n)
    (hinner : ∀ u, inner = some u → u.depth ≤ n) : t.depth ≤ n + 1 := by
  cases kind with
  | name => cases value <;> cases h; exact Nat.le_add_left 1 n
  | namedType =>
    cases name with
    | none => cases h
    | some child =>
      rw [ofParts] at h
      split at h
      · cases h
        exact Nat.succ_le_succ (hname child rfl)
      · cases h
  | listType =>
    cases inner with
    | none => cases h
    | some item =>
      cases h
      exact Nat.succ_le_succ (hinner item rfl)
  | nonNullType =>
    cases inner with
    | none => cases h
    | some of =>
      cases h
      exact Nat.succ_le_succ (hinner of rfl)

/-- The types of the fields of a used type are those of the fields it is made with. -/
lemma UsedType.everyType_of_ofParts {name : String} {kind : Kind} {description : Option String}
    {fields : Option (List SchemaField)} {values : Option (List SchemaEnumValue)} {t : UsedType}
    (h : (Members.ofParts kind fields values).map (⟨name, kind, description, ·⟩) = .ok t)
    (hfields : ∀ fs, fields = some fs → ∀ f ∈ fs, P f.type) : t.EveryType P := by
  obtain ⟨members, h, rfl⟩ := map_eq_ok_iff.1 h
  cases kind <;> cases fields <;> cases values <;> cases h <;>
    simp_all [EveryType, fields?]

/-- Records other than references gather the references of their fields. -/
lemma Record.everyType_of_build_of_ne : (r : Record) → r ≠ .typeRef → {vs : Tuple r.fields} →
    {v : r.Val} → r.build vs = .ok v → Tuple.EveryType P r.fields vs → r.EveryType P v
  | .typeRef, hr, _, _, _, _ => absurd rfl hr
  | .variable, _, (_, _, ()), _, rfl, ⟨_, htype, _⟩ => htype
  | .argument, _, (_, _, _, ()), _, rfl, ⟨_, _, htype, _⟩ => htype
  | .selectionSet, _, (_, _, ()), _, rfl, ⟨_, hselections, _⟩ =>
    SelectionSet.everyType_iff.2 hselections
  | .field, _, (_, _, _, _, _, _, _, ()), _, rfl, ⟨_, htype, _, _, _, hargs, hset, _⟩ =>
    Selection.everyType_ofHead_iff.2
      ⟨Selection.Head.forall_types_field_iff.2 ⟨htype, hargs⟩, hset⟩
  | .fragmentSpread, _, (_, _, _, ()), _, rfl, ⟨_, _, hset, _⟩ =>
    Selection.everyType_ofHead_iff.2 ⟨fun _ ht => absurd ht List.not_mem_nil, hset⟩
  | .typeCondition, _, (_, _, ()), _, rfl, ⟨htype, hset, _⟩ =>
    Selection.everyType_ofHead_iff.2 ⟨fun _ ht => List.mem_singleton.1 ht ▸ htype, hset⟩
  | .booleanCondition, _, (_, _, _, ()), _, rfl, ⟨_, _, hset, _⟩ =>
    Selection.everyType_ofHead_iff.2 ⟨fun _ ht => absurd ht List.not_mem_nil, hset⟩
  | .fragment, _, (_, _, _, _, ()), _, rfl, ⟨_, _, _, hset, _⟩ => hset
  | .operation, _, (_, _, _, _, _, _, _, ()), _, rfl, ⟨_, _, _, _, _, hdeclared, hset, _⟩ =>
    ⟨hdeclared, hset⟩
  | .schemaField, _, (_, _, _, _, ()), _, rfl, ⟨_, htype, _⟩ => htype
  | .schemaEnumValue, _, (_, _, _, ()), _, rfl, _ => True.intro
  | .usedType, _, (_, _, _, _, _, ()), _, h, ⟨_, _, _, hfields, _⟩ =>
    UsedType.everyType_of_ofParts h hfields
  | .document, _, (_, _, _, ()), _, rfl, ⟨hoperations, hfragments, htypes, _⟩ =>
    ⟨hoperations, hfragments, htypes⟩

/-- **Building a record deepens its references by one node at most.**

**Proof sketch.** Only a reference is deeper than its parts (`TypeRef.depth_le_of_ofParts`). -/
theorem Record.everyType_of_build {n : Nat} {r : Record} {vs : Tuple r.fields} {v : r.Val}
    (h : r.build vs = .ok v) (hvs : Tuple.EveryType (·.depth ≤ n) r.fields vs) :
    r.EveryType (·.depth ≤ n + 1) v := by
  by_cases hr : r = .typeRef
  · subst hr
    obtain ⟨kind, value, name, inner, ⟨⟩⟩ := vs
    obtain ⟨-, -, hname, hinner, -⟩ := hvs
    exact TypeRef.depth_le_of_ofParts h hname hinner
  · exact (everyType_of_build_of_ne r hr h hvs).imp fun _ => Nat.le_succ_of_le

/-! ## Readings -/

/-- The value that a field has among entries within a bound is within it. -/
lemma Field.FoundIn.within {n : Nat} {f : Field} {es : List (String × Reading)}
    (hes : ∀ e ∈ es, e.2.Within n) {x : f.shape.Val} (h : f.FoundIn es x) :
    f.shape.EveryType (·.depth ≤ n) x := by
  have hown : ∀ e ∈ es.filter (fun e => f.answersTo e.1), e.2.Within n :=
    fun e he => hes e (List.mem_of_mem_filter he)
  rw [FoundIn] at h
  generalize es.filter (fun e => f.answersTo e.1) = own at h hown
  cases own with
  | nil => exact everyType_absentFromObject? h
  | cons e own =>
    cases own with
    | nil => exact hown e List.mem_cons_self _ _ h
    | cons _ _ => exact h.elim

/-- The values that fields have among entries within a bound are within it. -/
lemma Tuple.FoundIn.within {n : Nat} {fs : List Field} {es : List (String × Reading)}
    (hes : ∀ e ∈ es, e.2.Within n) {vs : Tuple fs} (h : Tuple.FoundIn es fs vs) :
    Tuple.EveryType (·.depth ≤ n) fs vs := by
  induction fs with
  | nil => trivial
  | cons f fs ih => exact ⟨h.1.within hes, ih h.2⟩

/-- Values read from items within a bound are within it. -/
lemma Tuple.ReadFrom.within {n : Nat} {fs : List Field} {reads : List Reading}
    (hreads : ∀ read ∈ reads, read.Within n) {vs : Tuple fs} (h : Tuple.ReadFrom fs reads vs) :
    Tuple.EveryType (·.depth ≤ n) fs vs := by
  induction fs generalizing reads with
  | nil => trivial
  | cons f fs ih =>
    obtain ⟨v, vs⟩ := vs
    cases reads with
    | nil => exact ⟨Field.everyType_absentFromArray? h.1, ih hreads h.2⟩
    | cons read reads =>
      obtain ⟨hread, hreads⟩ := List.forall_mem_cons.1 hreads
      exact ⟨hread _ _ h.1, ih hreads h.2⟩

/-- A record made from entries within a bound is within the next one. -/
lemma Record.ReadFrom.within {n : Nat} {r : Record} {es : List (String × Reading)} {v : r.Val}
    (hes : ∀ e ∈ es, e.2.Within n) (h : r.ReadFrom es v) : r.EveryType (·.depth ≤ n + 1) v := by
  obtain ⟨vs, hfound, hbuild⟩ := Record.readFrom_iff_foundIn.1 h
  exact Record.everyType_of_build hbuild (hfound.within hes)

/-- A selection made from entries within a bound is within the next one. -/
lemma Selection.Kind.ReadFrom.within {n : Nat} {k : Selection.Kind} {es : List (String × Reading)}
    {sel : Selection} (hes : ∀ e ∈ es, e.2.Within n) (h : k.ReadFrom es sel) :
    sel.EveryType (·.depth ≤ n + 1) := by
  cases k <;> exact Record.ReadFrom.within hes h

namespace Json

/-! ## Trees -/

section Trees

variable {v : Json} {items : List Reading} {entries : List (String × Reading)} {n : Nat}

/-- Values read from a list of items within a bound are within the next one. -/
lemma everyType_of_forall₂ {s : Shape} {vs : List s.Val} (hitems : ∀ read ∈ items, read.Within n)
    (h : List.Forall₂ (fun read v => read s = .ok v) items vs) :
    ∀ v ∈ vs, s.EveryType (·.depth ≤ n + 1) v := by
  intro v hv
  obtain ⟨read, hread, hfound⟩ := exists_rel_of_mem_right h hv
  exact (hitems read hread s v hfound).imp fun _ => Nat.le_succ_of_le

/-- What is read from a node is bounded by its nesting, if its parts are bounded by what is below
the node. -/
lemma within_readAs (hn : v.nesting ≤ n)
    (hitems : ∀ m, n = m + 1 → ∀ read ∈ items, read.Within m)
    (hentries : ∀ m, n = m + 1 → ∀ e ∈ entries, e.2.Within m) :
    Reading.Within n (readAs v items entries) := by
  intro s x h
  induction s with
  | selection =>
    cases v with
    | obj es =>
      obtain ⟨m, rfl⟩ := Nat.exists_eq_add_of_le' (Nat.le_trans (Nat.le_add_left 1 _) hn)
      obtain ⟨read, k, -, -, hfrom⟩ := readSelection_eq_ok_iff.1 h
      exact hfrom.within (hentries m rfl)
    | _ => cases h
  | record r =>
    cases v with
    | obj es =>
      obtain ⟨m, rfl⟩ := Nat.exists_eq_add_of_le' (Nat.le_trans (Nat.le_add_left 1 _) hn)
      exact (readRecord_eq_ok_iff.1 h).within (hentries m rfl)
    | arr vs =>
      obtain ⟨m, rfl⟩ := Nat.exists_eq_add_of_le' (Nat.le_trans (Nat.le_add_left 1 _) hn)
      obtain ⟨vs, hvs, hbuild⟩ := readRecordItems_eq_ok_iff.1 h
      exact Record.everyType_of_build hbuild (hvs.within (hitems m rfl))
    | _ => cases h
  | list s _ =>
    cases v with
    | arr vs =>
      obtain ⟨m, rfl⟩ := Nat.exists_eq_add_of_le' (Nat.le_trans (Nat.le_add_left 1 _) hn)
      exact everyType_of_forall₂ (hitems m rfl) (readList_eq_ok_iff.1 h)
    | _ => cases h
  | optional s ih =>
    cases v with
    | null =>
      obtain rfl : none = x := Except.ok.inj h
      exact fun w hw => (by cases hw)
    | _ =>
      obtain ⟨y, hy, rfl⟩ := map_eq_ok_iff.1 h
      intro w hw
      obtain rfl := Option.some.inj hw
      exact ih _ hy
  | _ => exact True.intro

end Trees

/-- **The references read from a tree are bounded by its nesting.**

**Proof sketch.** Induction on the tree: what is read from the parts of a node is bounded by the
nesting below it, and the node adds one (`within_readAs`). -/
theorem within_read {v : Json} {n : Nat} (hn : v.nesting ≤ n) : v.read.Within n := by
  have hnone : ∀ m, n = m + 1 → ∀ read ∈ ([] : List Reading), read.Within m :=
    fun _ _ _ h => absurd h List.not_mem_nil
  have hempty : ∀ m, n = m + 1 → ∀ e ∈ ([] : List (String × Reading)), e.2.Within m :=
    fun _ _ _ h => absurd h List.not_mem_nil
  induction v using Json.induction generalizing n with
  | null => exact within_readAs hn hnone hempty
  | bool b => exact within_readAs hn hnone hempty
  | num n => exact within_readAs hn hnone hempty
  | str s => exact within_readAs hn hnone hempty
  | arr items ih =>
    rw [read, itemReadings_eq]
    refine within_readAs hn (fun m hm => List.forall_mem_map.2 fun v hmem => ?_) hempty
    rw [hm, nesting, Nat.add_le_add_iff_right, itemsNesting_le_iff] at hn
    exact ih v hmem (hn v hmem) (fun _ _ _ h => absurd h List.not_mem_nil)
      (fun _ _ _ h => absurd h List.not_mem_nil)
  | obj entries ih =>
    rw [read, entryReadings_eq]
    refine within_readAs hn hnone fun m hm => List.forall_mem_map.2 fun e hmem => ?_
    rw [hm, nesting, Nat.add_le_add_iff_right, entriesNesting_le_iff] at hn
    exact ih e hmem (hn e hmem) (fun _ _ _ h => absurd h List.not_mem_nil)
      (fun _ _ _ h => absurd h List.not_mem_nil)

namespace Source

/-! ## Texts -/

variable {items : Items Part} {entries : Entries Part} {level n : Nat} {v : Source}

/-- What is kept as a tree is bounded by the brackets that are left. -/
lemma everyType_of_keepsTree (hv : v.Counts level) (hlevel : level ≤ maxLevel) {s : Shape}
    (hs : s.keepsTree = true) {x : s.Val} (h : readAs v items entries s = .ok x) :
    s.EveryType (·.depth ≤ maxLevel - level) x := by
  obtain ⟨j, hj, hx⟩ := (readAs_eq_ok_iff_of_keepsTree hs).1 h
  have hnesting := hv.nesting_le hlevel hj
  exact Json.within_read (by omega) s x hx

/-- What is read from a node is bounded by the brackets that are left, if its parts are bounded by
those that are left inside. -/
lemma within_readAs (hv : v.Counts level) (hlevel : level ≤ maxLevel)
    (hitems : level < maxLevel → ∀ read ∈ itemReads items, read.Within (maxLevel - (level + 1)))
    (hentries : level < maxLevel →
      ∀ e ∈ entryReads entries, e.2.Within (maxLevel - (level + 1))) :
    Reading.Within (maxLevel - level) (readAs v items entries) := by
  have hleft : level < maxLevel → maxLevel - level = maxLevel - (level + 1) + 1 := by omega
  intro s x h
  induction s with
  | selection => exact everyType_of_keepsTree hv hlevel rfl h
  | record r =>
    cases v with
    | object start l nodes =>
      obtain ⟨rfl, -⟩ := hv
      rw [readAs] at h
      split at h
      · cases h
      · rename_i hopen
        have hlt := opening_eq_ok_iff.1 hopen
        rw [hleft hlt]
        exact (readFrom_of_readRecord h).within (hentries hlt)
    | array start l nodes =>
      obtain ⟨rfl, -⟩ := hv
      rw [readAs] at h
      split at h
      · cases h
      · rename_i hopen
        have hlt := opening_eq_ok_iff.1 hopen
        obtain ⟨vs, hvs, hbuild⟩ := readFrom_of_readRecordItems h
        rw [hleft hlt]
        exact Record.everyType_of_build hbuild (hvs.within (hitems hlt))
    | _ => simp [readAs, wrongType_ne_ok] at h
  | list s _ =>
    cases v with
    | array start l nodes =>
      obtain ⟨rfl, -⟩ := hv
      rw [readAs] at h
      split at h
      · cases h
      · rename_i hopen
        have hlt := opening_eq_ok_iff.1 hopen
        have hread := (readList_eq_ok_iff (closed_of_readList h)).1 h
        rw [hleft hlt]
        exact everyType_of_forall₂ (hitems hlt) hread
    | _ => simp [readAs, wrongType_ne_ok] at h
  | optional s ih =>
    by_cases hnull : ∃ start stop, v = .scalar start (.word .null) stop
    · obtain ⟨start, stop, rfl⟩ := hnull
      obtain rfl : none = x := Except.ok.inj h
      exact fun w hw => (by cases hw)
    · have hv : ∀ start stop, v ≠ .scalar start (.word .null) stop :=
        fun start stop heq => hnull ⟨start, stop, heq⟩
      rw [readAs_optional hv] at h
      obtain ⟨y, hy, rfl⟩ := map_eq_ok_iff.1 h
      intro w hw
      obtain rfl := Option.some.inj hw
      exact ih _ hy
  | _ => exact True.intro

/-- **The references read from a text are bounded by the brackets that a reader keeps open.**

**Proof sketch.** Induction on the source tree, by `within_readAs`; the brackets are counted on the
way down. -/
theorem within_read (v : Source) (hv : v.Counts level) (hlevel : level ≤ maxLevel) :
    v.read.Within (maxLevel - level) := by
  have hnone : ∀ m, ∀ read ∈ itemReads (.close 0), read.Within m :=
    fun _ _ h => absurd h List.not_mem_nil
  have hempty : ∀ m, ∀ e ∈ entryReads (.close 0), e.2.Within m :=
    fun _ _ h => absurd h List.not_mem_nil
  induction v using induction generalizing level with
  | scalar start value stop =>
    exact within_readAs hv hlevel (fun _ => hnone _) (fun _ => hempty _)
  | broken start beginning fault skipFault =>
    exact within_readAs hv hlevel (fun _ => hnone _) (fun _ => hempty _)
  | array start l items ih =>
    rw [read]
    refine within_readAs hv hlevel (fun hlt => ?_) (fun _ => hempty _)
    obtain ⟨rfl, hitems⟩ := hv
    rw [itemReads_itemParts]
    exact List.forall_mem_map.2 fun node hnode =>
      ih node hnode (counts_of_mem_items hitems node hnode) hlt
  | object start l entries ih =>
    rw [read]
    refine within_readAs hv hlevel (fun _ => hnone _) (fun hlt => ?_)
    obtain ⟨rfl, hentries⟩ := hv
    rw [entryReads_entryParts]
    exact List.forall_mem_map.2 fun e he =>
      ih e he (counts_of_mem_entries hentries e he) hlt

end Source

end Json

namespace Document

/-- The types in a document made of three lists have a property if all in the lists do. -/
lemma forall_mem_types {parts : DocumentParts} (h : Record.EveryType P .document parts) :
    ∀ t ∈ parts.document.types, P t := by
  obtain ⟨hoperations, hfragments, hused⟩ := h
  have hsets : ∀ set ∈ parts.document.selectionSets, set.EveryType P := by
    intro set hset
    rcases List.mem_append.1 hset with hset | hset
    · obtain ⟨op, hop, rfl⟩ := List.mem_map.1 hset
      exact (hoperations op hop).2
    · rw [fragments_document] at hset
      obtain ⟨f, hf, rfl⟩ := List.mem_map.1 hset
      exact hfragments f hf
  intro t ht
  rcases List.mem_append.1 ht with ht | ht
  · rcases List.mem_append.1 ht with ht | ht
    -- a variable, and a part of a selection
    · obtain ⟨op, hop, ht⟩ := List.mem_flatMap.1 ht
      obtain ⟨v, hv, rfl⟩ := List.mem_map.1 ht
      exact (hoperations op hop).1 v hv
    · obtain ⟨set, hset, ht⟩ := List.mem_flatMap.1 ht
      obtain ⟨head, hhead, ht⟩ := List.mem_flatMap.1 ht
      exact hsets set hset head hhead t ht
  -- a field of a used type
  · obtain ⟨used, hmem, ht⟩ := List.mem_flatMap.1 ht
    obtain ⟨f, hf, rfl⟩ := List.mem_map.1 ht
    exact hused used hmem f hf

/-- **The types in a document that is decoded from a text** are no deeper than the brackets that a
reader keeps open. -/
theorem depth_le_of_ofText {supply : Supply} {text : List UInt8} {d : Document}
    (h : ofText supply text = .ok d) : ∀ t ∈ d.types, t.depth ≤ Json.Source.maxLevel := by
  obtain ⟨parts, hread, -, hparts⟩ := ofText_eq_ok_iff.1 h
  obtain ⟨-, rfl⟩ := ofParts_eq_ok_iff.1 hparts
  exact forall_mem_types
    (Json.Source.within_read _ (Json.Source.counts_scan text) (Nat.zero_le _) _ _ hread)

end Document

end QueryPayload
