import Mathlib.Tactic.Lemma
import QueryPayload.Proofs.ArgumentValue.RoundTrip
import QueryPayload.Proofs.Document.EntryPoints
import QueryPayload.Proofs.Json.Levels

/-!
# Repeated keys are refused

A text is decoded as the value of an argument unless it is no JSON, an object in it repeats a key,
or an integer in it is too large.  Nothing else is refused, and nothing is changed: the value has
the items and the entries of the text, in their order.  In a selection, too, no object may repeat a
key, whatever the object is there for.

## Main definitions

* `Json.Source.RepeatsKey` — some object in a value, at any depth, repeats a key.

## Main results

* `Json.Source.distinctKeys_iff` — where there is a tree, keys are told apart along every path.
* `Json.Source.says_of_tree` — where no key may be repeated, a value says what its tree is.
* `ArgumentValue.exists_ofJson?_iff` — a tree stands for a value if its numbers do.
* `ArgumentValue.decode_iff_distinct` — which texts are decoded, and to what.
-/

set_option relaxedAutoImplicit false
set_option autoImplicit false

namespace QueryPayload

namespace Json

namespace Source

variable {v : Source} {j : Json} {level : Nat}

/-! ## Objects that repeat a key -/

/-- Along some path in a value there is an object with a repeated key.  Keys are compared as read,
not as spelled. -/
def RepeatsKey (v : Source) : Prop :=
  ∃ path start level entries,
    descend children path v = some (.object start level entries) ∧ ¬ entries.keys.Nodup

/-- A value repeats a key if one of its children does. -/
lemma RepeatsKey.of_mem_children {child : Source} (hmem : child ∈ v.children)
    (h : child.RepeatsKey) : v.RepeatsKey := by
  obtain ⟨path, start, level, entries, hpath, hrepeated⟩ := h
  obtain ⟨i, hi⟩ := exists_descend_cons_of_mem hmem
  exact ⟨i :: path, start, level, entries, (hi path).trans hpath, hrepeated⟩

/-- The values of an object repeat no key if the test says so, even if its inside is not closed. -/
lemma distinctKeys_of_mem_entries {entries : Entries Source}
    (h : entriesDistinctKeys entries = true) :
    ∀ e ∈ entries.toList, e.2.distinctKeys = true := by
  induction entries with
  | entry key node left rest ih =>
    rw [entriesDistinctKeys, Bool.and_eq_true] at h
    rw [Entries.toList]
    cases key.text with
    | ok k => exact List.forall_mem_cons.2 ⟨h.1, ih h.2⟩
    | error fault => exact ih h.2
  | _ => simp [Entries.toList]

/-- The children of a value that repeats no key repeat none. -/
lemma distinctKeys_of_mem_children (h : v.distinctKeys = true) :
    ∀ child ∈ v.children, child.distinctKeys = true := by
  cases v with
  | array start level items =>
    rw [distinctKeys, itemsDistinctKeys_iff] at h
    exact h
  | object start level entries =>
    rw [distinctKeys, Bool.and_eq_true] at h
    exact List.forall_mem_map.2 fun e he => distinctKeys_of_mem_entries h.2 e he
  | _ => simp [children]

/-- A value that passes the test for repeated keys has no object that repeats one.

**Proof sketch.** Induction on the path to the object. -/
lemma not_repeatsKey_of_distinctKeys (h : v.distinctKeys = true) : ¬ v.RepeatsKey := by
  rintro ⟨path, start, level, entries, hpath, hrepeated⟩
  induction path generalizing v with
  | nil =>
    obtain rfl := Option.some.inj hpath
    rw [distinctKeys, Bool.and_eq_true, decide_eq_true_eq] at h
    exact hrepeated h.1
  | cons i path ih =>
    obtain ⟨child, hchild, hrest⟩ := Option.bind_eq_some_iff.1 hpath
    exact ih (distinctKeys_of_mem_children h child (List.mem_of_getElem? hchild)) hrest

/-- **The test for repeated keys** finds every object that repeats one, at any depth, in a value
that has a tree.

**Proof sketch.** Induction on the source tree.  Where there is a tree, the insides of arrays and
objects are closed, so that all their parts are tested. -/
theorem distinctKeys_iff (hj : v.tree .lastWins = .ok j) :
    v.distinctKeys = true ↔ ¬ v.RepeatsKey := by
  refine ⟨not_repeatsKey_of_distinctKeys, fun h => ?_⟩
  induction v using induction generalizing j with
  | scalar start value stop => rfl
  | broken start beginning fault skipFault => rfl
  | array start level items ih =>
    obtain ⟨-, -, vs, hvs, -⟩ := tree_array_eq_ok_iff.1 hj
    refine itemsDistinctKeys_iff.2 fun node hnode => ?_
    obtain ⟨w, -, hw⟩ := exists_rel_of_mem_left hvs hnode
    exact ih node hnode hw fun hrepeats => h (hrepeats.of_mem_children hnode)
  | object start level entries ih =>
    obtain ⟨-, hc, -, es, hes, -⟩ := tree_object_eq_ok_iff.1 hj
    have hkeys : entries.keys.Nodup := by
      by_contra hrepeated
      exact h ⟨[], start, level, entries, rfl, hrepeated⟩
    have hvalues : ∀ e ∈ entries.toList, e.2.distinctKeys = true := by
      intro e he
      obtain ⟨p, -, -, hp⟩ := exists_rel_of_mem_left hes he
      have hmem : e.2 ∈ (object start level entries).children := List.mem_map_of_mem he
      exact ih e he hp fun hrepeats => h (hrepeats.of_mem_children hmem)
    rw [distinctKeys, Bool.and_eq_true, decide_eq_true_eq]
    exact ⟨hkeys, (entriesDistinctKeys_iff hc).2 hvalues⟩

/-- Where keys must not be repeated, a value has the tree it has otherwise, unless it repeats a
key. -/
lemma tree_refused_iff_not_repeatsKey :
    v.tree .refused = .ok j ↔ v.tree .lastWins = .ok j ∧ ¬ v.RepeatsKey := by
  rw [tree_refused_eq_ok_iff]
  exact and_congr_right fun hj => distinctKeys_iff hj

/-- What is read by way of a tree is not read if a key is repeated. -/
lemma RepeatsKey.exists_read_eq_error (h : v.RepeatsKey) {s : Shape} (hs : s.keepsTree = true) :
    ∃ e, v.read s = .error e := by
  cases hread : v.read s with
  | error e => exact ⟨e, rfl⟩
  | ok x =>
    obtain ⟨j, hj, -⟩ := (read_eq_ok_iff_of_keepsTree hs).1 hread
    exact absurd h (tree_refused_iff_not_repeatsKey.1 hj).2

/-! ## Values say what their trees are -/

/-- A closed array says what its items are if its nodes do. -/
lemma itemsSay_of_forall₂ {nodes : Items Source} {items : List Json} (hc : nodes.Closed)
    (h : List.Forall₂ (Says level) nodes.toList items) : ItemsSay level nodes items := by
  induction nodes generalizing items with
  | close offset =>
    obtain rfl := List.forall₂_nil_left_iff.1 h
    exact .close offset
  | stop _ _ => exact hc.elim
  | item node left rest ih =>
    obtain ⟨w, ws, hnode, hrest, rfl⟩ := List.forall₂_cons_left_iff.1 h
    exact .item left hnode (ih hc hrest)

/-- A closed object says what its entries are if its nodes do, key by key. -/
lemma entriesSay_of_forall₂ {nodes : Entries Source} {entries : List (String × Json)}
    (hc : nodes.Closed)
    (h : List.Forall₂ (fun e p => e.1 = p.1 ∧ Says level e.2 p.2) nodes.toList entries) :
    EntriesSay level nodes entries := by
  induction nodes generalizing entries with
  | close offset =>
    obtain rfl := List.forall₂_nil_left_iff.1 h
    exact .close offset
  | entry key node left rest ih =>
    obtain ⟨⟨k, hk⟩, hc⟩ := hc
    rw [Entries.toList, hk] at h
    obtain ⟨⟨k', w⟩, es, ⟨rfl, hnode⟩, hrest, rfl⟩ := List.forall₂_cons_left_iff.1 h
    exact .entry left hk hnode (ih hc hrest)
  | _ => exact hc.elim

/-- **A value says what its tree is**, part by part and in the same order, if it has one in which no
key may be repeated.

**Proof sketch.** Induction on the source tree.  No entry replaces another one, so that the entries
of the tree are those of the value. -/
theorem says_of_tree (h : v.Counts level) (hj : v.tree .refused = .ok j) : v.Says level j := by
  induction v using induction generalizing level j with
  | scalar start value stop =>
    rcases tree_scalar_eq_ok_iff.1 hj with
      ⟨rfl, rfl⟩ | ⟨b, rfl, rfl⟩ | ⟨n, rfl, rfl⟩ | ⟨t, rfl, rfl⟩
    · exact .null start stop
    · exact .bool start b stop
    · exact .num start n stop
    · exact .str start t stop
  | broken start beginning fault skipFault => simp [tree] at hj
  | array start l items ih =>
    obtain ⟨rfl, hitems⟩ := h
    obtain ⟨-, hc, vs, hvs, rfl⟩ := tree_array_eq_ok_iff.1 hj
    have hcounts := counts_of_mem_items hitems
    have hsay : List.Forall₂ (Says (level + 1)) items.toList vs :=
      forall₂_imp_of_mem_left hvs fun node hnode _ hw => ih node hnode (hcounts node hnode) hw
    exact .arr start (itemsSay_of_forall₂ hc hsay)
  | object start l entries ih =>
    obtain ⟨rfl, hentries⟩ := h
    obtain ⟨-, hc, hkeys, es, hes, rfl⟩ := tree_object_eq_ok_iff.1 hj
    have hcounts := counts_of_mem_entries hentries
    -- no entry replaces another one
    have hnodup : (es.map (·.1)).Nodup := keys_eq_of_entries hes ▸ hkeys rfl
    have hput : putAll [] es = es := putAll_of_nodup hnodup fun _ _ => List.not_mem_nil
    have hsay : List.Forall₂ (fun e p => e.1 = p.1 ∧ Says (level + 1) e.2 p.2)
        entries.toList es :=
      forall₂_imp_of_mem_left hes fun e he _ hp => ⟨hp.1, ih e he (hcounts e he) hp.2⟩
    rw [hput]
    exact .obj start (entriesSay_of_forall₂ hc hsay)

end Source

/-! ## Numbers that are refused -/

/-- The integers that are kept exact are not below those of 64 bits with a sign. -/
lemma Numeral.le_of_integer? {n : Numeral} {i : Int} (h : n.integer? = some i) : -2 ^ 63 ≤ i := by
  have hnegative : maxNegative = 2 ^ 63 := rfl
  rw [integer?] at h
  split at h
  · simp only at h
    split_ifs at h with hsign hbound
    · obtain rfl := Option.some.inj h
      omega
    · obtain rfl := Option.some.inj h
      omega
  · cases h

/-- The number of a numeral is the value of an argument unless it is an integer above the greatest
one of 64 bits with a sign. -/
lemma Numeral.exists_ofNumber?_iff {n : Numeral} {stop : Nat} {x : Number}
    (h : n.value stop = .ok x) :
    (∃ a, ArgumentValue.ofNumber? x = .ok a) ↔ ∀ i, x = .int i → i < 2 ^ 63 := by
  rw [value] at h
  cases hinteger : n.integer? with
  | some i =>
    rw [hinteger] at h
    obtain rfl := Except.ok.inj h
    have hlow := le_of_integer? hinteger
    have hfits : (∃ a, ArgumentValue.ofNumber? (.int i) = .ok a) ↔ -2 ^ 63 ≤ i ∧ i < 2 ^ 63 := by
      rw [← ArgumentValue.fits_iff]
      simp [ArgumentValue.ofNumber?_eq_ok_iff]
    rw [hfits]
    constructor
    · rintro ⟨-, hhigh⟩ k hk
      obtain rfl := Number.int.inj hk
      exact hhigh
    · exact fun hhigh => ⟨hlow, hhigh i rfl⟩
  | none =>
    rw [hinteger] at h
    cases hfloat : n.float? with
    | none => simp [hfloat] at h
    | some y =>
      rw [hfloat] at h
      obtain rfl := Except.ok.inj h
      have hfinite := isFinite_of_float? hfloat
      simp [ArgumentValue.ofNumber?_eq_ok_iff, hfinite]

/-- What has a number for its tree is that number. -/
lemma Source.eq_number_of_tree {s : Source} {x : Number} (h : s.tree .refused = .ok (.num x)) :
    ∃ start stop, s = .scalar start (.number (.ok x)) stop := by
  cases s with
  | scalar start value stop =>
    obtain ⟨-, hx⟩ | ⟨b, -, hx⟩ | ⟨y, rfl, hx⟩ | ⟨t, -, hx⟩ := Source.tree_scalar_eq_ok_iff.1 h
    · cases hx
    · cases hx
    · obtain rfl := Json.num.inj hx
      exact ⟨start, stop, rfl⟩
    · cases hx
  | broken start beginning fault skipFault => simp [Source.tree] at h
  | array start level items =>
    obtain ⟨-, -, vs, -, hx⟩ := Source.tree_array_eq_ok_iff.1 h
    cases hx
  | object start level entries =>
    obtain ⟨-, -, -, es, -, hx⟩ := Source.tree_object_eq_ok_iff.1 h
    cases hx

/-- Every number in the tree of a value that stands in a text is that of a numeral. -/
lemma Source.StandsIn.exists_numeral {text : List UInt8} {s : Source} {v : Json}
    (hs : s.StandsIn text) (hv : s.tree .refused = .ok v) {path : List Nat} {x : Number}
    (hx : descend Json.children path v = some (.num x)) :
    ∃ (n : Numeral) (stop : Nat), n.value stop = .ok x := by
  have hrel := rel_descend (fun _ _ => Source.forall₂_children) hv path
  rw [hx] at hrel
  generalize hnode : descend Source.children path s = node at hrel
  cases hrel with
  | some htree =>
    obtain ⟨start, stop, rfl⟩ := Source.eq_number_of_tree htree
    obtain ⟨n, -, hn⟩ := hs.of_descend hnode
    exact ⟨n, stop, hn.symm⟩

end Json

/-! ## Texts that repeat a key -/

/-- A text that repeats no key has its tree also where keys must not be repeated. -/
lemma Json.tree_refused_of_ofText {text : List UInt8} {v : Json} (hv : Json.ofText text = .ok v)
    (h : ¬ (Json.Source.scan text).1.RepeatsKey) :
    (Json.Source.scan text).1.tree .refused = .ok v :=
  Json.Source.tree_refused_iff_not_repeatsKey.2 ⟨(Json.ofText_eq_ok_iff.1 hv).1, h⟩

/-- A text that has a tree repeats a key if it does not pass the test. -/
lemma Json.repeatsKey_of_ofText {text : List UInt8} {v : Json} (hv : Json.ofText text = .ok v)
    (h : (Json.Source.scan text).1.distinctKeys = false) :
    (Json.Source.scan text).1.RepeatsKey := by
  obtain ⟨htree, -⟩ := Json.ofText_eq_ok_iff.1 hv
  by_contra hrepeats
  rw [(Json.Source.distinctKeys_iff htree).2 hrepeats] at h
  cases h

/-- What is read by way of a tree is decoded from the tree of a text that repeats no key. -/
lemma Shape.decode_eq_ok_iff_of_keepsTree {s : Shape} (hs : s.keepsTree = true)
    {text : List UInt8} {x : s.Val} :
    s.decode text = .ok x ↔
      ∃ v, Json.ofText text = .ok v ∧ ¬ (Json.Source.scan text).1.RepeatsKey ∧
        v.read s = .ok x := by
  simp only [Shape.decode_eq_ok_iff, Json.Source.read_eq_ok_iff_of_keepsTree hs,
    Json.Source.tree_refused_iff_not_repeatsKey, Json.ofText_eq_ok_iff]
  constructor
  · rintro ⟨⟨v, ⟨htree, hdistinct⟩, hread⟩, hend⟩
    exact ⟨v, ⟨htree, hend⟩, hdistinct, hread⟩
  · rintro ⟨v, ⟨htree, hend⟩, hdistinct, hread⟩
    exact ⟨⟨v, ⟨htree, hdistinct⟩, hread⟩, hend⟩

namespace ArgumentValue

open Json.Source (scan standsIn_scan counts_scan)

/-- **A tree stands for a value** if every number in it does, along every path.

**Proof sketch.** Induction on the tree: the parts of an array or object stand for values by the
hypotheses, and then so do all of them together. -/
theorem exists_ofJson?_iff {v : Json} :
    (∃ a, ofJson? v = .ok a) ↔
      ∀ path n, descend Json.children path v = some (.num n) → ∃ a, ofNumber? n = .ok a := by
  constructor
  · rintro ⟨a, ha⟩ path n hn
    have hrel := rel_descend (fun _ _ => forall₂_children) ha path
    rw [hn] at hrel
    generalize descend children path a = b at hrel
    cases hrel with
    | some hb => exact ⟨_, hb⟩
  · intro h
    induction v using Json.induction with
    | null => exact ⟨.null, rfl⟩
    | bool b => exact ⟨.bool b, rfl⟩
    | num n => exact h [] n rfl
    | str s => exact ⟨.string s, rfl⟩
    | arr items ih =>
      have hitems : ∀ w ∈ items, ∃ a, ofJson? w = .ok a := by
        intro w hw
        have hmem : w ∈ (Json.arr items).children := hw
        -- the numbers of an item are numbers of the array, one step further down
        obtain ⟨i, hi⟩ := exists_descend_cons_of_mem hmem
        exact ih w hw fun path n hn => h (i :: path) n ((hi path).trans hn)
      obtain ⟨as, has⟩ := exists_forall₂_iff.2 hitems
      exact ⟨.list as, ofJson?_arr_eq_ok_iff.2 ⟨as, has, rfl⟩⟩
    | obj entries ih =>
      have hentries : ∀ e ∈ entries, ∃ p : String × ArgumentValue,
          e.1 = p.1 ∧ ofJson? e.2 = .ok p.2 := by
        intro e he
        have hmem : e.2 ∈ (Json.obj entries).children := List.mem_map_of_mem he
        obtain ⟨i, hi⟩ := exists_descend_cons_of_mem hmem
        obtain ⟨a, ha⟩ := ih e he fun path n hn => h (i :: path) n ((hi path).trans hn)
        exact ⟨(e.1, a), rfl, ha⟩
      obtain ⟨as, has⟩ := exists_forall₂_iff.2 hentries
      exact ⟨.object as, ofJson?_obj_eq_ok_iff.2 ⟨as, has, rfl⟩⟩

/-- The tree of a scanned text stands for a value unless an integer in it is too large. -/
lemma exists_ofJson?_of_scan {text : List UInt8} {v : Json}
    (hv : (scan text).1.tree .refused = .ok v) :
    (∃ a, ofJson? v = .ok a) ↔
      ∀ path n, descend Json.children path v = some (.num (.int n)) → n < 2 ^ 63 := by
  have hnumber : ∀ path x, descend Json.children path v = some (.num x) →
      ((∃ a, ofNumber? x = .ok a) ↔ ∀ i, x = .int i → i < 2 ^ 63) := by
    intro path x hx
    obtain ⟨n, stop, hn⟩ := (standsIn_scan text).exists_numeral hv hx
    exact Json.Numeral.exists_ofNumber?_iff hn
  rw [exists_ofJson?_iff]
  constructor
  · intro h path n hn
    exact (hnumber path _ hn).1 (h path _ hn) n rfl
  · intro h path x hx
    refine (hnumber path x hx).2 fun i hi => h path i ?_
    rw [hx, hi]

/-- A text is decoded as the value that its tree stands for, if it repeats no key. -/
lemma decode_iff_of_ofText {text : List UInt8} {a : ArgumentValue} :
    Shape.argumentValue.decode text = .ok a ↔
      ∃ v, Json.ofText text = .ok v ∧ ¬ (scan text).1.RepeatsKey ∧ ofJson? v = .ok a :=
  (Shape.decode_eq_ok_iff_of_keepsTree rfl).trans <| exists_congr fun _ =>
    and_congr_right fun _ => and_congr_right fun _ => Json.read_argumentValue_iff

/-- **Repeated keys are refused, and nothing else changes.**  A text is decoded as the value of an
argument if and only if it is JSON, no object in it repeats a key, at any depth, and no integer of
its tree is above the greatest one of 64 bits with a sign.  The value it is decoded as then has the
tree of the text, with all items and entries of the text in their order.  A text in which a key is
repeated, at any depth, is not decoded as a selection, and neither is a part of a text that repeats
one; without a repeated key a selection is decoded as it is from the tree of the text.

**Proof sketch.** A tree in which no key may be repeated is the tree of the text, unless a key is
repeated (`Json.Source.tree_refused_iff_not_repeatsKey`), and then the text says what the tree is
(`Json.Source.says_of_tree`).  It stands for a value if its numbers do (`exists_ofJson?_of_scan`),
and has that value's tree (`toJson_of_ofJson?`).  Of a selection such a tree is kept first, whatever
is made of its parts afterwards. -/
theorem decode_iff_distinct :
    (∀ text, (∃ a, Shape.argumentValue.decode text = .ok a) ↔
      ∃ v, Json.ofText text = .ok v ∧ ¬ (scan text).1.RepeatsKey ∧
        ∀ path n, descend Json.children path v = some (.num (.int n)) → n < 2 ^ 63) ∧
    (∀ text a, Shape.argumentValue.decode text = .ok a →
      Json.ofText text = .ok a.toJson ∧ (scan text).1.Says 0 a.toJson) ∧
    (∀ text, (scan text).1.RepeatsKey → ∃ e, Shape.selection.decode text = .error e) ∧
    (∀ s : Json.Source, s.RepeatsKey → ∃ e, s.read .selection = .error e) ∧
    ∀ text s, Shape.selection.decode text = .ok s ↔
      ∃ v, Json.ofText text = .ok v ∧ ¬ (scan text).1.RepeatsKey ∧ v.read .selection = .ok s := by
  refine ⟨fun text => ?_, fun text a ha => ?_, fun text h => ?_, fun s h => ?_, fun text s => ?_⟩
  · constructor
    · rintro ⟨a, ha⟩
      obtain ⟨v, hv, hdistinct, hav⟩ := decode_iff_of_ofText.1 ha
      have htree := Json.tree_refused_of_ofText hv hdistinct
      exact ⟨v, hv, hdistinct, (exists_ofJson?_of_scan htree).1 ⟨a, hav⟩⟩
    · rintro ⟨v, hv, hdistinct, hnumbers⟩
      have htree := Json.tree_refused_of_ofText hv hdistinct
      obtain ⟨a, ha⟩ := (exists_ofJson?_of_scan htree).2 hnumbers
      exact ⟨a, decode_iff_of_ofText.2 ⟨v, hv, hdistinct, ha⟩⟩
  · obtain ⟨v, hv, hdistinct, hav⟩ := decode_iff_of_ofText.1 ha
    have htree := Json.tree_refused_of_ofText hv hdistinct
    obtain rfl := toJson_of_ofJson? hav
    exact ⟨hv, Json.Source.says_of_tree (counts_scan text) htree⟩
  · cases hdecode : Shape.selection.decode text with
    | error e => exact ⟨e, rfl⟩
    | ok s =>
      obtain ⟨-, -, hdistinct, -⟩ :=
        (Shape.decode_eq_ok_iff_of_keepsTree (s := .selection) rfl).1 hdecode
      exact absurd h hdistinct
  · exact h.exists_read_eq_error rfl
  · exact Shape.decode_eq_ok_iff_of_keepsTree rfl

/-- Objects in a list, with keys that are not in alphabetical order and the least integer. -/
def ordered : ArgumentValue :=
  .list [.object [("b", .list [.int (-2 ^ 63), .float (.zero true)]), ("a", .null)], .object []]

/-- A text with a key that is repeated in another spelling. -/
def respelledText : List UInt8 := Utf8.bytes "[\x7b\"a\":null,\"\\u0061\":true\x7d]"

/-- The tree of `respelledText`. -/
def respelledTree : Json := .arr [.obj [("a", .bool true)]]

/-- The text of a spread with a key that is repeated below a field that spreads do not have. -/
def respelledSpread : List UInt8 :=
  Utf8.bytes ("\x7b\"kind\":\"FragmentSpread\",\"fragmentName\":\"F\"," ++
    "\"x\":[\x7b\"a\":null,\"\\u0061\":true\x7d]\x7d")

/-- The tree of `respelledSpread`. -/
def respelledSpreadTree : Json :=
  .obj [("kind", .str "FragmentSpread"), ("fragmentName", .str "F"), ("x", respelledTree)]

/-- The spread in `respelledSpread`. -/
def spreadOfF : Selection := .ofHead (.fragmentSpread ⟨"F"⟩ none) none

/-- `decode_iff_distinct` for a text that is decoded, one that is JSON but is not decoded, and a
selection that would be decoded if the last of the values under a key counted. -/
theorem decode_respelledText :
    (Shape.argumentValue.decode (Utf8.bytes ordered.toJson.compact) = .ok ordered ∧
      Json.ofText (Utf8.bytes ordered.toJson.compact) = .ok ordered.toJson) ∧
    (Json.ofText respelledText = .ok respelledTree ∧
      ¬ ∃ a, Shape.argumentValue.decode respelledText = .ok a) ∧
    (Json.ofText respelledSpread = .ok respelledSpreadTree ∧
      respelledSpreadTree.read .selection = .ok spreadOfF ∧
      (∃ e, Shape.selection.decode respelledSpread = .error e) ∧
      ∃ e, (scan respelledSpread).1.read .selection = .error e) := by
  obtain ⟨hiff, hmirrors, hselection, hpart, -⟩ := decode_iff_distinct
  have hproper : ordered.Proper := by
    simp [ordered, Proper, ItemsProper, EntriesProper, Binary64.isFinite, Binary64.zero,
      Binary64.infinite, Binary64.fractionCount]
  have hfloats : ordered.FloatsReadBack := .of_few (by decide +kernel)
  have hnesting : ordered.toJson.nesting ≤ Json.Source.maxLevel := by decide
  have hread := Json.read_argumentValue_iff.2 (ofJson?_toJson hproper)
  have hdecode : Shape.argumentValue.decode (Utf8.bytes ordered.toJson.compact) = .ok ordered :=
    Json.decode_compact_of_read (spelled_toJson hproper hfloats) hnesting
      (distinctKeys_toJson hproper) hread
  have htext : Json.ofText respelledText = .ok respelledTree := by
    simp only [respelledText, Utf8.bytes, String.reduceToList]
    rfl
  have hrepeats := Json.repeatsKey_of_ofText htext (by decide +kernel)
  have hspread : Json.ofText respelledSpread = .ok respelledSpreadTree := by
    simp only [respelledSpread, Utf8.bytes, String.reduceAppend, String.reduceToList]
    rfl
  have hspreadRepeats := Json.repeatsKey_of_ofText hspread (by decide +kernel)
  refine ⟨⟨hdecode, (hmirrors _ _ hdecode).1⟩, ⟨htext, fun h => ?_⟩, hspread, rfl,
    hselection _ hspreadRepeats, hpart _ hspreadRepeats⟩
  obtain ⟨v, -, hdistinct, -⟩ := (hiff respelledText).1 h
  exact hdistinct hrepeats

end ArgumentValue

end QueryPayload
