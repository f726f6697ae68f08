import Mathlib.Tactic.Lemma
import QueryPayload.Proofs.ArgumentValue.Integers
import QueryPayload.Proofs.Json.Compact
import QueryPayload.Proofs.Schema.Types

/-!
# Type references are read back

## Main definitions

* `TypeRef.ReadBack` — the three outcomes of reading a reference back.

## Main results

* `TypeRef.readBack_of_says` — the outcomes for a source tree that says the reference.
* `TypeRef.read_toJson` — the tree of a proper reference is read as the reference.
* `TypeRef.decode_compact` — what the text and the tree of a reference are read as.
-/

set_option relaxedAutoImplicit false
set_option autoImplicit false

namespace QueryPayload

namespace TypeRef

/-- The key of what a node of a kind carries. -/
def Kind.partKey : Kind → String
  | .name => "value"
  | .namedType => "name"
  | .listType => "type"
  | .nonNullType => "type"

end TypeRef

namespace Json

/-! ## The record of a reference -/

namespace Source

open TypeRef (Kind)

variable {k : Kind} {kindKey key : Key} {kindPart part : Part} {left left' : Mark} {offset : Nat}

/-- The record of a bare name. -/
lemma readRecord_name {value : String} (hkindKey : kindKey.text = .ok "kind")
    (hkind : kindPart.read (.kind .typeRef) = .ok .name) (hkey : key.text = .ok "value")
    (h : part.read .optionalText = .ok (some value)) :
    readRecord .typeRef (.entry kindKey kindPart left (.entry key part left' (.close offset))) =
      .ok (.name value) := by
  simp only [readRecord, fillSlots, hkindKey, hkey, Slots.place?, Slots.empty, Field.answersTo,
    Field.required, Field.defaulted, entryReading, hkind, h, Except.mapError]
  rfl

/-- The record of a wrapper, when its child has been read. -/
lemma readRecord_wrapper {child : TypeRef} (hk : k ≠ .name) (hkindKey : kindKey.text = .ok "kind")
    (hkind : kindPart.read (.kind .typeRef) = .ok k) (hkey : key.text = .ok k.partKey)
    (h : part.read (.optional .typeRef) = .ok (some child)) :
    readRecord .typeRef (.entry kindKey kindPart left (.entry key part left' (.close offset))) =
      (TypeRef.ofParts k none (some child) (some child)).mapError .of := by
  cases k with
  | name => exact absurd rfl hk
  | _ =>
    simp only [readRecord, fillSlots, hkindKey, hkey, Slots.place?, Slots.empty, Field.answersTo,
      Field.required, Field.defaulted, entryReading, hkind, h, Except.mapError, Kind.partKey]
    cases child <;> rfl

/-- The record of a wrapper, when its child cannot be read. -/
lemma readRecord_wrapper_error {e : Failure} (hk : k ≠ .name)
    (hkindKey : kindKey.text = .ok "kind") (hkind : kindPart.read (.kind .typeRef) = .ok k)
    (hkey : key.text = .ok k.partKey) (h : part.read (.optional .typeRef) = .error e) :
    ∃ path mark, readRecord .typeRef
      (.entry kindKey kindPart left (.entry key part left' (.close offset))) =
        .error ⟨path, e.problem, mark⟩ := by
  cases k with
  | name => exact absurd rfl hk
  | _ =>
    simp only [readRecord, fillSlots, hkindKey, hkey, Slots.place?, Slots.empty, Field.answersTo,
      Field.required, Field.defaulted, entryReading, hkind, h, Except.mapError, Kind.partKey]
    exact ⟨_, _, rfl⟩

/-- A record is read from an object whose brace is opened. -/
lemma read_object_record {start level : Nat} {nodes : Entries Source} {r : Record}
    (hlevel : level ≤ maxLevel) :
    (object start level nodes).read (.record r) = readRecord r (entryParts nodes) := by
  rw [read, readAs, opening_eq_ok_iff.2 hlevel]

/-- No record is read from an object that is nested too deeply. -/
lemma read_object_tooDeep {start level : Nat} {nodes : Entries Source} {r : Record}
    (hlevel : maxLevel < level) :
    (object start level nodes).read (.record r) = .error (.ofFault ⟨.tooDeep, .blaming start⟩) := by
  rw [read, readAs, opening, open?, if_pos hlevel]
  rfl

/-- The kind in a node is read as that kind. -/
lemma read_kind (k : Kind) (start stop : Nat) :
    (scalar start (.text (.ok k.spelling)) stop).read (.kind .typeRef) = .ok k := by
  cases k <;> rfl

/-- An object is read as an optional reference if it is read as one. -/
lemma read_optional_of_says {level : Nat} {node : Source} {t : TypeRef}
    (h : node.Says level t.toJson) :
    node.read (.optional .typeRef) = (node.read .typeRef).map some := by
  cases t <;> cases h <;> rfl

/-- The node of a reference has an entry for its kind and another one for what it carries. -/
lemma Says.exists_entries {level : Nat} {source : Source} {kind name : String} {v : Json}
    (h : source.Says level (.obj [("kind", .str kind), (name, v)])) :
    ∃ start kindKey a b left key node left' offset, kindKey.text = .ok "kind" ∧
      key.text = .ok name ∧ node.Says (level + 1) v ∧
      source = .object start (level + 1) (.entry kindKey (.scalar a (.text (.ok kind)) b) left
        (.entry key node left' (.close offset))) := by
  cases h with
  | obj start h =>
    cases h with
    | entry left hkindKey h hs =>
      cases h
      cases hs with
      | entry left' hkey hnode hs =>
        cases hs
        exact ⟨_, _, _, _, _, _, _, _, _, hkindKey, hkey, hnode, rfl⟩

variable {level : Nat} {source : Source}

/-- The node of a reference that is nested too deeply is refused. -/
lemma Says.read_tooDeep {kind name : String} {v : Json}
    (h : source.Says level (.obj [("kind", .str kind), (name, v)])) (hlevel : maxLevel ≤ level) :
    ∃ path mark, source.read .typeRef = .error ⟨path, .notJson .tooDeep, mark⟩ := by
  obtain ⟨start, kindKey, a, b, left, key, node, left', offset, -, -, -, rfl⟩ := h.exists_entries
  rw [read_object_tooDeep (Nat.lt_succ_of_le hlevel)]
  exact ⟨_, _, rfl⟩

/-- The node of a bare name is read as that. -/
lemma Says.read_name {value : String} (h : source.Says level (TypeRef.name value).toJson)
    (hlevel : level < maxLevel) : source.read .typeRef = .ok (.name value) := by
  obtain ⟨start, kindKey, a, b, left, key, node, left', offset, hkindKey, hkey, hnode, rfl⟩ :=
    h.exists_entries
  rw [read_object_record hlevel]
  refine readRecord_name hkindKey (read_kind .name a b) hkey ?_
  cases hnode
  rfl

/-- The node of a wrapper is read as its child is, up to what cannot be wrapped. -/
lemma Says.exists_child (hk : k ≠ .name) {v : Json}
    (h : source.Says level (.obj [("kind", .str k.spelling), (k.partKey, v)]))
    (hlevel : level < maxLevel) :
    ∃ node : Source, node.Says (level + 1) v ∧
      (∀ child, node.read (.optional .typeRef) = .ok (some child) →
        source.read .typeRef = (TypeRef.ofParts k none (some child) (some child)).mapError .of) ∧
      ∀ e, node.read (.optional .typeRef) = .error e →
        ∃ path mark, source.read .typeRef = .error ⟨path, e.problem, mark⟩ := by
  obtain ⟨start, kindKey, a, b, left, key, node, left', offset, hkindKey, hkey, hnode, rfl⟩ :=
    h.exists_entries
  rw [read_object_record hlevel]
  refine ⟨node, hnode, fun child hread => ?_, fun e hread => ?_⟩
  · exact readRecord_wrapper hk hkindKey (read_kind k a b) hkey hread
  · exact readRecord_wrapper_error hk hkindKey (read_kind k a b) hkey hread

end Source

end Json

namespace TypeRef

open Json (Source)
open Json.Source (maxLevel)

/-- What a reference is read as, behind the given number of open brackets. -/
structure ReadBack (level : Nat) (t : TypeRef) (outcome : Except Failure TypeRef) : Prop where
  /-- A proper reference is read as itself. -/
  proper : level + t.depth ≤ maxLevel → t.Proper → outcome = .ok t
  /-- A reference that needs too many brackets is refused for that. -/
  tooDeep : maxLevel < level + t.depth →
    ∃ path mark, outcome = .error ⟨path, .notJson .tooDeep, mark⟩
  /-- Any other reference is refused for a named type without a name. -/
  improper : level + t.depth ≤ maxLevel → ¬ t.Proper →
    ∃ path mark, outcome = .error ⟨path, .malformedType (.missingRequiredChild .namedType), mark⟩

variable {level : Nat} {source : Source}

/-- A reference has a name at least. -/
lemma one_le_depth (t : TypeRef) : 1 ≤ t.depth := by
  cases t <;> exact Nat.le_add_left 1 _

/-- A bare name is read back. -/
lemma readBack_name {value : String} (h : source.Says level (name value).toJson) :
    ReadBack level (.name value) (source.read .typeRef) := by
  constructor
  case proper => exact fun hlevel _ => h.read_name hlevel
  case tooDeep => exact fun hlevel => h.read_tooDeep (Nat.le_of_lt_succ hlevel)
  case improper => exact fun _ himproper => absurd True.intro himproper

/-- A wrapper is read back if its child is. -/
lemma readBack_wrapper {t child : TypeRef} {k : Kind} (hk : k ≠ .name)
    (hjson : t.toJson = .obj [("kind", .str k.spelling), (k.partKey, child.toJson)])
    (hdepth : t.depth = child.depth + 1)
    (hproper : t.Proper → child.Proper ∧ ofParts k none (some child) (some child) = .ok t)
    (himproper : child.Proper → ¬ t.Proper → ofParts k none (some child) (some child) =
      .error (.malformedType (.missingRequiredChild .namedType)))
    (hchild : ∀ node : Source, node.Says (level + 1) child.toJson →
      ReadBack (level + 1) child (node.read .typeRef))
    (h : source.Says level t.toJson) : ReadBack level t (source.read .typeRef) := by
  have hname := child.one_le_depth
  rw [hjson] at h
  rcases Nat.lt_or_ge level maxLevel with hlevel | hlevel
  · obtain ⟨node, hsays, hfound, hfailed⟩ := h.exists_child hk hlevel
    rw [Json.Source.read_optional_of_says hsays] at hfound hfailed
    have hback := hchild node hsays
    constructor
    case proper =>
      intro hle ht
      obtain ⟨hc, hparts⟩ := hproper ht
      rw [hfound child (by rw [hback.proper (by omega) hc]; rfl), hparts]
      rfl
    case tooDeep =>
      intro hdeep
      obtain ⟨path, mark, hread⟩ := hback.tooDeep (by omega)
      exact hfailed _ (by rw [hread]; rfl)
    case improper =>
      intro hle ht
      by_cases hc : child.Proper
      · rw [hfound child (by rw [hback.proper (by omega) hc]; rfl), himproper hc ht]
        exact ⟨_, _, rfl⟩
      · obtain ⟨path, mark, hread⟩ := hback.improper (by omega) hc
        exact hfailed _ (by rw [hread]; rfl)
  · constructor
    case proper => omega
    case tooDeep => exact fun _ => h.read_tooDeep hlevel
    case improper => omega

/-- **A source tree that says the node of a reference is read as the reference**, if that is proper
and the brackets suffice.

**Proof sketch.** Induction on the reference.  A wrapper is read after its child, so that a child
that is refused takes precedence. -/
theorem readBack_of_says (t : TypeRef) (h : source.Says level t.toJson) :
    ReadBack level t (source.read .typeRef) := by
  induction t generalizing level source with
  | name value => exact readBack_name h
  | namedType child ih =>
    refine readBack_wrapper (k := .namedType) nofun rfl rfl ?_ ?_ (fun node => ih) h
    · intro hchild
      cases child with
      | name value => exact ⟨True.intro, rfl⟩
      | _ => cases hchild
    · intro _ hchild
      exact if_neg hchild
  | listType item ih =>
    exact readBack_wrapper (k := .listType) nofun rfl rfl (fun hitem => ⟨hitem, rfl⟩)
      (fun hitem himproper => absurd hitem himproper) (fun node => ih) h
  | nonNullType inner ih =>
    exact readBack_wrapper (k := .nonNullType) nofun rfl rfl (fun hinner => ⟨hinner, rfl⟩)
      (fun hinner himproper => absurd hinner himproper) (fun node => ih) h

/-! ## Trees -/

/-- Every reference can be written. -/
lemma spelled_toJson (t : TypeRef) : t.toJson.Spelled := by
  induction t with
  | name value => exact ⟨True.intro, True.intro, True.intro⟩
  | namedType child ih => exact ⟨True.intro, ih, True.intro⟩
  | listType item ih => exact ⟨True.intro, ih, True.intro⟩
  | nonNullType inner ih => exact ⟨True.intro, ih, True.intro⟩

/-- The tree of a reference is no null. -/
lemma read_optional_toJson {t : TypeRef} (h : t.toJson.read .typeRef = .ok t) :
    t.toJson.read (.optional .typeRef) = .ok (some t) := by
  have hnull : t.toJson ≠ .null := by cases t <;> nofun
  rw [Json.read_optional hnull, h]
  rfl

/-- The tree of a wrapper is read as that if the tree of its child is. -/
lemma read_wrapper {child : TypeRef} {k : Kind} (hk : k ≠ .name) {v : Json}
    (h : v.read (.optional .typeRef) = .ok (some child)) :
    (Json.obj [("kind", .str k.spelling), (k.partKey, v)]).read .typeRef =
      (ofParts k none (some child) (some child)).mapError .of := by
  cases k with
  | name => exact absurd rfl hk
  | _ =>
    simp only [Json.read, Json.readAs, Json.entryReadings, Json.readRecord, Json.fillSlots,
      Slots.place?, Slots.empty, Field.answersTo, Field.required, Field.defaulted, h,
      Except.mapError, Kind.partKey]
    cases child <;> rfl

/-- **The tree of a proper reference is read as the reference**, however deep it is.

**Proof sketch.** Induction on the reference. -/
theorem read_toJson {t : TypeRef} (ht : t.Proper) : t.toJson.read .typeRef = .ok t := by
  induction t with
  | name value => rfl
  | namedType child ih =>
    cases child with
    | name value => rfl
    | _ => cases ht
  | listType item ih =>
    exact read_wrapper (k := .listType) nofun (read_optional_toJson (ih ht))
  | nonNullType inner ih =>
    exact read_wrapper (k := .nonNullType) nofun (read_optional_toJson (ih ht))

/-! ## Texts -/

/-- What the text of a reference is read as. -/
lemma readBack_compact (t : TypeRef) :
    ReadBack 0 t (Shape.decode .typeRef (Utf8.bytes t.toJson.compact)) := by
  obtain ⟨source, hscan, hsays⟩ := Json.Source.exists_scan_compact t.spelled_toJson
  have hdecode : Shape.decode .typeRef (Utf8.bytes t.toJson.compact) = source.read .typeRef := by
    rw [Shape.decode, hscan]
    simp only [concludeText]
    cases source.read .typeRef <;> rfl
  rw [hdecode]
  exact readBack_of_says t hsays

/-- A reference in what a text is read as is proper, and the brackets suffice for it. -/
lemma proper_of_text {text : List UInt8} {t : TypeRef}
    (h : Shape.decode .typeRef text = .ok t ∨
      ∃ supply d, Document.ofText supply text = .ok d ∧ t ∈ d.types) :
    t.Proper ∧ t.depth ≤ maxLevel := by
  rcases h with h | ⟨supply, d, hd, ht⟩
  · have hread := (Shape.decode_eq_ok_iff.1 h).1
    exact ⟨Source.sound_read _ _ _ hread,
      Source.within_read _ (Source.counts_scan text) (Nat.zero_le _) _ _ hread⟩
  · obtain ⟨parts, hread, -, hparts⟩ := Document.ofText_eq_ok_iff.1 hd
    have hwf := Document.wellFormed_of_ofParts (Source.sound_read _ _ _ hread) hparts
    exact ⟨hwf.types t ht, Document.depth_le_of_ofText hd t ht⟩

/-- A reference in what a tree is read as is proper. -/
lemma proper_of_tree {v : Json} (hv : v.distinctKeys = true) {t : TypeRef}
    (h : v.read .typeRef = .ok t ∨ ∃ d, Document.ofJson v = .ok d ∧ t ∈ d.types) : t.Proper := by
  rcases h with h | ⟨d, hd, ht⟩
  · exact Json.sound_read hv _ _ h
  · obtain ⟨parts, hread, hparts⟩ := Document.ofJson_eq_ok_iff.1 hd
    exact (Document.wellFormed_of_ofParts (Json.sound_read hv _ _ hread) hparts).types t ht

/-- **A reference is read back from its text**, if it has at most 127 nodes and every named type in
it wraps a name.  With more nodes it is refused for its depth, whatever is in it, and otherwise for
a named type that lacks its name.  From its tree it is read back at any depth.  So every reference
in what a payload is read as, alone or in a document, is read back in the form of the payload.

**Proof sketch.** The text says what the tree is (`Json.Source.exists_scan_compact`), and
`readBack_of_says` tells the outcomes apart.  Reading is sound, and bounded by the brackets that a
reader keeps open (`proper_of_text`, `proper_of_tree`). -/
theorem decode_compact (t : TypeRef) :
    (t.depth ≤ 127 → t.Proper → Shape.decode .typeRef (Utf8.bytes t.toJson.compact) = .ok t) ∧
    (127 < t.depth → ∃ path mark, Shape.decode .typeRef (Utf8.bytes t.toJson.compact) =
      .error ⟨path, .notJson .tooDeep, mark⟩) ∧
    (t.depth ≤ 127 → ¬ t.Proper →
      ∃ path mark, Shape.decode .typeRef (Utf8.bytes t.toJson.compact) =
        .error ⟨path, .malformedType (.missingRequiredChild .namedType), mark⟩) ∧
    (t.Proper → t.toJson.read .typeRef = .ok t) ∧
    (∀ text, (Shape.decode .typeRef text = .ok t ∨
        ∃ supply d, Document.ofText supply text = .ok d ∧ t ∈ d.types) →
      Shape.decode .typeRef (Utf8.bytes t.toJson.compact) = .ok t ∧
        t.toJson.read .typeRef = .ok t) ∧
    ∀ v : Json, v.distinctKeys = true →
      (v.read .typeRef = .ok t ∨ ∃ d, Document.ofJson v = .ok d ∧ t ∈ d.types) →
      t.toJson.read .typeRef = .ok t := by
  have hlevel : 0 + t.depth = t.depth := Nat.zero_add _
  obtain ⟨hproper, htooDeep, himproper⟩ := readBack_compact t
  rw [hlevel] at hproper htooDeep himproper
  refine ⟨hproper, htooDeep, himproper, read_toJson, fun text h => ?_, fun v hv h => ?_⟩
  · obtain ⟨ht, hdepth⟩ := proper_of_text h
    exact ⟨hproper hdepth ht, read_toJson ht⟩
  · exact read_toJson (proper_of_tree hv h)

/-- A reference with a quote, a backslash, a tab and a character beyond ASCII in its name. -/
def wrapped : TypeRef := .nonNullList (.nonNullNamed "\"Ä\\\t")

/-- A reference with one node too many, in which a named type wraps a list. -/
def overdeep : TypeRef := Nat.iterate .listType 125 (.namedType (.listType (.name "T")))

/-- A named type that wraps a list. -/
def nameless : TypeRef := .listType (.namedType (.listType (.named "T")))

/-- A payload of a document with one used type, which has a field of the given type. -/
def fieldPayload (t : TypeRef) : Json :=
  .obj [("operations", .arr []), ("fragments", .arr []), ("typesUsed", .arr [
    .obj [("name", .str "O"), ("kind", .str "ObjectType"),
      ("fields", .arr [.obj [("name", .str "f"), ("type", t.toJson)]])]])]

/-- The document with one used type, which has a field of the given type. -/
def fieldDocument (t : TypeRef) : Document :=
  ⟨[], ⟨[]⟩, [⟨"O", .objectType, none, .fields [⟨"f", t, none, false⟩]⟩]⟩

/-- `decode_compact` where every condition has something to say. -/
theorem decode_compact_wrapped :
    (wrapped.depth ≤ 127 ∧ wrapped.Proper ∧
      Shape.decode .typeRef (Utf8.bytes wrapped.toJson.compact) = .ok wrapped ∧
      wrapped.toJson.read .typeRef = .ok wrapped) ∧
    (127 < overdeep.depth ∧ ∃ path mark,
      Shape.decode .typeRef (Utf8.bytes overdeep.toJson.compact) =
        .error ⟨path, .notJson .tooDeep, mark⟩) ∧
    (nameless.depth ≤ 127 ∧ ¬ nameless.Proper ∧ ∃ path mark,
      Shape.decode .typeRef (Utf8.bytes nameless.toJson.compact) =
        .error ⟨path, .malformedType (.missingRequiredChild .namedType), mark⟩) ∧
    Document.ofJson (fieldPayload wrapped) = .ok (fieldDocument wrapped) ∧
      wrapped ∈ (fieldDocument wrapped).types := by
  have hmem : wrapped ∈ (fieldDocument wrapped).types := List.mem_singleton_self _
  have htree : Document.ofJson (fieldPayload wrapped) = .ok (fieldDocument wrapped) := by rfl
  obtain ⟨hback, -, -, -, htexts, htrees⟩ := decode_compact wrapped
  have htext := hback (by decide) rfl
  have hdeep : 127 < overdeep.depth := by decide +kernel
  exact ⟨⟨by decide, rfl, (htexts _ (.inl htext)).1, htrees _ (by rfl) (.inr ⟨_, htree, hmem⟩)⟩,
    ⟨hdeep, (decode_compact overdeep).2.1 hdeep⟩,
    ⟨by decide, nofun, (decode_compact nameless).2.2.1 (by decide) nofun⟩, htree, hmem⟩

end TypeRef

end QueryPayload
