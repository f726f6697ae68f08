import Mathlib.Tactic.Lemma
import QueryPayload.Proofs.Document.Registry
import QueryPayload.Proofs.Json.Compact
import QueryPayload.Proofs.Schema.Agreement

/-!
# The ways to decode a document

A document is decoded from a text, in memory or from a stream, or from a tree.  The ways agree as
far as they can: a tree has lost the entries whose keys are repeated, and a text is refused for some
of them.

## Main results

* `Document.decoders_agree` — what the decoders have in common on a text and its tree.
-/

set_option relaxedAutoImplicit false
set_option autoImplicit false

namespace QueryPayload

namespace Document

variable {supply : Supply} {text : List UInt8} {v : Json} {d : Document}
  {clash : DuplicateFragment}

/-- A text decodes to a document as its three lists do. -/
lemma ofText_eq_ok_iff :
    ofText supply text = .ok d ↔
      ∃ ps, (Json.Source.scan text).1.read (.record .document) = .ok ps ∧
        (Json.Source.scan text).2 = none ∧ ofParts ps = .ok d :=
  conclude_eq_ok_iff

/-- A tree decodes to a document as its three lists do. -/
lemma ofJson_eq_ok_iff :
    ofJson v = .ok d ↔ ∃ ps, v.read (.record .document) = .ok ps ∧ ofParts ps = .ok d := by
  rw [ofJson]
  cases v.read (.record .document) <;> simp

/-- Two fragments of a text have one name if those of its three lists do. -/
lemma ofText_eq_clash_iff :
    ofText supply text = .error (.duplicateFragment clash) ↔
      ∃ ps, (Json.Source.scan text).1.read (.record .document) = .ok ps ∧
        ofParts ps = .error (.duplicateFragment clash) := by
  simp only [ofText, readParts, conclude]
  cases hread : (Json.Source.scan text).1.read (.record .document) with
  | error e => simp [DecodeError.ofFailure]
  | ok ps =>
    cases hparts : ofParts ps with
    | error e => simp [hparts]
    | ok d => cases (Json.Source.scan text).2 <;> simp [hparts, DecodeError.ofFailure]

/-- Two fragments of a tree have one name if those of its three lists do. -/
lemma ofJson_eq_clash_iff :
    ofJson v = .error (.duplicateFragment clash) ↔
      ∃ ps, v.read (.record .document) = .ok ps ∧
        ofParts ps = .error (.duplicateFragment clash) := by
  rw [ofJson]
  cases v.read (.record .document) <;> simp

/-- **The decoders agree** on a text and on the tree that it holds, in which the last of several
values under one key counts.  If the text decodes in one supply, then it does in every supply and
the tree decodes too, all to the same document.  If no object in the text repeats a key, then the
text decodes in every supply where the tree decodes, to the same document, and the same clash of
fragments is reported for the text in any supply and for the tree.

**Proof sketch.** The supply is used for the positions of errors only.  What the text is read as the
tree is read as too (`Json.Source.read_entails_of_tree`), and the converse holds if no key is
repeated (`Json.Source.read_entailed_of_distinctKeys`).  So both have the same three lists, of which
the same document or the same clash is made. -/
theorem decoders_agree (text : List UInt8) (v : Json) (hv : Json.ofText text = .ok v) :
    (∀ supply d, ofText supply text = .ok d →
      (∀ supply', ofText supply' text = .ok d) ∧ ofJson v = .ok d) ∧
    ((Json.Source.scan text).1.distinctKeys = true →
      (∀ d, ofJson v = .ok d → ∀ supply, ofText supply text = .ok d) ∧
      ∀ supply clash, ofText supply text = .error (.duplicateFragment clash) ↔
        ofJson v = .error (.duplicateFragment clash)) := by
  obtain ⟨htree, htrailing⟩ := Json.ofText_eq_ok_iff.1 hv
  have hentails := Json.Source.read_entails_of_tree v htree
  refine ⟨fun supply d hd => ?_, fun hdistinct => ⟨fun d hd supply => ?_, fun supply clash => ?_⟩⟩
  · obtain ⟨ps, hps, -, hparts⟩ := ofText_eq_ok_iff.1 hd
    exact ⟨fun supply' => ofText_eq_ok_iff.2 ⟨ps, hps, htrailing, hparts⟩,
      ofJson_eq_ok_iff.2 ⟨ps, hentails _ ps hps, hparts⟩⟩
  · have hentailed := Json.Source.read_entailed_of_distinctKeys v htree hdistinct
    obtain ⟨ps, hps, hparts⟩ := ofJson_eq_ok_iff.1 hd
    exact ofText_eq_ok_iff.2 ⟨ps, hentailed _ ps hps, htrailing, hparts⟩
  · have hentailed := Json.Source.read_entailed_of_distinctKeys v htree hdistinct
    rw [ofText_eq_clash_iff, ofJson_eq_clash_iff]
    constructor
    · rintro ⟨ps, hps, hparts⟩
      exact ⟨ps, hentails _ ps hps, hparts⟩
    · rintro ⟨ps, hps, hparts⟩
      exact ⟨ps, hentailed _ ps hps, hparts⟩

/-- A tree that decodes can be written and decoded from its text. -/
lemma ofText_compact (hv : v.Spelled) (hnesting : v.nesting ≤ Json.Source.maxLevel)
    (hdistinct : v.distinctKeys = true) (h : ofJson v = .ok d) :
    ofText supply (Utf8.bytes v.compact) = .ok d := by
  obtain ⟨ps, hps, hparts⟩ := ofJson_eq_ok_iff.1 h
  obtain ⟨hread, hend⟩ :=
    Shape.decode_eq_ok_iff.1 (Json.decode_compact_of_read hv hnesting hdistinct hps)
  exact ofText_eq_ok_iff.2 ⟨ps, hread, hend, hparts⟩

/-- A payload with one fragment. -/
def fragmentPayload : Json :=
  .obj [("operations", .arr []),
    ("fragments", .arr [.arr [.str "F", .str "f", .str "s", .arr [.arr [], .arr []]]]),
    ("typesUsed", .arr [])]

/-- The text of `fragmentPayload`. -/
def fragmentText : List UInt8 := Utf8.bytes fragmentPayload.compact

/-- The document of `fragmentPayload`. -/
def fragmentDocument : Document := ⟨[], ⟨[("F", ⟨"F", "f", "s", ⟨[], []⟩⟩)]⟩, []⟩

/-- There are no numbers in `fragmentPayload`. -/
lemma spelled_fragmentPayload : fragmentPayload.Spelled := by
  simp [fragmentPayload, Json.Spelled, Json.ItemsSpelled, Json.EntriesSpelled]

/-- `decoders_agree` on a text in which no key is repeated. -/
theorem ofText_fragmentText :
    Json.ofText fragmentText = .ok fragmentPayload ∧
      ofJson fragmentPayload = .ok fragmentDocument ∧
      ∀ supply, ofText supply fragmentText = .ok fragmentDocument := by
  have hnesting : fragmentPayload.nesting ≤ Json.Source.maxLevel := by decide
  have hv : Json.ofText fragmentText = .ok fragmentPayload :=
    Json.ofText_compact spelled_fragmentPayload hnesting (by decide)
  have hdistinct : (Json.Source.scan fragmentText).1.distinctKeys = true :=
    Json.distinctKeys_scan_compact spelled_fragmentPayload hnesting (by decide)
  have hd : ofJson fragmentPayload = .ok fragmentDocument := by rfl
  exact ⟨hv, hd, ((decoders_agree _ _ hv).2 hdistinct).1 _ hd⟩

end Document

end QueryPayload
