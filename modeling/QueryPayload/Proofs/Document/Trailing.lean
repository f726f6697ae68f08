import Mathlib.Tactic.Lemma
import QueryPayload.Proofs.Document.EntryPoints
import QueryPayload.Proofs.Json.Persistence
import QueryPayload.Proofs.Schema.Skippable

/-!
# What may follow a document

A text that decodes to a document may be followed by blanks.  Whatever else follows makes it no
document, and never another one.

## Main definitions

* `Document.trailingPosition` — where a text is found to go on behind its document.

## Main results

* `Document.ofText_append` — what is decoded from a text that goes on.
-/

set_option relaxedAutoImplicit false
set_option autoImplicit false

namespace QueryPayload

/-! ## Blank characters -/

/-- The numbers of the bytes that may stand between the parts of a JSON text. -/
lemma Byte.isBlank_iff {b : UInt8} :
    isBlank b = true ↔ b.toNat = 0x20 ∨ b.toNat = 0x0A ∨ b.toNat = 0x09 ∨ b.toNat = 0x0D := by
  simp only [isBlank, Bool.or_eq_true, beq_iff_eq, ← UInt8.toNat_inj, or_assoc]
  rfl

namespace Utf8

/-- The characters that may stand between the parts of a JSON text. -/
lemma forall_isBlank_encodeChar_iff {c : Char} :
    (∀ b ∈ String.utf8EncodeChar c, Byte.isBlank b = true) ↔ c ∈ [' ', '\t', '\n', '\r'] := by
  have hnumbers : c ∈ [' ', '\t', '\n', '\r'] ↔
      c.toNat = 0x20 ∨ c.toNat = 0x0A ∨ c.toNat = 0x09 ∨ c.toNat = 0x0D := by
    simp only [List.mem_cons, List.not_mem_nil, or_false, ← Char.toNat_inj]
    exact or_congr_right or_left_comm
  rw [hnumbers]
  by_cases hascii : c.toNat < 0x80
  · have hbyte : (UInt8.ofNat c.toNat).toNat = c.toNat := by
      rw [UInt8.toNat_ofNat']
      omega
    rw [encodeChar_of_lt hascii, List.forall_mem_singleton, Byte.isBlank_iff, hbyte]
  · -- the first byte of such a character is beyond the blanks, as is its number
    obtain ⟨b, hb⟩ := List.exists_mem_of_ne_nil _ (String.utf8EncodeChar_ne_nil (c := c))
    have hle := le_of_mem_encodeChar (Nat.le_of_not_lt hascii) hb
    constructor
    · intro hblank
      have := Byte.isBlank_iff.1 (hblank b hb)
      omega
    · omega

/-- A text consists of blanks if its characters are. -/
lemma forall_isBlank_bytes_iff {s : String} :
    (∀ b ∈ bytes s, Byte.isBlank b = true) ↔ ∀ c ∈ s.toList, c ∈ [' ', '\t', '\n', '\r'] := by
  rw [bytes, encode, List.forall_mem_flatMap]
  exact forall₂_congr fun _ _ => forall_isBlank_encodeChar_iff

end Utf8

/-! ## Texts that go on -/

/-- Where a record is found there is an array or an object, and no number. -/
lemma Json.Source.ne_number_of_read {v : Source} {r : Record} {x : r.Val}
    (h : v.read (.record r) = .ok x) :
    ∀ start n stop, v ≠ .scalar start (.number n) stop := by
  rintro start n stop rfl
  exact wrongType_ne_ok h

namespace Document

/-- Where a text is found to go on behind its document: at the first byte that is no blank. -/
def trailingPosition (supply : Supply) (text more : List UInt8) : Position :=
  Mark.position supply (text ++ more)
    (.blaming (text.length + (more.takeWhile Byte.isBlank).length))

/-- What is decoded from a text that goes on. -/
lemma ofText_append_eq {supply : Supply} {text : List UInt8} {d : Document}
    (h : ofText supply text = .ok d) (more : List UInt8) :
    ofText supply (text ++ more) =
      if more.all Byte.isBlank then .ok d
      else .error (.invalidPayload [] (.notJson .trailingCharacters)
        (some (trailingPosition supply text more))) := by
  obtain ⟨ps, hps, htrailing, hparts⟩ := ofText_eq_ok_iff.1 h
  have hscan := Json.Source.scan_append more (Json.Source.skipFault?_of_read ⟨_, ps, hps⟩)
    (Json.Source.ne_number_of_read hps) htrailing
  simp only [ofText, readParts, hscan, hps, conclude, hparts, Json.Source.trailing?_eq]
  by_cases hblank : more.all Byte.isBlank = true
  · simp only [if_pos hblank]
  · simp only [if_neg hblank]
    rfl

/-- **Only blanks may follow a document.**  If a text, given by its bytes in memory or from a
stream, decodes to a document, then it does so with blanks behind it.  With anything else behind it,
it is no document: the error is found at the root, at the first byte that is no blank.  The same
holds for strings, where the blanks are spaces, tabs and the two characters that end lines.

**Proof sketch.** What has been read can be passed over (`Json.Source.skipFault?_of_read`), and it
is an array or an object.  So it is still there in the text that goes on, and the check for what
follows sees exactly the bytes added (`Json.Source.scan_append`). -/
theorem ofText_append (supply : Supply) :
    (∀ (text : List UInt8) (d : Document), ofText supply text = .ok d → ∀ more : List UInt8,
      ((∀ b ∈ more, Byte.isBlank b = true) → ofText supply (text ++ more) = .ok d) ∧
      (¬ (∀ b ∈ more, Byte.isBlank b = true) →
        ofText supply (text ++ more) =
          .error (.invalidPayload [] (.notJson .trailingCharacters)
            (some (trailingPosition supply text more))))) ∧
    ∀ (t : String) (d : Document), ofText supply (Utf8.bytes t) = .ok d → ∀ s : String,
      ((∀ c ∈ s.toList, c ∈ [' ', '\t', '\n', '\r']) →
        ofText supply (Utf8.bytes (t ++ s)) = .ok d) ∧
      (¬ (∀ c ∈ s.toList, c ∈ [' ', '\t', '\n', '\r']) →
        ofText supply (Utf8.bytes (t ++ s)) =
          .error (.invalidPayload [] (.notJson .trailingCharacters)
            (some (trailingPosition supply (Utf8.bytes t) (Utf8.bytes s))))) := by
  refine ⟨fun text d h more => ?_, fun t d h s => ?_⟩
  · rw [ofText_append_eq h, ← List.all_eq_true]
    exact ⟨fun hblank => if_pos hblank, fun hother => if_neg hother⟩
  · rw [Utf8.bytes_append, ofText_append_eq h, ← Utf8.forall_isBlank_bytes_iff, ← List.all_eq_true]
    exact ⟨fun hblank => if_pos hblank, fun hother => if_neg hother⟩

/-- `ofText_append` with a line end, a bracket and a character that only looks blank behind a
document. -/
theorem ofText_append_fragment :
    (∀ b ∈ [0x20, 0x0A], Byte.isBlank b = true) ∧
      ofText .stream (fragmentText ++ [0x20, 0x0A]) = .ok fragmentDocument ∧
      ofText .stream (fragmentText ++ [0x0A, 0x5D]) =
        .error (.invalidPayload [] (.notJson .trailingCharacters) (some ⟨2, 1⟩)) ∧
      ofText .stream (Utf8.bytes (fragmentPayload.compact ++ " \n")) = .ok fragmentDocument ∧
      ofText .stream (Utf8.bytes (fragmentPayload.compact ++ "\u00a0")) =
        .error (.invalidPayload [] (.notJson .trailingCharacters) (some ⟨1, 69⟩)) := by
  have hd : ofText .stream fragmentText = .ok fragmentDocument :=
    ofText_compact spelled_fragmentPayload (by decide) (by decide) (by rfl)
  have hblank : ∀ b ∈ [0x20, 0x0A], Byte.isBlank b = true := List.all_eq_true.1 rfl
  obtain ⟨hbytes, hstrings⟩ := ofText_append .stream
  have hbracket := (hbytes _ _ hd [0x0A, 0x5D]).2 (by decide)
  have hother := (hstrings fragmentPayload.compact _ hd "\u00a0").2 (by simp)
  have hposition : trailingPosition .stream fragmentText [0x0A, 0x5D] = ⟨2, 1⟩ := by
    decide +kernel
  have hposition' : trailingPosition .stream fragmentText (Utf8.bytes "\u00a0") = ⟨1, 69⟩ := by
    decide +kernel
  rw [hposition] at hbracket
  rw [← fragmentText, hposition'] at hother
  exact ⟨hblank, (hbytes _ _ hd _).1 hblank, hbracket, (hstrings _ _ hd " \n").1 (by simp), hother⟩

end Document

end QueryPayload
