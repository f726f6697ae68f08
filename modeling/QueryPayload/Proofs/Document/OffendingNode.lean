import Mathlib.Tactic.Lemma
import QueryPayload.Document.Decode
import QueryPayload.Proofs.Schema.Failures
import QueryPayload.TypeRef.Json

/-!
# Errors point at the offending node

When a payload is no document, the error tells where the problem is.  Whoever follows the path in
the payload finds a node there, and this node alone has the problem: none of its siblings is needed
to see it.

## Main results

* `Document.offendingNode_of_error` — the path of an error leads to the offending node, and so does
  the path that is told by a selection.
-/

set_option relaxedAutoImplicit false
set_option autoImplicit false

namespace QueryPayload

namespace Document

/-- **Errors point at the offending node.**  If a tree is no document, then the path of the error
leads from its root to a node, and that node, read alone as what the place asks for, fails with the
same problem.  If a selection, wherever it stands, has a problem inside, then the path that it tells
leads from the selection to a node inside, and that node, read alone as what its place asks for in
a selection of this kind, fails with the problem that the selection tells.

**Proof sketch.** A payload is no document for two reasons, and the one with a path is a failure of
reading it (`Json.leads_of_read_error`).  The second part is `Json.leads_of_readSelection_error`. -/
theorem offendingNode_of_error :
    (∀ (v : Json) (path : Path) (problem : Problem) (position : Option Position),
      ofJson v = .error (.invalidPayload path problem position) →
      ∃ s w mark, Json.Leads (.record .document) v path s w ∧
        w.read s = .error ⟨[], problem, mark⟩) ∧
    ∀ (v : Json) (e : Failure) (k : Selection.Kind) (path : Path) (problem : Problem),
      v.read .selection = .error e → e.problem = .inSelection k path problem →
      e.path = [] ∧ ∃ entries, v = .obj entries ∧ Json.kindOf? entries = some k ∧
        ((entries.map (·.1)).Nodup → ∃ s w mark, Json.Leads (.record k.record) v path s w ∧
          w.read s = .error ⟨[], problem, mark⟩) := by
  refine ⟨fun v path problem position h => ?_, fun v e k path problem =>
    Json.leads_of_readSelection_error⟩
  rw [ofJson] at h
  cases hread : v.read (.record .document) with
  | error e =>
    rw [hread] at h
    cases h
    obtain ⟨s, w, hleads, hw⟩ := Json.leads_of_read_error hread
    exact ⟨s, w, e.mark, hleads, hw⟩
  | ok parts =>
    rw [hread] at h
    simp only [ofParts] at h
    split at h <;> cases h

/-- The payload of a selection whose type lacks the name it is to have. -/
def namelessPayload : Json :=
  .obj [("kind", .str "Field"), ("name", .str "items"),
    ("typeNode", .obj [("kind", .str "NamedType")])]

/-- `offendingNode_of_error` where the second of two selections in a fragment has a type without a
name. -/
theorem offendingNode_nameless :
    (∃ s w mark,
      Json.Leads (.record .document)
        (.obj [("operations", .arr []), ("fragments", .arr [.obj [("fragmentName", .str "A"),
          ("filePath", .str "a"), ("source", .str ""), ("selectionSet", .arr [.arr [],
            .arr [.obj [("kind", .str "FragmentSpread"), ("fragmentName", .str "B")],
              namelessPayload]])]]), ("typesUsed", .arr [])])
        [.key "fragments", .index 0, .key "selectionSet", .index 1, .index 1] s w ∧
      w.read s = .error ⟨[], .inSelection .field [.key "typeNode"]
        (.malformedType (.missingRequiredChild .namedType)), mark⟩) ∧
    ∃ s w mark, Json.Leads (.record .field) namelessPayload [.key "typeNode"] s w ∧
      w.read s = .error ⟨[], .malformedType (.missingRequiredChild .namedType), mark⟩ := by
  obtain ⟨hdocument, hselection⟩ := offendingNode_of_error
  refine ⟨hdocument _ _ _ none (by rfl), ?_⟩
  obtain ⟨-, entries, hentries, hkind, hleads⟩ :=
    hselection namelessPayload _ .field [.key "typeNode"] _ rfl rfl
  cases hentries
  exact hleads (by decide)

end Document

end QueryPayload
