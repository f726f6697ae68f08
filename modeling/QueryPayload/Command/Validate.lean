import QueryPayload.Command.Result
import QueryPayload.Files.Load

/-!
# The command that checks documents

## Main definitions

* `LoadedFile.violations` — what is wrong inside the document of a file.
* `Tally` — what has been checked.
* `validate` — the tally if nothing is wrong, and otherwise a list of all errors.
-/

set_option relaxedAutoImplicit false
set_option autoImplicit false

namespace QueryPayload

namespace LoadedFile

/-- The document of a file, if it could be loaded. -/
def document? (f : LoadedFile) : Option Document := f.result.toOption

/-- What is wrong inside the document of a file. -/
def violations (f : LoadedFile) : List Violation :=
  match f.result with
  | .ok d => d.violations
  | .error _ => []

/-- What is wrong with a file: that it could not be loaded, or what is wrong inside. -/
def errors (f : LoadedFile) : List ErrorChain :=
  match f.result with
  | .ok d => d.violations.map fun v => .of (f.path ++ ": " ++ v.message)
  | .error e => [e]

/-- The events that go with checking a file. -/
def validationEvents (f : LoadedFile) : List Log.Event :=
  f.violations.map (.violationFound f.path)

end LoadedFile

/-- What has been checked. -/
structure Tally where
  files : Nat
  skipped : Nat
  operations : Nat
  fragments : Nat
  usedTypes : Nat
  deriving DecidableEq, Repr

namespace Tally

/-- The sizes of some documents, added up. -/
def total (size : Document → Nat) : List Document → Nat
  | [] => 0
  | d :: ds => size d + total size ds

/-- The tally of some files, when a scan has left others out. -/
def of (skipped : Nat) (files : List LoadedFile) : Tally :=
  let documents := files.filterMap LoadedFile.document?
  ⟨files.length, skipped, total (·.operations.length) documents,
    total (·.registry.size) documents, total (·.typesUsed.length) documents⟩

/-- The wording of a tally. -/
def text (t : Tally) : String :=
  "✅ All AST payloads validated successfully:\n" ++
    "  * Analyzed " ++ toString t.files ++ " files.\n" ++
    "  * Skipped " ++ toString t.skipped ++ " non-AST files.\n" ++
    "  * Validated " ++ toString t.operations ++ " operations.\n" ++
    "  * Validated " ++ toString t.fragments ++ " fragments.\n" ++
    "  * Validated " ++ toString t.usedTypes ++ " used types."

end Tally

/-- Checks the documents of the files, after a scan that met the given errors and left some files
out. -/
def validate (scanErrors : List ErrorChain) (skipped : Nat) (files : List LoadedFile) :
    CommandResult :=
  match scanErrors ++ files.flatMap LoadedFile.errors with
  | [] => .success (Tally.of skipped files).text
  | errors => .failure errors

end QueryPayload
