import QueryPayload.Command.Result
import QueryPayload.Files.Load
import QueryPayload.Report.Inspection

/-!
# The command that shows documents

## Main definitions

* `inspect` — the outlines of all files that could be loaded, and a list of all errors.
-/

set_option relaxedAutoImplicit false
set_option autoImplicit false

namespace QueryPayload

namespace Outline

/-- Adds the lines of a file that could be loaded: its path, and its document one level deeper. -/
def loadedFile (o : Outline) (f : LoadedFile) : Outline :=
  match f.result with
  | .ok d => (o.line f.path).nested fun o => o.document d
  | .error _ => o

end Outline

/-- Why a file could not be loaded. -/
def LoadedFile.error? (f : LoadedFile) : Option ErrorChain :=
  match f.result with
  | .ok _ => none
  | .error e => some e

/-- Shows the documents of the files, after a scan that met the given errors. -/
def inspect (scanErrors : List ErrorChain) (files : List LoadedFile) : CommandResult :=
  .partialOutput (files.foldl Outline.loadedFile .empty).text
    (scanErrors ++ files.filterMap LoadedFile.error?)

end QueryPayload
