import QueryPayload.Command.Inspect
import QueryPayload.Command.Invocation
import QueryPayload.Command.Validate
import QueryPayload.Files.Scan

/-!
# Running a command

## Main definitions

* `Outcome` — the result of a command and the events that go with it.
* `Command.conclude` — what a command makes of a scan and of the files that have been loaded.
-/

set_option relaxedAutoImplicit false
set_option autoImplicit false

namespace QueryPayload

/-- The result of a command and the events that go with it. -/
structure Outcome where
  result : CommandResult
  events : List Log.Event
  deriving Repr

namespace Command

/-- What a command makes of the files a scan has found. -/
def report (command : Command) (scan : Scan) (files : List LoadedFile) : CommandResult :=
  match command with
  | .inspect => QueryPayload.inspect scan.errors files
  | .validate => QueryPayload.validate scan.errors scan.skipped files

/-- The events that go with the report of a command. -/
def reportEvents (command : Command) (files : List LoadedFile) : List Log.Event :=
  match command with
  | .inspect => []
  | .validate => files.flatMap LoadedFile.validationEvents

/-- The outcome of a command: first the scan, then the files it has found are loaded, then they
are reported on. -/
def conclude (command : Command) (scan : Scan) (loadings : List Loading) : Outcome :=
  let files := loadings.map Loading.file
  ⟨command.report scan files,
    scan.events ++ loadings.flatMap Loading.events ++ command.reportEvents files⟩

end Command

end QueryPayload
