import QueryPayload.Report.ErrorList

/-!
# Results of commands

## Main definitions

* `CommandResult` — whether a command succeeded, and what it prints.
* `CommandResult.success`, `CommandResult.failure`, `CommandResult.partialOutput`.
-/

set_option relaxedAutoImplicit false
set_option autoImplicit false

namespace QueryPayload

/-- Whether a command succeeded, and what it prints on its two outputs. -/
structure CommandResult where
  succeeded : Bool
  output : Option String
  errorOutput : Option String
  deriving DecidableEq, Repr

namespace CommandResult

/-- The exit code of the program. -/
def exitCode (r : CommandResult) : Nat := if r.succeeded then 0 else 1

/-- A command that succeeded. -/
def success (output : String) : CommandResult := ⟨true, some output, none⟩

/-- A command that failed. -/
def failure (errors : List ErrorChain) : CommandResult :=
  ⟨false, none, some (ErrorList.text errors)⟩

/-- Output for some inputs where others may have failed.  Any error makes the command fail; what
output there is gets printed all the same. -/
def partialOutput (output : String) (errors : List ErrorChain) : CommandResult :=
  match errors with
  | [] => success output
  | errors =>
    ⟨false, if output = "" then none else some output, some (ErrorList.text errors)⟩

end CommandResult

end QueryPayload
