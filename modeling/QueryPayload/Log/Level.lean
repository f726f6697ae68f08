import QueryPayload.Text.Blank

/-!
# Log levels

## Main definitions

* `Log.Level` — how much a log record matters; `Log.Level.admits` compares two of them.
* `Log.Level.ofText` — the level that a setting names.
-/

set_option relaxedAutoImplicit false
set_option autoImplicit false

namespace QueryPayload

/-- How much a log record matters, the least first. -/
inductive Log.Level where
  | trace
  | debug
  | info
  | warn
  deriving DecidableEq, Repr

/-- A setting that names no level. -/
structure Log.UnknownLevel where
  setting : String
  deriving DecidableEq, Repr

namespace Log.Level

/-- The spelling of a level in a record. -/
def spelling : Level → String
  | .trace => "TRACE"
  | .debug => "DEBUG"
  | .info => "INFO"
  | .warn => "WARN"

/-- The place of a level in the order. -/
def rank : Level → Nat
  | .trace => 0
  | .debug => 1
  | .info => 2
  | .warn => 3

/-- Whether a log that starts at `threshold` has records of the given level. -/
def admits (threshold level : Level) : Bool := threshold.rank ≤ level.rank

/-- The level that applies unless a setting says otherwise. -/
def standard : Level := .info

/-- The level that a setting names, blanks around it aside.  Each word is known in capitals and in
small letters; `verbose` is another word for `debug`. -/
def ofText (setting : String) : Except UnknownLevel Level :=
  let word := Text.trim setting
  if word = "DEBUG" ∨ word = "debug" then .ok .debug
  else if word = "INFO" ∨ word = "info" then .ok .info
  else if word = "TRACE" ∨ word = "trace" then .ok .trace
  else if word = "VERBOSE" ∨ word = "verbose" then .ok .debug
  else .error ⟨word⟩

end Log.Level

end QueryPayload
