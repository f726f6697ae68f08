import QueryPayload.Log.Level
import QueryPayload.Report.Violation
import QueryPayload.Text.Quoted

/-!
# Log records

## Main definitions

* `Log.Event` — everything that is logged.
* `Log.Event.level`, `Log.Event.target`, `Log.Event.message` — the parts of its record.
* `Log.Event.text` — the record on one line.
* `Log.kept` — the events that a log of a given level has.
* `Log.opening` — the level a run logs at, and the events that go with choosing it.

## Design

Events are data, and the functions that do something return the events that go with it.  Whether
and where they are written is up to the outermost layer.
-/

set_option relaxedAutoImplicit false
set_option autoImplicit false

namespace QueryPayload

namespace Log

/-- Everything that is logged. -/
inductive Event where
  /-- The level of the log has been chosen. -/
  | levelChosen (level : Level)
  /-- The setting of the level names none. -/
  | unknownLevel (unknown : UnknownLevel)
  /-- A scan of so many arguments begins. -/
  | scanStarted (arguments : Nat)
  /-- Something at or under an argument could not be visited. -/
  | visitFailed (argument : String)
  /-- What was met is no file. -/
  | nonFileSkipped (path : String)
  /-- The file met has none of the wanted extensions. -/
  | extensionSkipped (path : String)
  /-- The file met has a wanted extension. -/
  | fileFound (path : String)
  /-- A file is loaded although it has none of the wanted extensions. -/
  | extensionIgnored (path : String) (extensions : List String)
  /-- The scan has found so many files. -/
  | scanEnded (files : Nat)
  /-- A fragment of a payload has been registered. -/
  | fragmentRegistered (name path : String)
  /-- A payload with so many definitions has been decoded. -/
  | documentDecoded (operations fragments usedTypes : Nat)
  /-- A file with so many operations has been loaded. -/
  | fileLoaded (operations : Nat) (path : String)
  /-- Something is wrong inside the document of a file. -/
  | violationFound (path : String) (violation : Violation)
  deriving DecidableEq, Repr

namespace Event

/-- How much an event matters. -/
def level : Event → Level
  | .levelChosen _ => .trace
  | .unknownLevel _ => .warn
  | .scanStarted _ => .debug
  | .visitFailed _ => .trace
  | .nonFileSkipped _ => .trace
  | .extensionSkipped _ => .trace
  | .fileFound _ => .trace
  | .extensionIgnored .. => .warn
  | .scanEnded _ => .debug
  | .fragmentRegistered .. => .trace
  | .documentDecoded .. => .debug
  | .fileLoaded .. => .debug
  | .violationFound .. => .debug

/-- The part of the program that an event comes from, as records name it. -/
def target : Event → String
  | .levelChosen _ => "graphql_codegen"
  | .unknownLevel _ => "graphql_codegen"
  | .scanStarted _ => "graphql_codegen::ast_files"
  | .visitFailed _ => "graphql_codegen::ast_files"
  | .nonFileSkipped _ => "graphql_codegen::ast_files"
  | .extensionSkipped _ => "graphql_codegen::ast_files"
  | .fileFound _ => "graphql_codegen::ast_files"
  | .extensionIgnored .. => "graphql_codegen::ast_files"
  | .scanEnded _ => "graphql_codegen::ast_files"
  | .fragmentRegistered .. => "graphql_codegen_ast::operation::fragment_registry_builder"
  | .documentDecoded .. => "graphql_codegen_ast::ast_document"
  | .fileLoaded .. => "graphql_codegen::ast_files"
  | .violationFound .. => "graphql_codegen::commands::validate"

/-- The wording of an event. -/
def message : Event → String
  | .levelChosen level => "Initial logging level set to `" ++ level.spelling ++ "`."
  | .unknownLevel unknown =>
    "Invalid `LOG_LEVEL` environment variable value: `" ++ unknown.setting ++ "`"
  | .scanStarted arguments => "Scanning " ++ toString arguments ++ " input paths..."
  | .visitFailed argument =>
    "Encountered an error while iterating recursive filesystem entities at/under " ++
      Text.quoted argument ++ "."
  | .nonFileSkipped path => "Skipping non-file: " ++ Text.quoted path ++ "."
  | .extensionSkipped path =>
    "Skipping file with unrecognized extension: " ++ Text.quoted path ++ "."
  | .fileFound path => "Found AST file at " ++ Text.quoted path ++ "."
  | .extensionIgnored path extensions =>
    "Proceeding to load " ++ Text.quoted path ++
      " even though it doesn't match any of the --ast-file-exts (" ++
      ", ".intercalate (extensions.map fun e => "`" ++ e ++ "`") ++ ")."
  | .scanEnded files => "Found " ++ toString files ++ " AST files."
  | .fragmentRegistered name path => "Registered fragment `" ++ name ++ "` from `" ++ path ++ "`."
  | .documentDecoded operations fragments usedTypes =>
    "Decoded AST document: " ++ toString operations ++ " operation(s), " ++ toString fragments ++
      " fragment(s), " ++ toString usedTypes ++ " used type(s)."
  | .fileLoaded operations path =>
    "Loaded " ++ toString operations ++ " operation(s) from " ++ path ++ "."
  | .violationFound path violation =>
    "Validation error in " ++ path ++ ": " ++ violation.message

/-- The record of an event on one line. -/
def text (e : Event) : String := e.level.spelling ++ " " ++ e.target ++ ": " ++ e.message

end Event

/-- The events that a log of the given level has. -/
def kept (threshold : Level) (events : List Event) : List Event :=
  events.filter fun e => threshold.admits e.level

/-- The level a run logs at, and the events that go with choosing it.  Whoever asks for a verbose
run gets `debug`, and the setting is not looked at. -/
def opening (verbose : Bool) (setting : Option String) : Level × List Event :=
  if verbose then (.debug, [.levelChosen .debug])
  else
    match setting.map Level.ofText with
    | none => (.standard, [.levelChosen .standard])
    | some (.ok level) => (level, [.levelChosen level])
    | some (.error unknown) => (.standard, [.levelChosen .standard, .unknownLevel unknown])

end Log

end QueryPayload
