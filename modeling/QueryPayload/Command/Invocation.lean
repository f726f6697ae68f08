import QueryPayload.Text.Split

/-!
# The command line

## Main definitions

* `Invocation` — what a command line asks for.
* `Refusal` — why a command line is not run; this includes the requests for help and version.
* `Invocation.ofArguments` — reads the arguments, in their order.

## Design

Arguments are read one by one, and the first thing wrong is reported.  What has been read is not
checked at once, though: values still to be checked are held back (`Pending`) until the next flag
or value of another kind.  So an option without its value goes unnoticed if an unknown flag follows
it, and is noticed if a known one does.
-/

set_option relaxedAutoImplicit false
set_option autoImplicit false

namespace QueryPayload

/-- The commands of the program. -/
inductive Command where
  | inspect
  | validate
  deriving DecidableEq, Repr

/-- The spelling of a command. -/
def Command.spelling : Command → String
  | .inspect => "inspect"
  | .validate => "validate"

/-- The command with the given spelling. -/
def Command.find? (name : String) : Option Command :=
  [.inspect, .validate].find? (·.spelling == name)

/-- What a command works on. -/
structure FileArguments where
  extensions : List String
  paths : List String
  deriving DecidableEq, Repr

/-- What a command line asks for. -/
structure Invocation where
  verbose : Bool
  command : Option (Command × FileArguments)
  deriving DecidableEq, Repr

/-- What is printed where the version is asked for. -/
def versionLine : String := "graphql-codegen 0.0.1"

/-- Why a command line is not run. -/
inductive Refusal where
  | helpRequested
  | versionRequested
  | missingRequiredArgument
  | unknownArgument
  | invalidSubcommand
  | invalidValue
  | argumentConflict
  | tooManyValues
  deriving DecidableEq, Repr

/-- The exit code for a command line that is not run. -/
def Refusal.exitCode : Refusal → Nat
  | .helpRequested | .versionRequested => 0
  | _ => 2

/-! ## Single arguments -/

/-- An argument by its form. -/
inductive Word where
  /-- A double dash alone: no flags follow. -/
  | escape
  /-- A flag with a long name, and the value attached to it. -/
  | long (name : String) (value : Option String)
  /-- Flags with names of one letter. -/
  | short (letters : List Char)
  /-- Anything else. -/
  | plain (text : String)
  deriving DecidableEq, Repr

/-- The text before the first equals sign, and the text behind it if there is one. -/
def splitAtEquals (cs : List Char) : String × Option String :=
  let name := String.ofList (cs.takeWhile (· ≠ '='))
  match cs.dropWhile (· ≠ '=') with
  | [] => (name, none)
  | _ :: value => (name, some (String.ofList value))

/-- An argument by its form.  A dash alone is a plain argument. -/
def Word.of (argument : String) : Word :=
  match argument.toList with
  | ['-', '-'] => .escape
  | '-' :: '-' :: cs => let (name, value) := splitAtEquals cs; .long name value
  | '-' :: c :: cs => .short (c :: cs)
  | _ => .plain argument

/-! ## The arguments of a command -/

/-- What has been read and not yet checked. -/
inductive Pending where
  | nothing
  /-- The option for extensions, without a value. -/
  | option
  /-- Paths, of which some may be empty. -/
  | paths (anyEmpty : Bool)
  deriving DecidableEq, Repr

/-- Whether what is held back is in order. -/
def Pending.check : Pending → Except Refusal Unit
  | .nothing => .ok ()
  | .option => .error .invalidValue
  | .paths anyEmpty => if anyEmpty then .error .invalidValue else .ok ()

/-- The arguments of a command read so far. -/
structure CommandReading where
  extensions : Option (List String)
  paths : List String
  pending : Pending
  deriving DecidableEq, Repr

namespace CommandReading

/-- Nothing read yet. -/
def empty : CommandReading := ⟨none, [], .nothing⟩

/-- Reads a value of the option for extensions, which may list several. -/
def addExtensions (r : CommandReading) (value : String) : CommandReading :=
  ⟨some (r.extensions.getD [] ++ Text.split ',' value), r.paths, .nothing⟩

/-- Reads a path. -/
def addPath (r : CommandReading) (path : String) : Except Refusal CommandReading :=
  match r.pending with
  | .paths anyEmpty => .ok ⟨r.extensions, r.paths ++ [path], .paths (anyEmpty || path == "")⟩
  | pending => do
    pending.check
    return ⟨r.extensions, r.paths ++ [path], .paths (path == "")⟩

/-- The name of the option for extensions. -/
def extensionsOption : String := "ast-file-exts"

/-- Reads a long flag. -/
def addLong (r : CommandReading) (name : String) (value : Option String) :
    Except Refusal CommandReading :=
  if name = extensionsOption then do
    r.pending.check
    match value with
    | some value => return r.addExtensions value
    | none => return ⟨r.extensions, r.paths, .option⟩
  else if name = "help" then do
    if value.isSome then .error .tooManyValues
    r.pending.check
    .error .helpRequested
  else .error .unknownArgument

/-- Reads flags of one letter, of which there is only the request for help. -/
def addLetters (r : CommandReading) (letters : List Char) : Except Refusal CommandReading := do
  if letters.head? ≠ some 'h' then .error .unknownArgument
  r.pending.check
  .error .helpRequested

/-- Reads an argument that is no flag: the value that an option waits for, or else a path. -/
def addPlain (r : CommandReading) (text : String) : Except Refusal CommandReading :=
  match r.pending with
  | .option => .ok (r.addExtensions text)
  | _ => r.addPath text

/-- Reads the arguments behind a command.  All that follow a double dash are paths. -/
def addAll (r : CommandReading) : List String → Except Refusal CommandReading
  | [] => .ok r
  | argument :: arguments =>
    match Word.of argument with
    | .escape => arguments.foldlM addPath r
    | .long name value => do (← r.addLong name value).addAll arguments
    | .short letters => do (← r.addLetters letters).addAll arguments
    | .plain text => do (← r.addPlain text).addAll arguments

/-- What the command works on.  Without the option, the extension is `json`. -/
def finish (r : CommandReading) : Except Refusal FileArguments := do
  r.pending.check
  if r.paths.isEmpty then .error .missingRequiredArgument
  else return ⟨r.extensions.getD ["json"], r.paths⟩

end CommandReading

/-- What a command works on. -/
def FileArguments.ofArguments (arguments : List String) : Except Refusal FileArguments := do
  let r ← CommandReading.empty.addAll arguments
  r.finish

/-! ## All arguments -/

namespace Invocation

/-- What is asked for by the words behind `help`: help on a command if there is one of that name. -/
def helpOn : List String → Refusal
  | [] => .helpRequested
  | [word] =>
    if word = "help" ∨ (Command.find? word).isSome then .helpRequested else .invalidSubcommand
  | _ => .invalidSubcommand

/-- Reads flags of one letter in front of a command. -/
def readLetters (verbose : Bool) : List Char → Except Refusal Bool
  | [] => .ok verbose
  | c :: cs =>
    if c = 'v' then if verbose then .error .argumentConflict else readLetters true cs
    else if c = 'h' then .error .helpRequested
    else if c = 'V' then .error .versionRequested
    else .error .unknownArgument

/-- Reads a long flag in front of a command. -/
def readLong (verbose : Bool) (name : String) (value : Option String) : Except Refusal Bool :=
  if ["verbose", "help", "version"].contains name then
    if value.isSome then .error .tooManyValues
    else if name = "verbose" then if verbose then .error .argumentConflict else .ok true
    else if name = "help" then .error .helpRequested
    else .error .versionRequested
  else .error .unknownArgument

/-- Reads what follows a double dash in front of a command, where no command is looked for. -/
def afterEscape (verbose : Bool) : List String → Except Refusal Invocation
  | [] => .ok ⟨verbose, none⟩
  | word :: _ =>
    if word = "help" ∨ (Command.find? word).isSome then .error .unknownArgument
    else .error .invalidSubcommand

/-- Reads the arguments, once it is known whether a verbose run has been asked for. -/
def read (verbose : Bool) : List String → Except Refusal Invocation
  | [] => .ok ⟨verbose, none⟩
  | argument :: arguments =>
    match Word.of argument with
    | .escape => afterEscape verbose arguments
    | .long name value => do
      let verbose ← readLong verbose name value
      read verbose arguments
    | .short letters => do
      let verbose ← readLetters verbose letters
      read verbose arguments
    | .plain word =>
      if word = "help" then .error (helpOn arguments)
      else
        match Command.find? word with
        | none => .error .invalidSubcommand
        | some command => do
          let files ← FileArguments.ofArguments arguments
          return ⟨verbose, some (command, files)⟩

/-- What the arguments of the program ask for. -/
def ofArguments (arguments : List String) : Except Refusal Invocation := read false arguments

end Invocation

end QueryPayload
