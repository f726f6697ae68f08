import QueryPayload.Command.Run

/-!
# The program

Reads the command line, lets the command run on a copy of the part of the file system that its
arguments reach, and prints what comes of it.

## Main definitions

* `main` — the program.

## Design

Nothing is decided here.  The file tree is copied without the contents of files; the contents are
read once the scan has told which files it has found.
-/

set_option relaxedAutoImplicit false
set_option autoImplicit false

namespace QueryPayload

namespace Program

/-- What is printed where help is asked for. -/
def help : String :=
  "Usage: graphql-codegen [-v|--verbose] [COMMAND]\n\n" ++
    "Commands:\n" ++
    "  inspect   Print the operations, fragments, and used types of AST payload files\n" ++
    "  validate  Check that AST payload files decode, that every type reference renders, and " ++
    "that every by-name reference resolves\n\n" ++
    "Arguments of a command: [--ast-file-exts EXTS] FILE_OR_DIR_PATHS..."

/-- What is printed about a command line that is not run. -/
def complaint : Refusal → String
  | .helpRequested => help
  | .versionRequested => versionLine
  | .missingRequiredArgument => "error: no paths were given"
  | .unknownArgument => "error: unexpected argument"
  | .invalidSubcommand => "error: unrecognized subcommand"
  | .invalidValue => "error: a value is required"
  | .argumentConflict => "error: an argument cannot be used multiple times"
  | .tooManyValues => "error: unexpected value"

/-- A file tree in the making, and the directories of which a copy has been begun. -/
structure Copy where
  tree : FileTree
  begun : List String

/-- A copy with one more node. -/
def Copy.put (c : Copy) (path : String) (node : FileNode) : Copy :=
  ⟨c.tree.put (FileTree.names path) node, c.begun⟩

/-- A name that no directory can hold. -/
def impossibleName : String := "\x00"

/-- Copies a link as one that leads straight to where it leads in the end, and tells where that
is. -/
def copyLink (c : Copy) (path : String) : IO (Copy × Option String) := do
  match (← (IO.FS.realPath path).toBaseIO) with
  | .error _ => return (c.put path (.link impossibleName), none)
  | .ok target => return (c.put path (.link target.toString), some target.toString)

mutual

/-- Copies a directory and everything below it. -/
partial def copyDirectory (c : Copy) (path : String) : IO Copy := do
  if c.begun.contains path then return c
  let mut c : Copy := ⟨(c.put path (.directory [])).tree, path :: c.begun⟩
  for entry in (← (IO.FS.DirEntry.mk path "").path.readDir) do
    c ← copyEntry c path entry.fileName
  return c

/-- Copies an entry of a directory and everything below it. -/
partial def copyEntry (c : Copy) (directory name : String) : IO Copy := do
  let path := (IO.FS.DirEntry.mk directory name).path
  match (← path.symlinkMetadata.toBaseIO) with
  | .error _ => return c
  | .ok found =>
    match found.type with
    | .file => return c.put path.toString .file
    | .other => return c.put path.toString .device
    | .dir => copyDirectory c path.toString
    | .symlink =>
      let (c, target) ← copyLink c path.toString
      target.elim (return c) (copyReal c)

/-- Copies what is at a path without links and everything below it. -/
partial def copyReal (c : Copy) (path : String) : IO Copy :=
  match (FileTree.names path).reverse with
  | [] => copyDirectory c "/"
  | name :: directory => copyEntry c (FileTree.absolutePath directory.reverse) name

end

/-- Copies what some names lead through from a directory, and everything below where they lead. -/
def copyPath (c : Copy) (directory : String) : List String → IO Copy
  | [] => copyReal c directory
  | name :: names => do
    let path := (IO.FS.DirEntry.mk directory name).path
    match (← path.symlinkMetadata.toBaseIO) with
    | .error _ => return c
    | .ok found =>
      let (c, target) ←
        if found.type == .symlink then copyLink c path.toString
        else pure (c, some (← IO.FS.realPath path).toString)
      match target with
      | none => return c
      | some target =>
        if (← path.isDir) then copyPath (c.put target (.directory [])) target names
        else copyReal c target

/-- Copies the part of the file system that some paths reach. -/
def copyTree (paths : List String) : IO FileTree := do
  let here := (← IO.currentDir).toString
  let copy ← paths.foldlM (fun c path =>
    copyPath c (if FileTree.isAbsolute path then "/" else here) (FileTree.names path))
    ⟨.empty (FileTree.names here), []⟩
  return copy.tree

/-- Loads a file. -/
def load (path : String) : IO Loading := do
  match (← (IO.FS.readBinFile path).toBaseIO) with
  | .ok bytes => return .ofContent path bytes.toList
  | .error e => return .unreadable path (toString e)

/-- Prints the records that a log of the given level has. -/
def log (threshold : Log.Level) (events : List Log.Event) : IO Unit :=
  (Log.kept threshold events).forM fun e => IO.eprintln e.text

/-- Runs a command. -/
def run (threshold : Log.Level) (command : Command) (files : FileArguments) : IO UInt32 := do
  let t ← copyTree files.paths
  let scan := t.scan files.extensions files.paths
  let outcome := command.conclude scan (← scan.files.mapM load)
  log threshold outcome.events
  outcome.result.output.forM fun text => IO.println text
  outcome.result.errorOutput.forM fun text => IO.eprintln text
  return outcome.result.exitCode.toUInt32

end Program

end QueryPayload

open QueryPayload in
/-- The program. -/
def main (arguments : List String) : IO UInt32 := do
  match Invocation.ofArguments arguments with
  | .error refusal =>
    if refusal.exitCode = 0 then IO.println (Program.complaint refusal)
    else IO.eprintln (Program.complaint refusal)
    return refusal.exitCode.toUInt32
  | .ok invocation =>
    let (threshold, events) := Log.opening invocation.verbose (← IO.getEnv "LOG_LEVEL")
    Program.log threshold events
    match invocation.command with
    | none =>
      IO.println Program.help
      return 0
    | some (command, files) => Program.run threshold command files
