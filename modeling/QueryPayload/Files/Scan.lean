import QueryPayload.Files.Walk
import QueryPayload.Log.Event

/-!
# Scans for payload files

## Main definitions

* `FileView` — what a scan asks about paths; `FileTree.view` answers for a tree.
* `Finding` — what a scan makes of each thing it meets.
* `Scan` — the files to load, the errors, and the number of files left out.
* `FileView.scan`, `FileTree.scan` — a scan of the paths given as arguments.

## Design

A file is loaded if its extension is one of those asked for.  If nothing is found, and there is a
single argument, which is a file, then the person asking means that file whatever its extension.

A scan does not look at the tree itself.  It asks three questions about a path, and the answers need
not fit together: what a walk has met as a file may still have no path from the root.
-/

set_option relaxedAutoImplicit false
set_option autoImplicit false

namespace QueryPayload

/-! ## Extensions -/

/-- The last name in a path. -/
def fileName (path : String) : String := (Text.split '/' path).getLast?.getD ""

/-- The extension of a file: what follows the last point of its name.  A point that leads the name
does not start an extension. -/
def extension? (path : String) : Option String :=
  match (Text.split '.' (fileName path)).reverse with
  | [] => none
  | [_] => none
  | [_, ""] => none
  | ext :: _ => some ext

/-- An extension as it is compared, without points in front. -/
def bareExtension (ext : String) : String := String.ofList (ext.toList.dropWhile (· = '.'))

/-- Whether a file has one of the extensions. -/
def hasExtension (extensions : List String) (path : String) : Bool :=
  match extension? path with
  | some ext => (extensions.map bareExtension).contains ext
  | none => false

/-! ## Views -/

/-- What a scan asks about paths. -/
structure FileView where
  /-- What a walk meets at and below a path. -/
  walk : String → List (Except WalkError Visit)
  /-- Whether a path means a file. -/
  isFile : String → Bool
  /-- The path from the root to what a path means. -/
  resolve : String → Except FileError String

/-- The view of a file tree. -/
def FileTree.view (t : FileTree) : FileView where
  walk := t.walk
  isFile := t.isFile
  resolve path := (t.resolve path).map fun s => absolutePath s.location

/-! ## Findings -/

/-- What a scan makes of something it meets. -/
inductive Finding where
  /-- It cannot be visited. -/
  | unvisited (argument : String) (error : WalkError)
  /-- It is no file. -/
  | nonFile (path : String)
  /-- It is a file with another extension. -/
  | otherFile (path : String)
  /-- It is a file to load, at the given path from the root. -/
  | found (path absolute : String)
  /-- It is a file to load, but its path cannot be resolved. -/
  | unresolved (path : String) (error : FileError)
  deriving DecidableEq, Repr

namespace Finding

/-- What to make of something met under an argument. -/
def of (v : FileView) (extensions : List String) (argument : String) :
    Except WalkError Visit → Finding
  | .error e => .unvisited argument e
  | .ok visit =>
    if !visit.isFile then .nonFile visit.path
    else if !hasExtension extensions visit.path then .otherFile visit.path
    else
      match v.resolve visit.path with
      | .ok absolute => .found visit.path absolute
      | .error e => .unresolved visit.path e

/-- The event that goes with a finding. -/
def event : Finding → Log.Event
  | .unvisited argument _ => .visitFailed argument
  | .nonFile path => .nonFileSkipped path
  | .otherFile path => .extensionSkipped path
  | .found path _ => .fileFound path
  | .unresolved path _ => .fileFound path

/-- The file to load, if there is one. -/
def file? : Finding → Option String
  | .found _ absolute => some absolute
  | _ => none

/-- The error to report, if there is one. -/
def error? : Finding → Option ErrorChain
  | .unvisited _ e => some e.chain
  | .unresolved path e => some ((ErrorChain.of e.message).within ("Failed to resolve " ++ path))
  | _ => none

/-- Whether a file is left out. -/
def isSkipped : Finding → Bool
  | .otherFile _ => true
  | _ => false

end Finding

/-! ## Scans -/

/-- What a scan has found, and the events that go with it. -/
structure Scan where
  files : List String
  errors : List ErrorChain
  skipped : Nat
  events : List Log.Event
  deriving Repr

namespace FileView

/-- What a scan of some arguments meets. -/
def findings (v : FileView) (extensions arguments : List String) : List Finding :=
  arguments.flatMap fun argument =>
    (v.walk argument).map (Finding.of v extensions argument)

/-- The file that is meant if nothing is found: the only argument. -/
def onlyFile? (v : FileView) : List String → Option String
  | [argument] => if v.isFile argument then (v.resolve argument).toOption else none
  | _ => none

/-- Scans the paths given as arguments for files with one of the extensions. -/
def scan (v : FileView) (extensions arguments : List String) : Scan :=
  let findings := v.findings extensions arguments
  let files := findings.filterMap Finding.file?
  let errors := findings.filterMap Finding.error?
  let skipped := findings.countP Finding.isSkipped
  let events := .scanStarted arguments.length :: findings.map Finding.event
  match files, v.onlyFile? arguments with
  | [], some file =>
    ⟨[file], errors, skipped - 1, events ++ [.extensionIgnored file extensions, .scanEnded 1]⟩
  | files, _ => ⟨files, errors, skipped, events ++ [.scanEnded files.length]⟩

end FileView

/-- Scans the paths given as arguments for files of a tree with one of the extensions. -/
def FileTree.scan (t : FileTree) (extensions arguments : List String) : Scan :=
  t.view.scan extensions arguments

end QueryPayload
