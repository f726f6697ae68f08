import QueryPayload.Files.Tree
import QueryPayload.Report.ErrorList

/-!
# Walks through a file tree

## Main definitions

* `Visit` — something met on a walk; `WalkError` — something that could not be visited.
* `FileTree.walk` — everything at and below a path, in pre-order.

## Design

Links are followed.  A link to a directory that the walk is already inside is an error, and this is
what ends the walk: every directory entered through a link is a new one on the way from the root of
the walk, so there are at most as many such steps as there are directories.  `Visit.below` is a
recursion over the tree that leaves links to a function it is given, and `FileTree.enter` is a
recursion over the number of such steps.
-/

set_option relaxedAutoImplicit false
set_option autoImplicit false

namespace QueryPayload

/-- Something met on a walk. -/
structure Visit where
  path : String
  isFile : Bool
  deriving DecidableEq, Repr

/-- Something that could not be visited. -/
inductive WalkError where
  /-- A path leads nowhere. -/
  | unreachable (path : String) (error : FileError)
  /-- A link leads back to a directory around it. -/
  | loop (path ancestor : String)
  deriving DecidableEq, Repr

/-- The error as it is reported. -/
def WalkError.chain : WalkError → ErrorChain
  | .unreachable path error =>
    (ErrorChain.of error.message).within
      ("IO error for operation on " ++ path ++ ": " ++ error.message)
  | .loop path ancestor =>
    .of ("File system loop found: " ++ path ++ " points to an ancestor " ++ ancestor)

/-- A directory that a walk is inside: its location, and its path on the walk. -/
structure Ancestor where
  location : List String
  path : String
  deriving DecidableEq, Repr

/-- The path of an entry of a directory. -/
def joinPath (directory name : String) : String :=
  if directory.toList.getLast? = some '/' then directory ++ name else directory ++ "/" ++ name

namespace Visit

mutual

/-- Everything at and below a node, reached by `path` and located at `location`.  `atLink` says
what is met at a link. -/
def below (atLink : List Ancestor → String → List (Except WalkError Visit))
    (ancestors : List Ancestor) (location : List String) (path : String) :
    FileNode → List (Except WalkError Visit)
  | .file => [.ok ⟨path, true⟩]
  | .device => [.ok ⟨path, false⟩]
  | .link _ => atLink ancestors path
  | .directory entries =>
    .ok ⟨path, false⟩ ::
      belowAll atLink (⟨location, path⟩ :: ancestors) location path entries

/-- Everything at and below the entries of a directory. -/
def belowAll (atLink : List Ancestor → String → List (Except WalkError Visit))
    (ancestors : List Ancestor) (location : List String) (path : String) :
    List (String × FileNode) → List (Except WalkError Visit)
  | [] => []
  | (name, node) :: entries =>
    below atLink ancestors (location ++ [name]) (joinPath path name) node ++
      belowAll atLink ancestors location path entries

end

end Visit

namespace FileTree

/-- Everything at and below what a path means, from inside the given directories. -/
def enter (t : FileTree) : Nat → List Ancestor → String → List (Except WalkError Visit)
  | 0, _, path => [.error (.unreachable path .tooManyLinks)]
  | steps + 1, ancestors, path =>
    match t.resolve path with
    | .error e => [.error (.unreachable path e)]
    | .ok s =>
      match ancestors.find? (·.location == s.location) with
      | some ancestor => [.error (.loop path ancestor.path)]
      | none => Visit.below (t.enter steps) ancestors s.location path s.node

/-- Everything at and below a path. -/
def walk (t : FileTree) (path : String) : List (Except WalkError Visit) :=
  t.enter (t.root.countDirectories + 1) [] path

end FileTree

end QueryPayload
