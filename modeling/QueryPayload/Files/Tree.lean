import QueryPayload.Text.Split

/-!
# File trees

What a command sees of the file system: files, directories and symbolic links below one root, and
the directory that relative paths start from.  The contents of files are kept elsewhere.

## Main definitions

* `FileNode`, `FileTree` — the tree; `FileTree.put` places a node in it.
* `FileError` — why a path leads nowhere.
* `Spot` — a node together with the names that lead to it from the root.
* `FileTree.resolve` — the spot that a path means.

## Design

A path is followed name by name.  A link replaces itself by the names of its target, which start
from the directory the link is in, or from the root.  `Spot.advance` does everything except that,
and is given what to do at a link; `FileTree.follow` counts the links.
-/

set_option relaxedAutoImplicit false
set_option autoImplicit false

namespace QueryPayload

/-- A node of a file tree. -/
inductive FileNode where
  | file
  | directory (entries : List (String × FileNode))
  | link (target : String)
  /-- Something that is neither, such as a pipe. -/
  | device
  deriving Repr

/-- Why a path leads nowhere. -/
inductive FileError where
  | notFound
  | notDirectory
  | tooManyLinks
  deriving DecidableEq, Repr

/-- The wording of an error. -/
def FileError.message : FileError → String
  | .notFound => "No such file or directory (os error 2)"
  | .notDirectory => "Not a directory (os error 20)"
  | .tooManyLinks => "Too many levels of symbolic links (os error 40)"

namespace FileNode

/-- Whether a node is a file. -/
def isFile : FileNode → Bool
  | .file => true
  | _ => false

mutual

/-- The number of directories in a tree. -/
def countDirectories : FileNode → Nat
  | .file => 0
  | .link _ => 0
  | .device => 0
  | .directory entries => 1 + countDirectoriesIn entries

/-- The number of directories in some trees. -/
def countDirectoriesIn : List (String × FileNode) → Nat
  | [] => 0
  | (_, node) :: entries => node.countDirectories + countDirectoriesIn entries

end

/-- The entries with the node of one name replaced, or with one more at the end. -/
def putEntry (name : String) (place : Option FileNode → FileNode) :
    List (String × FileNode) → List (String × FileNode)
  | [] => [(name, place none)]
  | (key, node) :: entries =>
    if key = name then (key, place (some node)) :: entries
    else (key, node) :: putEntry name place entries

/-- Places a node where the names lead, making the directories on the way.  A directory that is
already there stays as it is. -/
def put (node : FileNode) : List String → Option FileNode → FileNode
  | [], some (.directory entries) =>
    match node with
    | .directory _ => .directory entries
    | _ => node
  | [], _ => node
  | name :: names, some (.directory entries) =>
    .directory (putEntry name (put node names) entries)
  | name :: names, _ => .directory [(name, put node names none)]

end FileNode

/-- A file tree, seen from one of its directories. -/
structure FileTree where
  root : FileNode
  workingDirectory : List String
  deriving Repr

/-- A node and the names that lead to it from the root, each with its node, the nearest first. -/
structure Spot where
  root : FileNode
  trail : List (String × FileNode)
  deriving Repr

namespace Spot

/-- The node at a spot. -/
def node (s : Spot) : FileNode :=
  match s.trail with
  | [] => s.root
  | (_, node) :: _ => node

/-- The names that lead from the root to a spot. -/
def location (s : Spot) : List String := (s.trail.map (·.1)).reverse

/-- One name further down. -/
def down (s : Spot) (name : String) (node : FileNode) : Spot := ⟨s.root, (name, node) :: s.trail⟩

/-- The directory around a spot; the root is its own. -/
def up (s : Spot) : Spot := ⟨s.root, s.trail.tail⟩

/-- Follows names from a spot.  At a link, `atLink` is told the directory, the target and the names
that are left. -/
def advance (atLink : Spot → String → List String → Except FileError Spot) :
    Spot → List String → Except FileError Spot
  | s, [] => .ok s
  | s, name :: names =>
    match s.node with
    | .directory entries =>
      if name = "." then advance atLink s names
      else if name = ".." then advance atLink s.up names
      else
        match entries.find? (·.1 == name) with
        | none => .error .notFound
        | some (_, .link target) => atLink s target names
        | some (_, node) => advance atLink (s.down name node) names
    | _ => .error .notDirectory

end Spot

namespace FileTree

/-- Whether a path starts from the root. -/
def isAbsolute (path : String) : Bool := path.toList.head? == some '/'

/-- The names in a path.  A separator at the end asks for a directory, as a point does. -/
def names (path : String) : List String :=
  (Text.split '/' path).filter (· ≠ "") ++
    if path.toList.getLast? = some '/' then ["."] else []

/-- A location as a path from the root. -/
def absolutePath (location : List String) : String := "/" ++ "/".intercalate location

/-- How many links one path may lead through. -/
def maxLinks : Nat := 40

/-- Follows names from a spot, through at most so many links. -/
def follow : Nat → Spot → List String → Except FileError Spot
  | 0 => Spot.advance fun _ _ _ => .error .tooManyLinks
  | links + 1 =>
    Spot.advance fun s target rest =>
      follow links (if isAbsolute target then ⟨s.root, []⟩ else s) (names target ++ rest)

/-- The spot that a path means. -/
def resolve (t : FileTree) (path : String) : Except FileError Spot :=
  if path = "" then .error .notFound
  else
    follow maxLinks ⟨t.root, []⟩
      ((if isAbsolute path then [] else t.workingDirectory) ++ names path)

/-- Whether a path means a file. -/
def isFile (t : FileTree) (path : String) : Bool :=
  match t.resolve path with
  | .ok s => s.node.isFile
  | .error _ => false

/-- The tree with nothing but a working directory. -/
def empty (workingDirectory : List String) : FileTree :=
  ⟨FileNode.put (.directory []) workingDirectory (some (.directory [])), workingDirectory⟩

/-- Places a node at a location, making the directories on the way. -/
def put (t : FileTree) (location : List String) (node : FileNode) : FileTree :=
  ⟨FileNode.put node location (some t.root), t.workingDirectory⟩

end FileTree

end QueryPayload
