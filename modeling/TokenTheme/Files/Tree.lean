import TokenTheme.Files.Path
import TokenTheme.Text.Utf8

/-!
# File trees

A file system as a value: the directories and files at their locations.

* `Location`, `FileNode`, `FileTree` — a place as the names that lead to it, what stands at a
  place, and the places at which something stands;
* `FileError` — why an operation fails, with its wording;
* `nameLimit`, `pathLimit` — how long names and paths may be;
* `FileTree.locate` — the location of a path, which leads through directories only;
* `FileTree.holds`, `isDirectory`, `read`, `write`, `makeDirectory` — the operations, each for a
  working directory.
-/

namespace TokenTheme

/-! ### Errors -/

/-- Why an operation on a file fails, with the path of the operation. -/
inductive FileError where
  | missing (path : Path)
  | alreadyThere (path : Path)
  | notADirectory (path : Path)
  | isADirectory (path : Path)
  | nameTooLong (path : Path)
  /-- The path holds the character NUL, so that the system is not asked at all. -/
  | nulInPath
  /-- A failure of another nature, in its own words. -/
  | refused (message : String)
deriving DecidableEq, Repr

/-- A system error with its number, its text and a path. -/
def FileError.systemText (number : Nat) (text : String) (path : Path) : String :=
  "[Errno " ++ number.repr ++ "] " ++ text ++ ": " ++ Text.quoted path.toString

/-- The wording of a file error. -/
def FileError.message : FileError → String
  | .missing path => systemText 2 "No such file or directory" path
  | .alreadyThere path => systemText 17 "File exists" path
  | .notADirectory path => systemText 20 "Not a directory" path
  | .isADirectory path => systemText 21 "Is a directory" path
  | .nameTooLong path => systemText 36 "File name too long" path
  | .nulInPath => "embedded null byte"
  | .refused message => message

/-- Whether it is the system that refuses the operation. -/
def FileError.isSystem : FileError → Bool
  | .nulInPath => false
  | _ => true

/-! ### Trees -/

/-- The names that lead to a place from the root. -/
abbrev Location := List String

/-- What stands at a place. -/
inductive FileNode where
  | directory
  | file (content : List UInt8)
deriving DecidableEq, Repr

/-- The places below the root at which something stands. -/
structure FileTree where
  nodes : List (Location × FileNode)
deriving DecidableEq, Repr

/-- What keeps a path from having a location. -/
inductive PathFault where
  | missing
  | notADirectory
  | nameTooLong
  | nulInPath
deriving DecidableEq, Repr

/-- A fault of a path as an error. -/
def PathFault.toError (path : Path) : PathFault → FileError
  | .missing => .missing path
  | .notADirectory => .notADirectory path
  | .nameTooLong => .nameTooLong path
  | .nulInPath => .nulInPath

/-- The most octets of a name. -/
def nameLimit : Nat :=
  255

/-- The most octets of a path. -/
def pathLimit : Nat :=
  4095

namespace FileTree

/-- What stands at a place.  The root is a directory. -/
def node? (tree : FileTree) (here : Location) : Option FileNode :=
  if here = [] then some .directory
  else (tree.nodes.find? fun entry => entry.1 = here).map Prod.snd

/-- Put something at a place, in the stead of what stands there. -/
def put (tree : FileTree) (here : Location) (node : FileNode) : FileTree :=
  ⟨if tree.nodes.any fun entry => entry.1 = here then
      tree.nodes.map fun entry => if entry.1 = here then (here, node) else entry
    else tree.nodes ++ [(here, node)]⟩

/-- Follow parts from a place.  Every place that is left must be a directory; the last one need
not exist. -/
def walk (tree : FileTree) : Location → List String → Except PathFault Location
  | here, [] => .ok here
  | here, part :: rest =>
    match tree.node? here with
    | none => .error .missing
    | some (.file _) => .error .notADirectory
    | some .directory =>
      if nameLimit < part.utf8ByteSize then .error .nameTooLong
      else walk tree (if part = ".." then here.dropLast else here ++ [part]) rest

/-- The location of a path, read in the working directory `cwd`. -/
def locate (tree : FileTree) (cwd : Location) (path : Path) : Except PathFault Location :=
  if path.holdsNul then .error .nulInPath
  else if pathLimit < path.toString.utf8ByteSize then .error .nameTooLong
  else tree.walk (if path.isAbsolute then [] else cwd) path.parts

/-- What stands at a path; nothing, if the path leads nowhere. -/
def nodeAt? (tree : FileTree) (cwd : Location) (path : Path) :
    Except FileError (Option FileNode) :=
  match tree.locate cwd path with
  | .ok here => .ok (tree.node? here)
  | .error .nameTooLong => .error (.nameTooLong path)
  | .error _ => .ok none

/-- Whether something stands at a path. -/
def holds (tree : FileTree) (cwd : Location) (path : Path) : Except FileError Bool :=
  (tree.nodeAt? cwd path).map Option.isSome

/-- Whether a directory stands at a path. -/
def isDirectory (tree : FileTree) (cwd : Location) (path : Path) : Except FileError Bool :=
  (tree.nodeAt? cwd path).map (· == some .directory)

/-! ### Operations -/

/-- The content of a file. -/
def read (tree : FileTree) (cwd : Location) (path : Path) : Except FileError (List UInt8) :=
  match tree.locate cwd path with
  | .error fault => .error (fault.toError path)
  | .ok here =>
    match tree.node? here with
    | none => .error (.missing path)
    | some .directory => .error (.isADirectory path)
    | some (.file content) => .ok content

/-- Give a file its content.  The file is made if its directory exists. -/
def write (tree : FileTree) (cwd : Location) (path : Path) (content : List UInt8) :
    Except FileError FileTree :=
  match tree.locate cwd path with
  | .error fault => .error (fault.toError path)
  | .ok here =>
    match tree.node? here with
    | some .directory => .error (.isADirectory path)
    | _ => .ok (tree.put here (.file content))

/-- Make a directory in one that exists. -/
def makeDirectory (tree : FileTree) (cwd : Location) (path : Path) : Except FileError FileTree :=
  match tree.locate cwd path with
  | .error fault => .error (fault.toError path)
  | .ok here =>
    match tree.node? here with
    | some _ => .error (.alreadyThere path)
    | none => .ok (tree.put here .directory)

end FileTree

end TokenTheme
