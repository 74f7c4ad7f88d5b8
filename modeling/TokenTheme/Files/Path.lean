import TokenTheme.Text.Quoted
import TokenTheme.Text.Search

/-!
# Paths

* `PathRoot`, `Path` — a path by its root and its parts;
* `Path.ofString`, `Path.toString` — reading and writing: repeated slashes, parts `.` and a final
  slash make no difference, while parts `..` are kept;
* `Path.holdsNul` — paths that name no place;
* `Path.append` — a path in relation to another one;
* `Path.parent` — a path without its last part, and `Path.ancestors`, all that lie around it;
* `Path.relativeTo` — a path that a file states, in relation to the directory of that file.
-/

namespace TokenTheme

/-- Where a path begins.  Exactly two slashes in front are a root of their own. -/
inductive PathRoot where
  | relative
  | absolute
  | network
deriving DecidableEq, Repr

/-- How a root is written. -/
def PathRoot.text : PathRoot → String
  | .relative => ""
  | .absolute => "/"
  | .network => "//"

/-- A path: none of its parts is empty or `.`. -/
structure Path where
  root : PathRoot
  parts : List String
deriving DecidableEq, Repr

namespace Path

/-- The root that a text begins with. -/
def rootOf : List Char → PathRoot
  | '/' :: '/' :: '/' :: _ => .absolute
  | '/' :: '/' :: _ => .network
  | '/' :: _ => .absolute
  | _ => .relative

/-- Whether a piece between slashes is a part of a path. -/
def isPart (piece : List Char) : Bool :=
  !piece.isEmpty && piece != ['.']

/-- The path that a text writes. -/
def ofString (s : String) : Path where
  root := rootOf s.toList
  parts := ((Text.splitOn '/' s.toList).filter isPart).map String.ofList

/-- The text of a path; the relative path without parts is a point. -/
def toString (p : Path) : String :=
  if p.root = .relative ∧ p.parts = [] then "." else p.root.text ++ Text.join "/" p.parts

/-- Whether a part of a path holds the character NUL, which no name can hold. -/
def holdsNul (p : Path) : Bool :=
  p.parts.any fun part => part.toList.contains '\x00'

/-- Whether a path does not depend on a directory in which it is read. -/
def isAbsolute (p : Path) : Bool :=
  p.root != .relative

/-- The path `q` read in the directory `p`. -/
def append (p q : Path) : Path :=
  if q.isAbsolute then q else { p with parts := p.parts ++ q.parts }

instance : Append Path :=
  ⟨append⟩

/-- The path without its last part. -/
def parent (p : Path) : Path :=
  { p with parts := p.parts.dropLast }

/-- A path and the paths of the directories around it, from the inside out. -/
def ancestors (p : Path) : List Path :=
  (List.range (p.parts.length + 1)).map fun n =>
    { p with parts := p.parts.take (p.parts.length - n) }

/-- The path that the file `file` states as `target`: one that is not absolute starts from the
directory of the file. -/
def relativeTo (file : Path) (target : String) : Path :=
  file.parent ++ ofString target

/-- An absolute path does not depend on where it is stated. -/
theorem relativeTo_of_isAbsolute {file : Path} {target : String}
    (h : (ofString target).isAbsolute = true) : file.relativeTo target = ofString target := by
  show Path.append _ _ = _
  simp [append, h]

end Path

end TokenTheme
