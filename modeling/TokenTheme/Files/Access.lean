import TokenTheme.Files.Tree
import TokenTheme.Json.Reader

/-!
# Access to files

What a run may do with files, whatever holds them.

* `FileAccess` — the operations: look, read, make a directory, write;
* `FileAccess.ensureDirectory` — make a directory and every directory on the way to it;
* `TextError`, `DataError` — why a file is no text, and why it is no JSON document, each with its
  wording;
* `FileAccess.readText`, `FileAccess.readJson` — files as texts and as JSON documents;
* `FileTree.access` — the operations on a file tree.
-/

namespace TokenTheme

/-- What a run may do with files. -/
structure FileAccess (m : Type → Type) where
  /-- Whether something stands at a path. -/
  holds : Path → m (Except FileError Bool)
  /-- Whether a directory stands at a path. -/
  isDirectory : Path → m (Except FileError Bool)
  /-- The octets of a file. -/
  read : Path → m (Except FileError (List UInt8))
  /-- Make a directory in one that exists. -/
  makeDirectory : Path → m (Except FileError Unit)
  /-- Give a file its octets. -/
  write : Path → List UInt8 → m (Except FileError Unit)

/-! ### Contents -/

/-- Why a file is no text. -/
inductive TextError where
  | file (e : FileError)
  | encoding (fault : Utf8.Fault)
deriving DecidableEq, Repr

/-- The wording of a text error. -/
def TextError.message : TextError → String
  | .file e => e.message
  | .encoding fault => fault.message

/-- Why a file is no JSON document. -/
inductive DataError where
  | text (e : TextError)
  | json (e : Json.ReadError)
deriving DecidableEq, Repr

/-- The wording of a data error. -/
def DataError.message : DataError → String
  | .text e => e.message
  | .json e => e.message

/-- The text that octets encode, with one kind of line break. -/
def TextError.decode (octets : List UInt8) : Except TextError String :=
  match Utf8.decode octets with
  | .ok s => .ok (String.ofList (Text.joinLines s.toList))
  | .error fault => .error (.encoding fault)

namespace FileAccess

variable {m : Type → Type} [Monad m]

/-- The text of a file, with one kind of line break. -/
def readText (files : FileAccess m) (path : Path) : m (Except TextError String) := do
  match ← files.read path with
  | .ok octets => return TextError.decode octets
  | .error e => return .error (.file e)

/-- The JSON document of a file. -/
def readJson (files : FileAccess m) (path : Path) : m (Except DataError Json) := do
  match ← files.readText path with
  | .ok s => return (Json.read s).mapError .json
  | .error e => return .error (.text e)

/-! ### Directories -/

/-- Make a directory, unless it exists. -/
def allowDirectory (files : FileAccess m) (path : Path) : m (Except FileError Unit) := do
  match ← files.makeDirectory path with
  | .ok () => return .ok ()
  | .error (.missing path) => return .error (.missing path)
  | .error e =>
    match ← files.isDirectory path with
    | .ok true => return .ok ()
    | .ok false => return .error e
    | .error e' => return .error e'

/-- Make a directory and every directory on the way to it that is missing, the parts of the path
being given from the last to the first.  What was made before a failure stays. -/
def ensureParts (files : FileAccess m) (root : PathRoot) :
    List String → m (Except FileError Unit)
  | [] => files.allowDirectory ⟨root, []⟩
  | part :: above => do
    let path : Path := ⟨root, (part :: above).reverse⟩
    match ← files.allowDirectory path with
    | .error (.missing _) =>
      match ← files.ensureParts root above with
      | .ok () => files.allowDirectory path
      | .error e => return .error e
    | result => return result

/-- Make a directory and every directory on the way to it that is missing. -/
def ensureDirectory (files : FileAccess m) (path : Path) : m (Except FileError Unit) :=
  files.ensureParts path.root path.parts.reverse

end FileAccess

/-! ### File trees -/

/-- Replace a tree by the result of an operation on it, if it has one. -/
def FileTree.commit (operation : FileTree → Except FileError FileTree) :
    StateM FileTree (Except FileError Unit) :=
  modifyGet fun tree =>
    match operation tree with
    | .ok tree' => (.ok (), tree')
    | .error e => (.error e, tree)

/-- The operations on a file tree in a working directory. -/
def FileTree.access (cwd : Location) : FileAccess (StateM FileTree) where
  holds path := return (← get).holds cwd path
  isDirectory path := return (← get).isDirectory cwd path
  read path := return (← get).read cwd path
  makeDirectory path := FileTree.commit fun tree => tree.makeDirectory cwd path
  write path content := FileTree.commit fun tree => tree.write cwd path content

end TokenTheme
