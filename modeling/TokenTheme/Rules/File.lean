import TokenTheme.Files.Access
import TokenTheme.Rules.Basic

/-!
# Rules files

* `RulesError` — why a rules file states no rules, with its wording;
* `Rules.ofText` — the rules that a text states, as the libraries read it;
* `Rules.load` — the rules that a file states;
* `Rules.locate` — the path of the rules file: the one asked for, else the one that the
  environment names, else the file of the usual name in the directory of the project.
-/

namespace TokenTheme

/-- Why a rules file states no rules. -/
inductive RulesError where
  /-- Nothing stands at the path. -/
  | missing (path : Path)
  /-- The file is not read. -/
  | unreadable (e : FileError)
  | encoding (fault : Utf8.Fault)
  /-- The text is not decoded. -/
  | yaml (e : LibraryError)
  /-- The decoded value is no rules. -/
  | invalid (e : LibraryError)
deriving DecidableEq, Repr

/-- The wording of a library error.  An introduction stands in front of what a library refuses in
its own words. -/
def LibraryError.message (introduction : String) : LibraryError → String
  | .refused text => introduction ++ text
  | .value text | .other _ text => text

/-- The wording of a rules error. -/
def RulesError.message : RulesError → String
  | .missing path => "Rules file not found at: " ++ path.toString
  | .unreadable e => e.message
  | .encoding fault => fault.message
  | .yaml e => e.message "Invalid YAML syntax in rules file: "
  | .invalid e => e.message "Rules validation failed:\n"

namespace Rules

/-- The rules that a decoded value states. -/
def ofValue {Other : Type} (libraries : RuleLibraries Other) (value : RuleValue Other) :
    Except LibraryError Rules :=
  libraries.check schema value

/-- The rules that a text states. -/
def ofText {Other : Type} (libraries : RuleLibraries Other) (text : String) :
    Except RulesError Rules :=
  match libraries.decode text with
  | .ok value => (ofValue libraries value).mapError .invalid
  | .error e => .error (.yaml e)

variable {m : Type → Type} [Monad m]

/-- The rules that a file states. -/
def load {Other : Type} (libraries : RuleLibraries Other) (files : FileAccess m) (path : Path) :
    m (Except RulesError Rules) := do
  match ← files.holds path with
  | .error e => return .error (.unreadable e)
  | .ok false => return .error (.missing path)
  | .ok true =>
    match ← files.readText path with
    | .ok text => return ofText libraries text
    | .error (.file e) => return .error (.unreadable e)
    | .error (.encoding fault) => return .error (.encoding fault)

/-! ### The path of the rules file -/

/-- The usual name of a rules file. -/
def usualName : String :=
  "tokensync.yaml"

/-- The variable of the environment that names a rules file. -/
def variableName : String :=
  "TOKENSYNC_RULES"

/-- The names of which one stands in the directory of a project. -/
def projectMarks : List String :=
  ["pyproject.toml", ".git"]

/-- Whether one of some names stands in a directory. -/
def holdsAny (files : FileAccess m) (directory : Path) : List String → m (Except FileError Bool)
  | [] => return .ok false
  | name :: rest => do
    match ← files.holds (directory ++ Path.ofString name) with
    | .ok false => holdsAny files directory rest
    | found => return found

/-- The first of some directories that is the directory of a project. -/
def findProject (files : FileAccess m) : List Path → m (Except FileError (Option Path))
  | [] => return .ok none
  | directory :: rest => do
    match ← holdsAny files directory projectMarks with
    | .error e => return .error e
    | .ok true => return .ok (some directory)
    | .ok false => findProject files rest

/-- The path of the rules file, for a working directory. -/
def locate (files : FileAccess m) (cwd : Path) (variableValue asked : Option String) :
    m (Except FileError Path) := do
  match asked with
  | some path => return .ok (Path.ofString path)
  | none =>
    match variableValue.filter fun s => !s.isEmpty with
    | some path => return .ok (Path.ofString path)
    | none =>
      let project ← findProject files cwd.ancestors
      return project.map fun directory => directory.getD cwd ++ Path.ofString usualName

end Rules

end TokenTheme
