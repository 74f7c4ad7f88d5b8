import TokenTheme.Build.Within
import TokenTheme.Command.Arguments
import TokenTheme.Rules.File

/-!
# The command

* `Surroundings` — the working directory and the environment of a run;
* `CommandEnding`, `CommandReport` — how a run ends, what it prints and what it reports;
* `findRules` — the rules of a run, as the libraries read them;
* `runBuild`, `runValidate` — the two commands, each on a stack;
* `runCommand` — the command for a list of arguments;
* `CommandName.stack` — the stacks of the commands.
-/

namespace TokenTheme

/-- The working directory, and the value of the variable that names a rules file. -/
structure Surroundings where
  cwd : Path
  rulesVariable : Option String := none
deriving DecidableEq, Repr

/-- How a run ends. -/
inductive CommandEnding where
  | exit (status : Nat)
  | interrupted (cause : Interruption)
deriving DecidableEq, Repr

/-- A run: how it ends, the lines that it prints and the records that it reports. -/
structure CommandReport where
  ending : CommandEnding
  lines : List String := []
  records : List LogRecord := []
deriving DecidableEq, Repr

namespace CommandReport

/-- A run that ends without an error. -/
def success (lines : List String) (records : List LogRecord) : CommandReport :=
  { ending := .exit 0, lines, records }

/-- A run that ends with an error, after other records. -/
def failure (message : String) (records : List LogRecord) : CommandReport :=
  { ending := .exit 1, records := records ++ [⟨.error, .command, message⟩] }

/-- A run that is interrupted after some records. -/
def interruption (cause : Interruption) (records : List LogRecord) : CommandReport :=
  { ending := .interrupted cause, records }

/-- A run for which the rules file states no rules.  A file that the system does not read is an
interruption, unless it is missing, and so is an error of a library that is not about the file. -/
def ofRulesError : RulesError → CommandReport
  | .unreadable (.missing path) => failure (FileError.missing path).message []
  | .unreadable e => if e.isSystem then interruption (.file e) [] else failure e.message []
  | .yaml (.other kind text) | .invalid (.other kind text) => interruption (.library kind text) []
  | e => failure e.message []

/-- A run that ends with a build issue, after other records. -/
def ofIssue (issue : BuildIssue) (records : List LogRecord) : CommandReport :=
  failure ("[" ++ issue.code ++ "] " ++ issue.message) records

/-- A run whose arguments make no request. -/
def ofArgumentError : ArgumentError → CommandReport
  | .help => { ending := .exit 0 }
  | .usage => { ending := .exit 2 }
  | .namelessRules => interruption .namelessRules []

end CommandReport

variable {m : Type → Type} [Monad m] {Other : Type}

/-! ### Rules -/

/-- The rules of a run and the path of their file. -/
def findRules (libraries : RuleLibraries Other) (files : FileAccess m)
    (surroundings : Surroundings) (asked : Option String) :
    m (Except RulesError (Path × Rules)) := do
  match ← Rules.locate files surroundings.cwd surroundings.rulesVariable asked with
  | .error e => return .error (.unreadable e)
  | .ok path => return (← Rules.load libraries files path).map (path, ·)

/-- The plan of rules whose file is at a path. -/
def Rules.plan (rules : Rules) (path : Path) : BuildPlan where
  source := path.relativeTo rules.source.tokensPath
  directory := path.relativeTo rules.output.directory
  themeModule := rules.output.themeModule
  themeJson := rules.output.themeJson
  stylesheet := rules.output.stylesheet
  radius := some rules.style.radius
  font := some rules.style.font

/-! ### Building -/

/-- The lines about what a build has made. -/
def Built.lines (built : Built) (project : String) : List String :=
  ("Built " ++ built.tokenCount.repr ++ " tokens for " ++ project ++ ".") ::
    built.written.map fun path => " - " ++ path.toString

/-- A build as a run of the command. -/
def BuildReport.toCommandReport (report : BuildReport) (project : String) : CommandReport :=
  match report.outcome with
  | .built result => .success (result.lines project) report.records
  | .failed issue => .ofIssue issue report.records
  | .interrupted cause => .interruption cause report.records

/-- Build what the rules state. -/
def runBuild (libraries : RuleLibraries Other) (stack : Stack) (files : FileAccess m)
    (surroundings : Surroundings) (asked : Option String) : m CommandReport := do
  match ← findRules libraries files surroundings asked with
  | .error e => return .ofRulesError e
  | .ok (path, rules) =>
    let report ← buildWithin stack files (rules.plan path)
    return report.toCommandReport rules.project

/-! ### Validating -/

/-- The line about a validated export. -/
def Validated.line (found : Validated) : String :=
  found.tokens.length.repr ++ " valid tokens (" ++ found.format.name ++ " format)."

/-- Validate a decoded export. -/
def validateData (stack : Stack) (data : Json) : CommandReport :=
  match Validated.within stack data with
  | .ok found => .success [found.line] (found.warnings.map Warning.record)
  | .error (.refused e) => .ofIssue (.exportRefused e) []
  | .error (.exhausted e) => .interruption (.exhausted e) []

/-- Validate the export at a path. -/
def validateFile (stack : Stack) (files : FileAccess m) (path : Path) : m CommandReport := do
  match ← files.holds path with
  | .error e => return .interruption (.file e) []
  | .ok false => return .failure (BuildIssue.sourceMissing path).message []
  | .ok true =>
    match ← (files.readJsonWithin stack path).run with
    | .ok (.ok data) => return validateData stack data
    | .ok (.error e) => return .failure (BuildIssue.sourceInvalid e).message []
    | .error cause => return .interruption cause []

/-- Validate an export that is named, or the one that the rules state. -/
def runValidate (libraries : RuleLibraries Other) (stack : Stack) (files : FileAccess m)
    (surroundings : Surroundings) (asked source : Option String) : m CommandReport := do
  match source with
  | some name => validateFile stack files (Path.ofString name)
  | none =>
    match ← findRules libraries files surroundings asked with
    | .error e => return .ofRulesError e
    | .ok (path, rules) => validateFile stack files (path.relativeTo rules.source.tokensPath)

/-! ### Requests -/

/-- Do what the command is asked to do.  Each command leaves its own room on the stack. -/
def runRequest (libraries : RuleLibraries Other) (stackOf : CommandName → Stack)
    (files : FileAccess m) (surroundings : Surroundings) : Request → m CommandReport
  | .build rules => runBuild libraries (stackOf .build) files surroundings rules
  | .validate rules source =>
    runValidate libraries (stackOf .validate) files surroundings rules source

/-- Run the command with a list of arguments. -/
def runCommand (libraries : RuleLibraries Other) (stackOf : CommandName → Stack)
    (files : FileAccess m) (surroundings : Surroundings) (arguments : List String) :
    m CommandReport :=
  match Request.ofArguments arguments with
  | .ok request => runRequest libraries stackOf files surroundings request
  | .error e => return .ofArgumentError e

/-- The stack of each command, of a thousand calls.  A build makes one call more than the other
command before it validates. -/
def CommandName.stack : CommandName → Stack
  | .validate => .ofLimit 1000 6
  | .build => .ofLimit 1000 7

end TokenTheme
