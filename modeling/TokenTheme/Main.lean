import TokenTheme.Command.Basic
import TokenTheme.Rules.Library

/-!
# The program

The command on the files of the system, with a reader of YAML for its rules: it prints its lines,
reports its records on the error stream and ends with a status.
-/

namespace TokenTheme.Main

/-! ### Files of the system -/

/-- The number and the text of a system error. -/
def systemError : IO.Error → UInt32 × String
  | .noFileOrDirectory _ number text | .alreadyExists _ number text
  | .inappropriateType _ number text | .permissionDenied _ number text
  | .invalidArgument _ number text | .resourceExhausted _ number text
  | .noSuchThing _ number text | .interrupted _ number text
  | .otherError number text | .resourceBusy number text | .resourceVanished number text
  | .unsupportedOperation number text | .hardwareFault number text
  | .unsatisfiedConstraints number text | .illegalOperation number text
  | .protocolError number text | .timeExpired number text => (number, text)
  | .unexpectedEof => (0, "end of file")
  | .userError text => (0, text)

/-- A system error at a path as a file error. -/
def fileError (path : Path) (e : IO.Error) : FileError :=
  let (number, text) := systemError e
  match number.toNat with
  | 2 => .missing path
  | 17 => .alreadyThere path
  | 20 => .notADirectory path
  | 21 => .isADirectory path
  | 36 => .nameTooLong path
  | n => .refused (FileError.systemText n text path)

/-- The result of an operation at a path. -/
def attempt {α : Type} (path : Path) (operation : IO α) : IO (Except FileError α) := do
  if path.holdsNul then return .error .nulInPath
  try
    return .ok (← operation)
  catch e => return .error (fileError path e)

/-- The answer to a question about a path; no if the path leads nowhere. -/
def ask (path : Path) (question : IO Bool) : IO (Except FileError Bool) := do
  match ← attempt path question with
  | .error (.missing _) | .error (.notADirectory _) | .error .nulInPath => return .ok false
  | answer => return answer

/-- The operations on the files of the system. -/
def systemFiles : FileAccess IO where
  holds path := ask path do (← IO.FS.realPath path.toString).pathExists
  isDirectory path := ask path do (← IO.FS.realPath path.toString).isDir
  read path := attempt path do return (← IO.FS.readBinFile path.toString).toList
  makeDirectory path := attempt path (IO.FS.createDir path.toString)
  write path content := attempt path (IO.FS.writeBinFile path.toString ⟨content.toArray⟩)

/-! ### Runs -/

/-- The surroundings of the program. -/
def currentSurroundings : IO Surroundings := do
  let cwd ← IO.currentDir
  return { cwd := Path.ofString cwd.toString, rulesVariable := ← IO.getEnv Rules.variableName }

/-- Show what a run prints and reports. -/
def showReport (report : CommandReport) : IO UInt32 := do
  for record in report.records do IO.eprintln record.line
  for line in report.lines do IO.println line
  match report.ending with
  | .exit status => return status.toUInt32
  | .interrupted cause =>
    IO.eprintln cause.message
    return 1

end TokenTheme.Main

/-- Run the command with the arguments of the program. -/
def main (arguments : List String) : IO UInt32 := do
  let surroundings ← TokenTheme.Main.currentSurroundings
  let report ← TokenTheme.runCommand TokenTheme.RuleLibraries.yaml TokenTheme.CommandName.stack
    TokenTheme.Main.systemFiles surroundings arguments
  TokenTheme.Main.showReport report
