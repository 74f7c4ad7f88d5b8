import TokenTheme.Warning

/-!
# Log records

* `LogLevel` — how grave a record is;
* `LogSource` — the part of a run that reports, with the name under which it does;
* `LogRecord` — a record and its line;
* `Warning.record` — a warning as a record.
-/

namespace TokenTheme

/-- How grave a record is. -/
inductive LogLevel where
  | info
  | warning
  | error
deriving DecidableEq, Repr

/-- The word for a level. -/
def LogLevel.name : LogLevel → String
  | .info => "INFO"
  | .warning => "WARNING"
  | .error => "ERROR"

/-- The parts of a run that report. -/
inductive LogSource where
  | command
  | build
  | validation
  | references
deriving DecidableEq, Repr

/-- The name under which a part of a run reports. -/
def LogSource.name : LogSource → String
  | .command => "cli"
  | .build => "tokensync.components.design_tokens.component"
  | .validation => "tokensync.components.design_tokens.validators"
  | .references => "tokensync.components.design_tokens.references"

/-- A record of a run. -/
structure LogRecord where
  level : LogLevel
  source : LogSource
  message : String
deriving DecidableEq, Repr

/-- The line of a record. -/
def LogRecord.line (record : LogRecord) : String :=
  record.level.name ++ ":" ++ record.source.name ++ ":" ++ record.message

/-- The part of a run that gives a warning. -/
def Warning.source : Warning → LogSource
  | .repeatedNames _ => .validation
  | .circular _ | .unresolved _ => .references

/-- A warning as a record. -/
def Warning.record (warning : Warning) : LogRecord :=
  ⟨.warning, warning.source, warning.message⟩

end TokenTheme
