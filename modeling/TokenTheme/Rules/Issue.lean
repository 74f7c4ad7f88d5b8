import TokenTheme.Number.Basic

/-!
# Issues of a rules file

What a check of a decoded value reports.

* `IssueKind` — what is wrong with a value, with its code and its wording;
* `KeyLabel`, `Issue` — an issue with the keys that lead to the value at fault, and its lines in a
  report;
* `Checked` — a checked value, or all the issues that were found on the way to it.
-/

namespace TokenTheme

/-! ### Issues -/

/-- What is wrong with a value of a rules file. -/
inductive IssueKind where
  | missing
  | notAString
  /-- The string has less than so many characters. -/
  | tooShort (least : Nat)
  /-- The value is no mapping, where the record of that name stands. -/
  | notAMapping (name : String)
  | notAnInteger
  | notFinite
  | hasFraction
  | noIntegerText
  | tooLong
  /-- The value is at fault, in the words of its schema. -/
  | fault (text : String)
  | unknownKey
  | keyNotAString
deriving DecidableEq, Repr

namespace IssueKind

/-- The code of an issue in a report. -/
def code : IssueKind → String
  | .missing => "missing"
  | .notAString => "string_type"
  | .tooShort _ => "string_too_short"
  | .notAMapping _ => "model_type"
  | .notAnInteger => "int_type"
  | .notFinite => "finite_number"
  | .hasFraction => "int_from_float"
  | .noIntegerText => "int_parsing"
  | .tooLong => "int_parsing_size"
  | .fault _ => "value_error"
  | .unknownKey => "extra_forbidden"
  | .keyNotAString => "invalid_key"

/-- The wording of an issue. -/
def message : IssueKind → String
  | .missing => "Field required"
  | .notAString => "Input should be a valid string"
  | .tooShort least =>
    "String should have at least " ++ least.repr ++ " character" ++ if least = 1 then "" else "s"
  | .notAMapping name => "Input should be a valid dictionary or instance of " ++ name
  | .notAnInteger => "Input should be a valid integer"
  | .notFinite => "Input should be a finite number"
  | .hasFraction => "Input should be a valid integer, got a number with a fractional part"
  | .noIntegerText => "Input should be a valid integer, unable to parse string as an integer"
  | .tooLong => "Unable to parse input string as an integer, exceeded maximum size"
  | .fault text => "Value error, " ++ text
  | .unknownKey => "Extra inputs are not permitted"
  | .keyNotAString => "Keys should be strings"

end IssueKind

/-- A key on the way to a value. -/
inductive KeyLabel where
  | name (s : String)
  | index (n : Int)
deriving DecidableEq, Repr

/-- The text of a key. -/
def KeyLabel.text : KeyLabel → String
  | .name s => s
  | .index n => String.ofList (integerText n)

/-- An issue with the keys that lead to the value at fault. -/
structure Issue where
  keys : List KeyLabel
  kind : IssueKind
deriving DecidableEq, Repr

/-- The lines of an issue in a report. -/
def Issue.lines (issue : Issue) : List String :=
  [Text.join "." (issue.keys.map KeyLabel.text),
    "  " ++ issue.kind.message ++ " [type=" ++ issue.kind.code ++ "]"]

/-- A report on a value that must be the record of a name. -/
def Issue.report (name : String) (issues : List Issue) : String :=
  let count := issues.length.repr ++ " validation error" ++ if issues.length = 1 then "" else "s"
  Text.join "\n" ((count ++ " for " ++ name) :: issues.flatMap lines)

/-! ### Checked values -/

/-- A checked value, or all the issues that were found on the way to it. -/
abbrev Checked (α : Type) := Except (List Issue) α

namespace Checked

variable {α β : Type}

/-- A single issue. -/
def fail (kind : IssueKind) : Checked α :=
  .error [⟨[], kind⟩]

/-- Both values, or the issues of both in order. -/
def both : Checked α → Checked β → Checked (α × β)
  | .ok a, .ok b => .ok (a, b)
  | .ok _, .error issues => .error issues
  | .error issues, .ok _ => .error issues
  | .error issues, .error more => .error (issues ++ more)

/-- A value below a key. -/
def under (key : String) : Checked α → Checked α
  | .ok a => .ok a
  | .error issues => .error (issues.map fun issue => { issue with keys := .name key :: issue.keys })

/-- Two values are both there exactly when each of them is. -/
theorem both_eq_ok_iff {x : Checked α} {y : Checked β} {a : α} {b : β} :
    both x y = .ok (a, b) ↔ x = .ok a ∧ y = .ok b := by
  cases x <;> cases y <;> simp [both]

/-- A value is there below a key exactly when it is there. -/
theorem under_eq_ok_iff {key : String} {x : Checked α} {a : α} :
    under key x = .ok a ↔ x = .ok a := by
  cases x <;> simp [under]

end Checked

end TokenTheme
