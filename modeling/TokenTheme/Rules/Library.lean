import TokenTheme.Json.Display
import TokenTheme.Json.Reader
import TokenTheme.Rules.Integer
import TokenTheme.Rules.Schema
import TokenTheme.Yaml.Value

/-!
# Libraries for rules files

A reader of YAML, and a check of decoded values against a schema.

* `Yaml.Value.ruleValue` — a value of YAML as a decoded value;
* `keyIssue?`, `checkKeys` — keys beside the fields of a closed record;
* `Schema.check`, `Fields.check` — what a value gives, or everything that is wrong with it: the
  fields in their order first, then the other keys in the order of the mapping;
* `Yaml.Fault.message`, `Yaml.Fault.toLibraryError` — the wording of a fault of YAML;
* `RuleLibraries.yaml` — the two as libraries.
-/

namespace TokenTheme

/-! ### Decoded values -/

namespace Yaml

/-- A key of YAML as a key of a decoded mapping. -/
def ruleKey : Scalar → RuleKey Value
  | .string s => .name s
  | key => .other (.scalar key)

mutual

/-- A value of YAML as a decoded value. -/
def Value.ruleValue : Value → RuleValue Value
  | .scalar .null => .null
  | .scalar (.number (.int n)) => .integer n
  | .scalar (.string s) => .string s
  | .scalar s => .other (.scalar s)
  | .list items => .other (.list items)
  | .mapping entries => .mapping (ruleEntries entries)

/-- The entries of a mapping of YAML as those of a decoded mapping. -/
def ruleEntries : List (Scalar × Value) → RuleEntries Value
  | [] => []
  | (key, value) :: rest => (ruleKey key, value.ruleValue) :: ruleEntries rest

end

end Yaml

/-! ### Checking -/

/-- The integer that a decoded value is taken for. -/
def RuleValue.toInteger : RuleValue Yaml.Value → Except IssueKind Int
  | .integer n => .ok n
  | .string s => Integer.ofText s
  | .other (.scalar (.bool b)) => .ok (if b then 1 else 0)
  | .other (.scalar (.number (.float x))) => Integer.ofBinary64 x
  | _ => .error .notAnInteger

/-- The label of a key that is no string. -/
def labelOf : Yaml.Value → KeyLabel
  | .scalar (.bool b) => .index (if b then 1 else 0)
  | .scalar (.number (.int n)) =>
    if -(2 ^ (63 : Nat)) ≤ n ∧ n < 2 ^ (63 : Nat) then .index n
    else .name ((limitedText? n).getD "<unprintable int object>")
  | .scalar s => .name s.toJson.shown
  | _ => .name ""

/-- What is wrong with a key beside some known ones. -/
def keyIssue? (known : List String) : RuleKey Yaml.Value → Option Issue
  | .name key => if known.contains key then none else some ⟨[.name key], .unknownKey⟩
  | .other x => some ⟨[labelOf x], .keyNotAString⟩

/-- Whether all keys are known. -/
def checkKeys (known : List String) (entries : RuleEntries Yaml.Value) : Checked Unit :=
  let issues := entries.filterMap fun entry => keyIssue? known entry.1
  if issues.isEmpty then .ok () else .error issues

variable {α : Type}

/-- A string of at least so many characters. -/
def checkString (least : Nat) : RuleValue Yaml.Value → Checked String
  | .string s => if s.length < least then .fail (.tooShort least) else .ok s
  | _ => .fail .notAString

/-- Null, or a value that passes a check. -/
def checkNullable (check : RuleValue Yaml.Value → Checked α) :
    RuleValue Yaml.Value → Checked (Option α)
  | .null => .ok none
  | value => (check value).map some

/-- A mapping whose entries pass a check. -/
def checkMapping (name : String) (check : RuleEntries Yaml.Value → Checked α) :
    RuleValue Yaml.Value → Checked α
  | .mapping entries => check entries
  | _ => .fail (.notAMapping name)

/-- A checked value, if nothing is wrong with it. -/
def Checked.refine (fault : α → Option String) (x : Checked α) : Checked α := do
  let a ← x
  match fault a with
  | none => return a
  | some text => .fail (.fault text)

/-- The checked value of a key, or the usual one where the key is not there. -/
def Checked.orUsual (key : String) (usual : Option α) : Option (Checked α) → Checked α
  | some x => x.under key
  | none =>
    match usual with
    | some a => .ok a
    | none => (Checked.fail .missing).under key

mutual

/-- What a value gives, or everything that is wrong with it. -/
def Schema.check : {α : Type} → Schema α → RuleValue Yaml.Value → Checked α
  | _, .string least, value => checkString least value
  | _, .integer, value => value.toInteger.mapError fun kind => [⟨[], kind⟩]
  | _, .nullable schema, value => checkNullable (fun value => schema.check value) value
  | _, .refined schema fault, value => (schema.check value).refine fault
  | _, .record name closed fields make, value =>
    checkMapping name (fun entries =>
      (Checked.both (fields.check entries)
        (if closed then checkKeys fields.keys entries else .ok ())).map fun (a, ()) => make a) value

/-- What the entries of a mapping give for its fields. -/
def Fields.check : {α : Type} → Fields α → RuleEntries Yaml.Value → Checked α
  | _, .nil, _ => .ok ()
  | _, .field key schema usual rest, entries =>
    .both (.orUsual key usual ((entries.get? key).map fun value => schema.check value))
      (rest.check entries)

end

/-- The name of what a schema asks for. -/
def Schema.title {α : Type} : Schema α → String
  | .string _ => "str"
  | .integer => "int"
  | .nullable schema | .refined schema _ => schema.title
  | .record name _ _ _ => name

/-! ### Libraries -/

namespace Yaml

/-- The wording of a fault of YAML. -/
def Fault.message : Fault → String
  | .unprintable => "special characters are not allowed"
  | .strayCharacter => "found character that cannot start any token"
  | .unfinishedScalar => "found unexpected end of stream"
  | .badEscape => "found unknown escape character"
  | .misplaced => "mapping values are not allowed here"
  | .missingColon => "could not find expected ':'"
  | .badStructure => "did not find expected node content"
  | .severalDocuments => "expected a single document in the stream"
  | .badKey => "found unhashable key"
  | .unsupported => "found an anchor, a tag, a directive, a block scalar or a date, which are not read"
  | .longInteger digits => Json.ReadError.message (.longInteger digits)
  | .noDigits base => "invalid literal for int() with base " ++ base.repr ++ ": ''"

/-- A fault of YAML as an error of the library.  Numerals that cannot be converted have an error of
their own. -/
def Fault.toLibraryError (fault : Fault) : LibraryError :=
  match fault with
  | .longInteger _ | .noDigits _ => .value fault.message
  | _ => .refused fault.message

end Yaml

/-- The reader of YAML, and the check of what it reads. -/
def RuleLibraries.yaml : RuleLibraries Yaml.Value where
  decode text := ((Yaml.Value.read text).map Yaml.Value.ruleValue).mapError Yaml.Fault.toLibraryError
  check schema value :=
    (schema.check value).mapError fun issues => .refused (Issue.report schema.title issues)

end TokenTheme
