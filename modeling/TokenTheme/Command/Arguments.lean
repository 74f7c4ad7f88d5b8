import TokenTheme.Text.Digit
import TokenTheme.Text.Search

/-!
# Arguments of the command

The command is `build` or `validate`.  Both take `--rules`, and `validate` takes `--source`.  An
option may be cut short as long as it is the only one that begins so, and its value may follow a
sign of equality.  Help may be asked for in front of the command and behind it.

* `Request` — what the command is asked to do;
* `ArgumentError` — the arguments ask for help, or for nothing that can be done;
* `OptionReading` — how an argument is read where an option may stand;
* `Request.ofValues` — the request of a command and the values of its options;
* `Request.ofArguments` — the request of a list of arguments.
-/

namespace TokenTheme

/-- What the command is asked to do. -/
inductive Request where
  | build (rules : Option String)
  | validate (rules source : Option String)
deriving DecidableEq, Repr

/-- Why arguments make no request. -/
inductive ArgumentError where
  | help
  | usage
  /-- A rules file is asked for whose value names no file. -/
  | namelessRules
deriving DecidableEq, Repr

/-! ### Options -/

/-- The options of a command. -/
inductive CommandOption where
  | help
  | rules
  | source
deriving DecidableEq, Repr

/-- The two commands. -/
inductive CommandName where
  | build
  | validate
deriving DecidableEq, Repr

/-- The command of a name. -/
def CommandName.ofString? : String → Option CommandName
  | "build" => some .build
  | "validate" => some .validate
  | _ => none

/-- The spellings of the options that may stand in one place. -/
abbrev Spellings := List (String × CommandOption)

/-- The spellings that ask for help, in front of a command and behind it. -/
def helpSpellings : Spellings :=
  [("-h", .help), ("--help", .help)]

/-- The spellings of the options of a command. -/
def CommandName.spellings : CommandName → Spellings
  | .build => helpSpellings ++ [("--rules", .rules)]
  | .validate => helpSpellings ++ [("--rules", .rules), ("--source", .source)]

/-- How an argument is read where an option may stand. -/
inductive OptionReading where
  /-- An option, with the value that the argument holds. -/
  | option (found : CommandOption) (value : Option String)
  /-- The argument begins like an option and is none. -/
  | unknown
  /-- The argument is a value. -/
  | value
deriving DecidableEq, Repr

/-- An argument cut at its first sign of equality. -/
def splitValue (argument : String) : String × Option String :=
  let text := argument.toList
  match text.dropWhile (· != '=') with
  | _ :: rest => (String.ofList (text.takeWhile (· != '=')), some (String.ofList rest))
  | [] => (argument, none)

/-- The value of an option of one letter, where a text stands behind the letter.  The letter again,
once or more, asks for the same thing and is no value. -/
def letterValue (letter : Char) (text : String) : Option String :=
  if !text.isEmpty && text.toList.all (· == letter) then none else some text

/-- Whether a text is a negative number. -/
def isNegativeNumber (argument : String) : Bool :=
  match argument.toList with
  | '-' :: text =>
    let rest := text.dropWhile Text.isDecimal
    let digitFound := Text.isDecimal (text.headD ' ')
    (digitFound && Text.atEnd rest) ||
      match rest with
      | '.' :: fraction =>
        Text.isDecimal (fraction.headD ' ') && Text.atEnd (fraction.dropWhile Text.isDecimal)
      | _ => false
  | _ => false

/-- The options that an argument with two hyphens in front abbreviates. -/
def abbreviated (spellings : Spellings) (argument : String) :
    List (CommandOption × Option String) :=
  let (start, value) := splitValue argument
  spellings.filterMap fun (spelling, found) =>
    if start.toList.isPrefixOf spelling.toList then some (found, value) else none

/-- The options that an argument stands for, whole or in part. -/
def candidates (spellings : Spellings) (argument : String) : List (CommandOption × Option String) :=
  match argument.toList with
  | '-' :: '-' :: _ => abbreviated spellings argument
  | '-' :: 'h' :: text => [(.help, letterValue 'h' (String.ofList text))]
  | _ => []

/-- The option of an exact spelling. -/
def exactOption? (spellings : Spellings) (argument : String) :
    Option (CommandOption × Option String) :=
  let (spelling, value) := splitValue argument
  let held := if spelling = "-h" then value.bind (letterValue 'h') else value
  ((spellings.lookup argument).map (·, none)).or ((spellings.lookup spelling).map (·, held))

/-- Read an argument where an option may stand.  An argument with several readings is an error. -/
def readOption (spellings : Spellings) (argument : String) : Except ArgumentError OptionReading :=
  if argument.toList.head? != some '-' || argument = "-" then .ok .value
  else
    match (exactOption? spellings argument).toList, candidates spellings argument with
    | (found, value) :: _, _ => .ok (.option found value)
    | [], [(found, value)] => .ok (.option found value)
    | [], _ :: _ :: _ => .error .usage
    | [], [] =>
      if isNegativeNumber argument || argument.toList.contains ' ' then .ok .value else .ok .unknown

/-! ### Values -/

/-- The values of the options that have one. -/
structure OptionValues where
  rules : Option String := none
  source : Option String := none
deriving DecidableEq, Repr

namespace OptionValues

/-- Give an option its value.  The option that asks for help has none. -/
def set (values : OptionValues) (value : String) : CommandOption → Except ArgumentError OptionValues
  | .help => .error .usage
  | .rules => .ok { values with rules := some value }
  | .source => .ok { values with source := some value }

/-- The rules file that is asked for.  Two hyphens name none. -/
def rulesFile (values : OptionValues) : Except ArgumentError (Option String) :=
  if values.rules = some "--" then .error .namelessRules else .ok values.rules

/-- The export that is asked for.  Two hyphens name none, and no more does an empty text. -/
def sourceFile (values : OptionValues) : Option String :=
  values.source.filter fun name => !name.isEmpty && name != "--"

end OptionValues

/-- Read each argument of a command where an option may stand.  Behind two hyphens every argument
is a value. -/
def readArguments (name : CommandName) :
    List String → Except ArgumentError (List (String × OptionReading))
  | [] => .ok []
  | argument :: rest => do
    if argument = "--" then return (argument, .unknown) :: rest.map fun value => (value, .value)
    else
      let reading ← readOption name.spellings argument
      return (argument, reading) :: (← readArguments name rest)

/-- Collect the values of options.  A later value of an option replaces an earlier one, and an
argument that is neither an option nor its value is an error once all others are read. -/
def collectValues (values : OptionValues) (stray : Bool) :
    List (String × OptionReading) → Except ArgumentError OptionValues
  | [] => if stray then .error .usage else .ok values
  | (_, .option .help none) :: _ => .error .help
  | (_, .option found (some value)) :: rest => do
    collectValues (← values.set value found) stray rest
  | (_, .option found none) :: (value, .value) :: rest => do
    collectValues (← values.set value found) stray rest
  | (_, .option _ none) :: _ => .error .usage
  | (_, .unknown) :: rest => collectValues values true rest
  | (_, .value) :: rest => collectValues values true rest

/-- Read the options of a command. -/
def readOptions (name : CommandName) (arguments : List String) :
    Except ArgumentError OptionValues := do
  collectValues {} false (← readArguments name arguments)

/-! ### Requests -/

namespace Request

/-- The request of a command and the values of its options.  A rules file matters to `validate` only
where no export is named. -/
def ofValues (values : OptionValues) : CommandName → Except ArgumentError Request
  | .build => values.rulesFile.map .build
  | .validate =>
    match values.sourceFile with
    | some source => .ok (.validate none (some source))
    | none => values.rulesFile.map (.validate · none)

/-- The request of a list of arguments.  In front of the command only help may be asked for.  Any
other option there is an error, behind which the command may still be asked for help. -/
def ofArguments : List String → Except ArgumentError Request
  | [] => .error .usage
  | word :: rest =>
    match CommandName.ofString? word with
    | some name => do ofValues (← readOptions name rest) name
    | none =>
      if word = "--" then .error .usage
      else
        match readOption helpSpellings word with
        | .ok (.option _ none) => .error .help
        | .ok .unknown =>
          match ofArguments rest with
          | .error .help => .error .help
          | _ => .error .usage
        | _ => .error .usage

end Request

end TokenTheme
