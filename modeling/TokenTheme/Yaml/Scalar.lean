import TokenTheme.Json.Scalar
import TokenTheme.Text.Hex

/-!
# Plain scalars of YAML

A scalar without quotes may write more than a string.  YAML 1.1 gives a meaning of their own to
many words and numerals: `yes` is true, `0x1f` and `1_000` are integers, `.inf` is a number.

* `Yaml.Fault` — why a text is no YAML of the kind that is read here;
* `Yaml.nullWords`, `trueWords`, `falseWords` — the words;
* `Yaml.integer?`, `Yaml.float?` — the numerals;
* `Yaml.isTimestamp`, `Yaml.isSexagesimalFloat` — what is not read;
* `Yaml.Plain`, `Yaml.plain` — what a plain scalar writes.
-/

namespace TokenTheme.Yaml

/-! ### Faults -/

/-- Why a text is no YAML of the kind that is read here. -/
inductive Fault where
  /-- A character that may not stand in a text. -/
  | unprintable
  /-- A character with which nothing can begin. -/
  | strayCharacter
  /-- A quoted scalar without its closing quote, or across the end of a document. -/
  | unfinishedScalar
  /-- An escape that is none. -/
  | badEscape
  /-- An entry, a key, a value or a sign where none can stand. -/
  | misplaced
  /-- A line that must be a key and has no colon. -/
  | missingColon
  /-- Brackets that do not match, or a node where none can stand. -/
  | badStructure
  /-- A second document. -/
  | severalDocuments
  /-- A key that is a list or a mapping. -/
  | badKey
  /-- An anchor, a tag, a directive, a block scalar, a date or a time. -/
  | unsupported
  /-- An integer of more digits than are read. -/
  | longInteger (digits : Nat)
  /-- A numeral of a base without a digit. -/
  | noDigits (base : Nat)
deriving DecidableEq, Repr

/-! ### Words -/

/-- The words for no value. -/
def nullWords : List String :=
  ["", "~", "null", "Null", "NULL"]

/-- The words for true. -/
def trueWords : List String :=
  ["yes", "Yes", "YES", "true", "True", "TRUE", "on", "On", "ON"]

/-- The words for false. -/
def falseWords : List String :=
  ["no", "No", "NO", "false", "False", "FALSE", "off", "Off", "OFF"]

/-! ### Numerals -/

/-- The sign of a numeral, and what follows it. -/
def splitSign : List Char → Bool × List Char
  | '-' :: rest => (true, rest)
  | '+' :: rest => (false, rest)
  | text => (false, text)

/-- Whether the character is a digit below `base` or an underscore. -/
def isDigitOf (base : Nat) (c : Char) : Bool :=
  c == '_' ||
    match Text.hexValue? c with
    | some d => d < base
    | none => false

/-- The number that digits of a base write; underscores do not count. -/
def digitsValue (base : Nat) (digits : List Char) : Nat :=
  (digits.filter (· != '_')).foldl (fun n c => base * n + (Text.hexValue? c).getD 0) 0

/-- Whether a text writes a number below sixty in one or two digits. -/
def isSixtieth (part : List Char) : Bool :=
  match part with
  | [c] => c.isDigit
  | [c, d] => '0' ≤ c && c ≤ '5' && d.isDigit
  | _ => false

/-- The parts of a numeral to the base of sixty: digits, and numbers below sixty between colons. -/
def sexagesimalParts? (text : List Char) : Option (List Char × List (List Char)) :=
  match Text.splitOn ':' text with
  | first :: second :: rest =>
    if (first.head?.map Char.isDigit).getD false && first.all (isDigitOf 10) &&
        (second :: rest).all isSixtieth then some (first, second :: rest)
    else none
  | _ => none

/-- The magnitude of an integer numeral without its sign: binary behind `0b`, hexadecimal behind
`0x`, octal behind another zero, decimal, and to the base of sixty. -/
def magnitude? : List Char → Option (Except Fault Nat)
  | [] => none
  | ['0'] => some (.ok 0)
  | '0' :: 'b' :: digits => based 2 digits
  | '0' :: 'x' :: digits => based 16 digits
  | '0' :: digits => if digits.all (isDigitOf 8) then some (.ok (digitsValue 8 digits)) else none
  | digits =>
    if digits.head? != some '_' && digits.all (isDigitOf 10) then
      let count := (digits.filter (· != '_')).length
      some (if digitLimit < count then .error (.longInteger count) else .ok (digitsValue 10 digits))
    else
      (sexagesimalParts? digits).map fun (first, rest) =>
        let count := (first.filter (· != '_')).length
        if digitLimit < count then .error (.longInteger count)
        else .ok (rest.foldl (fun n part => 60 * n + digitsValue 10 part) (digitsValue 10 first))
where
  based (base : Nat) (digits : List Char) : Option (Except Fault Nat) :=
    if digits.isEmpty || !digits.all (isDigitOf base) then none
    else if digits.all (· == '_') then some (.error (.noDigits base))
    else some (.ok (digitsValue base digits))

/-- The integer that a text writes. -/
def integer? (text : List Char) : Option (Except Fault Int) :=
  let (negative, rest) := splitSign text
  (magnitude? rest).map fun found =>
    found.map fun n => if negative then -(n : Int) else n

/-- The power of ten behind a fraction, which must have a sign; zero when nothing follows. -/
def power? : List Char → Option Int
  | [] => some 0
  | e :: sign :: digits =>
    if (e == 'e' || e == 'E') && (sign == '-' || sign == '+') && !digits.isEmpty &&
        digits.all Char.isDigit then
      let n := Nat.ofDigitChars 10 digits 0
      some (if sign = '-' then -(n : Int) else n)
    else none
  | _ => none

/-- The numeral with digits `whole` before the point and what stands behind the point. -/
def fraction? (negative : Bool) (whole behind : List Char) : Option Binary64 :=
  let digits := (behind.takeWhile (isDigitOf 10)).filter (· != '_')
  (power? (behind.dropWhile (isDigitOf 10))).map fun power =>
    .ofDecimal negative (digitsValue 10 (whole ++ digits)) (power - digits.length)

/-- The number with a point that a text writes. -/
def float? (text : List Char) : Option Binary64 :=
  let (negative, rest) := splitSign text
  match rest with
  | '.' :: behind =>
    let word := String.ofList behind
    if ["inf", "Inf", "INF"].contains word then some (.infinite negative)
    else if text.head? != some '.' then none
    else if ["nan", "NaN", "NAN"].contains word then some .nan
    else if (behind.head?.map Char.isDigit).getD false then fraction? negative [] behind
    else none
  | c :: _ =>
    if c.isDigit then
      match rest.dropWhile (isDigitOf 10) with
      | '.' :: behind => fraction? negative (rest.takeWhile (isDigitOf 10)) behind
      | _ => none
    else none
  | [] => none

/-! ### Dates and times -/

/-- What follows at least `least` and at most `most` digits. -/
def afterDigits? (least most : Nat) (text : List Char) : Option (List Char) :=
  let count := ((text.takeWhile Char.isDigit).take most).length
  if least ≤ count then some (text.drop count) else none

/-- Whether a text is a time zone, or nothing. -/
def isZone : List Char → Bool
  | [] | ['Z'] => true
  | sign :: rest =>
    (sign == '+' || sign == '-') &&
      match afterDigits? 1 2 rest with
      | some [] => true
      | some (':' :: minutes) => afterDigits? 2 2 minutes == some []
      | _ => false

/-- Whether the character is a space or a tab. -/
def isSpaceOrTab (c : Char) : Bool :=
  c == ' ' || c == '\t'

/-- Whether a text is a time of day, perhaps with a fraction of a second and a time zone. -/
def isTime (text : List Char) : Bool :=
  let rest? := do
    let minutes ← Text.dropStart? [':'] (← afterDigits? 1 2 text)
    let seconds ← Text.dropStart? [':'] (← afterDigits? 2 2 minutes)
    afterDigits? 2 2 seconds
  match rest? with
  | some ('.' :: rest) => isZone ((rest.dropWhile Char.isDigit).dropWhile isSpaceOrTab)
  | some rest => isZone (rest.dropWhile isSpaceOrTab)
  | none => false

/-- Whether a text is a date: alone with two digits for the month and for the day, or followed by a
time of day. -/
def isTimestamp (text : List Char) : Bool :=
  let parts? := do
    let month ← Text.dropStart? ['-'] (← afterDigits? 4 4 text)
    let day ← Text.dropStart? ['-'] (← afterDigits? 1 2 month)
    let rest ← afterDigits? 1 2 day
    return (month.length - day.length, day.length - rest.length, rest)
  match parts? with
  | some (3, 2, []) => true
  | some (_, _, 'T' :: time) | some (_, _, 't' :: time) => isTime time
  | some (_, _, c :: time) => isSpaceOrTab c && isTime (time.dropWhile isSpaceOrTab)
  | _ => false

/-- Whether a text is a number with a point to the base of sixty. -/
def isSexagesimalFloat (text : List Char) : Bool :=
  let numeral := (splitSign text).2
  match numeral.dropWhile (· != '.') with
  | _ :: fraction =>
    (sexagesimalParts? (numeral.takeWhile (· != '.'))).isSome && fraction.all (isDigitOf 10)
  | [] => false

/-! ### Scalars -/

/-- What a plain scalar writes: a value, or one of two signs that can stand only as keys. -/
inductive Plain where
  | value (s : Scalar)
  | merge
  | defaultValue
deriving DecidableEq

/-- What a plain scalar writes.  Dates, and numbers with a point to the base of sixty, are not
read. -/
def plain (s : String) : Except Fault Plain :=
  if nullWords.contains s then .ok (.value .null)
  else if trueWords.contains s then .ok (.value (.bool true))
  else if falseWords.contains s then .ok (.value (.bool false))
  else if s = "<<" then .ok .merge
  else if s = "=" then .ok .defaultValue
  else
    match float? s.toList with
    | some x => .ok (.value (.number (.float x)))
    | none =>
      match integer? s.toList with
      | some found => found.map fun n => .value (.number (.int n))
      | none =>
        if isTimestamp s.toList || isSexagesimalFloat s.toList then .error .unsupported
        else .ok (.value (.string s))

end TokenTheme.Yaml
