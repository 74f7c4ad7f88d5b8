import TokenTheme.Json.Basic
import TokenTheme.Text.Hex

/-!
# Reading JSON

A strict reader that also knows the literals `NaN`, `Infinity` and `-Infinity`, refuses integers
of more than 4300 digits, and reports the first place at which a text is no JSON.

* `Json.Fault` — what is wrong at that place;
* `Json.Place` — a place by line, column and offset;
* `Json.ReadError` — a fault with its place, or an integer that is too long, and its wording;
* `Json.readString`, `Json.readNumber?`, `Json.readValue` — the grammar, each function returning
  what it read and the rest of the text;
* `Json.read` — the value that a whole text writes.

While a text is read a place is known by the number of characters that remain.
-/

namespace TokenTheme.Json

/-! ### Errors -/

/-- What is wrong at a place of the text. -/
inductive Fault where
  | value
  | propertyName
  | colon
  | comma
  | unterminatedString
  | controlCharacter
  | escape
  | unicodeEscape
  | extraData
  | byteOrderMark
deriving DecidableEq, Repr

/-- The wording of a fault. -/
def Fault.message : Fault → String
  | .value => "Expecting value"
  | .propertyName => "Expecting property name enclosed in double quotes"
  | .colon => "Expecting ':' delimiter"
  | .comma => "Expecting ',' delimiter"
  | .unterminatedString => "Unterminated string starting at"
  | .controlCharacter => "Invalid control character at"
  | .escape => "Invalid \\escape"
  | .unicodeEscape => "Invalid \\uXXXX escape"
  | .extraData => "Extra data"
  | .byteOrderMark => "Unexpected UTF-8 BOM (decode using utf-8-sig)"

/-- A place in a text: line and column count from one, the offset from zero. -/
structure Place where
  line : Nat
  column : Nat
  offset : Nat
deriving DecidableEq, Repr

/-- The place of the character at an offset. -/
def Place.ofOffset (text : List Char) (offset : Nat) : Place :=
  let before := text.take offset
  { line := before.count '\n' + 1
    column := (before.reverse.takeWhile (· != '\n')).length + 1
    offset := offset }

/-- Why reading stopped, the place being the number of characters that remain. -/
inductive Stop where
  | fault (what : Fault) (remaining : Nat)
  | longInteger (digits : Nat)
deriving DecidableEq, Repr

/-- Why a text is not read. -/
inductive ReadError where
  | malformed (what : Fault) (place : Place)
  | longInteger (digits : Nat)
deriving DecidableEq, Repr

/-- The wording of a read error. -/
def ReadError.message : ReadError → String
  | .malformed what place =>
    what.message ++ ": line " ++ place.line.repr ++ " column " ++ place.column.repr ++
      " (char " ++ place.offset.repr ++ ")"
  | .longInteger digits => digitLimitText (": value has " ++ digits.repr ++ " digits")

/-- A stop with its place in the whole text. -/
def Stop.locate (text : List Char) : Stop → ReadError
  | .fault what remaining => .malformed what (.ofOffset text (text.length - remaining))
  | .longInteger digits => .longInteger digits

/-- Stop in front of the rest of the text. -/
def stopAt {α : Type} (what : Fault) (rest : List Char) : Except Stop α :=
  .error (.fault what rest.length)

/-! ### White space and strings -/

/-- The white space of JSON. -/
def isSpace (c : Char) : Bool :=
  c == ' ' || c == '\t' || c == '\n' || c == '\r'

/-- The text from its first character that is not white space. -/
def skipSpace (text : List Char) : List Char :=
  text.dropWhile isSpace

/-- The character of a short escape. -/
def shortEscape? (c : Char) : Option Char :=
  if c = '"' || c = '\\' || c = '/' then some c
  else if c = 'b' then some '\x08'
  else if c = 'f' then some '\x0c'
  else if c = 'n' then some '\n'
  else if c = 'r' then some '\r'
  else if c = 't' then some '\t'
  else none

/-- Four hexadecimal digits and what follows them, which may not be the end of the text. -/
def readHex4? : List Char → Option (Nat × List Char)
  | a :: b :: c :: d :: e :: rest => (Text.readHex? [a, b, c, d]).map fun n => (n, e :: rest)
  | _ => none

/-- Whether the code unit is the first half of a surrogate pair. -/
def isHighSurrogate (n : Nat) : Bool :=
  0xd800 ≤ n && n < 0xdc00

/-- Whether the code unit is the second half of a surrogate pair. -/
def isLowSurrogate (n : Nat) : Bool :=
  0xdc00 ≤ n && n < 0xe000

/-- The character of a surrogate pair. -/
def joinSurrogates (high low : Nat) : Char :=
  Char.ofNat (0x10000 + (high - 0xd800) * 0x400 + (low - 0xdc00))

/-- The character of one code unit; half a surrogate pair stands for none. -/
def unitChar (n : Nat) : Char :=
  if isHighSurrogate n || isLowSurrogate n then '\ufffd' else Char.ofNat n

/-- Read the four digits of a `\u` escape, and with the first half of a surrogate pair also the
escape that follows it.  The text begins behind the `u`. -/
def readUnicodeEscape (text : List Char) : Except Stop (Char × List Char) :=
  match readHex4? text with
  | none => .error (.fault .unicodeEscape (text.length + 1))
  | some (high, rest) =>
    match rest with
    | '\\' :: 'u' :: more =>
      if isHighSurrogate high && 4 < more.length then
        match readHex4? more with
        | none => .error (.fault .unicodeEscape (more.length + 1))
        | some (low, rest') =>
          if isLowSurrogate low then .ok (joinSurrogates high low, rest')
          else .ok (unitChar high, rest)
      else .ok (unitChar high, rest)
    | _ => .ok (unitChar high, rest)

/-- Read the characters of a string up to its closing quote, at most `fuel` of them.  `opened` is
the number of characters that remained at the opening quote. -/
def readString (opened : Nat) : Nat → List Char → Except Stop (List Char × List Char)
  | 0, _ => .error (.fault .unterminatedString opened)
  | fuel + 1, text =>
    match text with
    | [] => .error (.fault .unterminatedString opened)
    | '"' :: rest => .ok ([], rest)
    | '\\' :: rest =>
      match rest with
      | [] => .error (.fault .unterminatedString opened)
      | 'u' :: digits => do
        let (c, rest') ← readUnicodeEscape digits
        let (cs, rest'') ← readString opened fuel rest'
        return (c :: cs, rest'')
      | e :: rest' =>
        match shortEscape? e with
        | none => stopAt .escape text
        | some c => do
          let (cs, rest'') ← readString opened fuel rest'
          return (c :: cs, rest'')
    | c :: rest =>
      if c.toNat < 0x20 then stopAt .controlCharacter text
      else do
        let (cs, rest') ← readString opened fuel rest
        return (c :: cs, rest')

/-! ### Numbers -/

/-- The digits at the front of a text, and what follows them. -/
def spanDigits (text : List Char) : List Char × List Char :=
  (text.takeWhile Char.isDigit, text.dropWhile Char.isDigit)

/-- The digits of an integer without needless zeros, and what follows them. -/
def readDigits? : List Char → Option (List Char × List Char)
  | '0' :: rest => some (['0'], rest)
  | c :: rest => if c.isDigit then some (spanDigits (c :: rest)) else none
  | [] => none

/-- The digits of a fraction, and what follows them; none without a digit behind the point. -/
def readFraction (text : List Char) : List Char × List Char :=
  match text with
  | '.' :: rest =>
    match spanDigits rest with
    | ([], _) => ([], text)
    | (digits, rest') => (digits, rest')
  | _ => ([], text)

/-- The exponent of ten, and what follows it; none without a digit. -/
def readExponent (text : List Char) : Option Int × List Char :=
  match text with
  | [] => (none, text)
  | e :: rest =>
    if e = 'e' || e = 'E' then
      let (negative, rest') :=
        match rest with
        | '-' :: more => (true, more)
        | '+' :: more => (false, more)
        | _ => (false, rest)
      match spanDigits rest' with
      | ([], _) => (none, text)
      | (digits, rest'') =>
        let n := Nat.ofDigitChars 10 digits 0
        (some (if negative then -(n : Int) else n), rest'')
    else (none, text)

/-- A number at the front of the text: an integer, unless it has a fraction or an exponent. -/
def readNumber? (text : List Char) : Option (Except Stop (Number × List Char)) :=
  let (negative, rest) :=
    match text with
    | '-' :: more => (true, more)
    | _ => (false, text)
  match readDigits? rest with
  | none => none
  | some (whole, rest') =>
    let (fraction, rest'') := readFraction rest'
    let (exponent, rest''') := readExponent rest''
    if fraction.isEmpty && exponent.isNone then
      if digitLimit < whole.length then some (.error (.longInteger whole.length))
      else
        let n := Nat.ofDigitChars 10 whole 0
        some (.ok (.int (if negative then -(n : Int) else n), rest'''))
    else
      some (.ok (.float (.ofDecimal negative (Nat.ofDigitChars 10 (whole ++ fraction) 0)
        (exponent.getD 0 - fraction.length)), rest'''))

/-! ### Values -/

/-- The literals, each with its value. -/
def literals : List (List Char × Json) :=
  [("null".toList, .null), ("true".toList, .bool true), ("false".toList, .bool false),
    ("NaN".toList, .number (.float .nan)),
    ("Infinity".toList, .number (.float (.infinite false))),
    ("-Infinity".toList, .number (.float (.infinite true)))]

/-- A literal at the front of the text. -/
def readLiteral? (text : List Char) : Option (Json × List Char) :=
  literals.findSome? fun (word, value) => (Text.dropStart? word text).map (value, ·)

/-- A value that is neither a string, a list nor an object. -/
def readAtom (text : List Char) : Except Stop (Json × List Char) :=
  match readLiteral? text with
  | some found => .ok found
  | none =>
    match readNumber? text with
    | some (.ok (n, rest)) => .ok (.number n, rest)
    | some (.error stop) => .error stop
    | none => stopAt .value text

/-- Read a key and the colon behind it, up to the value. -/
def readKey (text : List Char) : Except Stop (String × List Char) :=
  match text with
  | '"' :: rest => do
    let (key, rest') ← readString text.length (text.length + 1) rest
    match skipSpace rest' with
    | ':' :: rest'' => return (String.ofList key, skipSpace rest'')
    | other => stopAt .colon other
  | _ => stopAt .propertyName text

mutual

/-- Read a value at the front of the text.  Each step deeper or further takes from the fuel, of
which two for each character are enough. -/
def readValue : Nat → List Char → Except Stop (Json × List Char)
  | 0, text => stopAt .value text
  | fuel + 1, text =>
    match text with
    | '"' :: rest => do
      let (s, rest') ← readString text.length (text.length + 1) rest
      return (.string (String.ofList s), rest')
    | '[' :: rest =>
      match skipSpace rest with
      | ']' :: rest' => .ok (.list [], rest')
      | rest' => do
        let (items, rest'') ← readItems fuel rest'
        return (.list items, rest'')
    | '{' :: rest =>
      match skipSpace rest with
      | '}' :: rest' => .ok (.object [], rest')
      | rest' => do
        let (entries, rest'') ← readEntries fuel rest'
        return (.object (Entries.ofList entries), rest'')
    | _ => readAtom text

/-- Read the items of a list that is not empty, up to its end. -/
def readItems : Nat → List Char → Except Stop (List Json × List Char)
  | 0, text => stopAt .value text
  | fuel + 1, text => do
    let (item, rest) ← readValue fuel text
    match skipSpace rest with
    | ']' :: rest' => return ([item], rest')
    | ',' :: rest' =>
      let (items, rest'') ← readItems fuel (skipSpace rest')
      return (item :: items, rest'')
    | other => stopAt .comma other

/-- Read the entries of an object that is not empty, up to its end. -/
def readEntries : Nat → List Char → Except Stop (List (String × Json) × List Char)
  | 0, text => stopAt .value text
  | fuel + 1, text => do
    let (key, rest) ← readKey text
    let (value, rest') ← readValue fuel rest
    match skipSpace rest' with
    | '}' :: rest'' => return ([(key, value)], rest'')
    | ',' :: rest'' =>
      let (entries, rest''') ← readEntries fuel (skipSpace rest'')
      return ((key, value) :: entries, rest''')
    | other => stopAt .comma other

end

/-- Read a whole text. -/
def readAll (text : List Char) : Except Stop Json := do
  if text.head? = some '\ufeff' then stopAt .byteOrderMark text
  else
    let (value, rest) ← readValue (2 * text.length + 2) (skipSpace text)
    match skipSpace rest with
    | [] => return value
    | other => stopAt .extraData other

/-- The value that a text writes. -/
def read (s : String) : Except ReadError Json :=
  (readAll s.toList).mapError (Stop.locate s.toList)

end TokenTheme.Json
