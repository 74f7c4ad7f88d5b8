import TokenTheme.Yaml.Scalar

/-!
# Lexemes of YAML

A text of YAML as a sequence of lexemes.  Indentation outside of brackets is turned into lexemes
that open and close block collections, and a key is known by the colon behind it: when the colon
is met, the lexeme for the key is put in front of what was read since the place at which the key
could begin.

* `Lexeme` — brackets, indicators and scalars;
* `Cursor` — a place in the text;
* `KeyPlace` — a place at which a key may have begun;
* `Scanner` — the state of the scan, and `Scanner.step`, one lexeme further;
* `lexemes` — the lexemes of a whole text, whose line breaks are single characters.
-/

namespace TokenTheme.Yaml

/-- A lexeme. -/
inductive Lexeme where
  | documentStart
  | documentEnd
  | blockSequenceStart
  | blockMappingStart
  | blockEnd
  | flowSequenceStart
  | flowSequenceEnd
  | flowMappingStart
  | flowMappingEnd
  | blockEntry
  | flowEntry
  | key
  | value
  | scalar (text : String) (quoted : Bool)
deriving DecidableEq, Repr

/-! ### Characters -/

/-- Whether the character breaks a line. -/
def isBreak (c : Char) : Bool :=
  c == '\n' || c == '\x85' || c == '\u2028' || c == '\u2029'

/-- Whether the character separates words. -/
def isGap (c : Char) : Bool :=
  c == ' ' || c == '\t' || isBreak c

/-- Whether the character may stand in a text. -/
def isAllowed (c : Char) : Bool :=
  let n := c.toNat
  n == 9 || n == 0xa || n == 0xd || (0x20 ≤ n && n ≤ 0x7e) || n == 0x85 ||
    (0xa0 ≤ n && n ≤ 0xfffd) || 0x10000 ≤ n

/-- Whether a gap or the end of the text is next. -/
def gapNext : List Char → Bool
  | [] => true
  | c :: _ => isGap c

/-- Whether a line begins with the sign of a document, `---` or `...`. -/
def documentSign? : List Char → Option Lexeme
  | '-' :: '-' :: '-' :: rest => if gapNext rest then some .documentStart else none
  | '.' :: '.' :: '.' :: rest => if gapNext rest then some .documentEnd else none
  | _ => none

/-! ### Places -/

/-- A place in the text: what remains, how much was read, and the place by line and column. -/
structure Cursor where
  rest : List Char
  index : Nat
  line : Nat
  column : Nat

namespace Cursor

/-- One character further. -/
def next (cursor : Cursor) : Cursor :=
  match cursor.rest with
  | [] => cursor
  | c :: rest =>
    if isBreak c then ⟨rest, cursor.index + 1, cursor.line + 1, 0⟩
    else ⟨rest, cursor.index + 1, cursor.line, cursor.column + if c = '\ufeff' then 0 else 1⟩

/-- Some characters further. -/
def skip : Nat → Cursor → Cursor
  | 0, cursor => cursor
  | n + 1, cursor => skip n cursor.next

/-- Past all characters of a kind. -/
def skipWhile (p : Char → Bool) (cursor : Cursor) : Cursor :=
  cursor.skip (cursor.rest.takeWhile p).length

end Cursor

/-! ### Scalars -/

/-- What a line break inside a scalar stands for: a single break is a space, further breaks stand
for themselves. -/
def foldBreaks : List Char → List Char
  | [] => []
  | b :: more =>
    let breaks := more.map fun c => if c = '\x85' then '\n' else c
    if b = '\u2028' || b = '\u2029' then b :: breaks
    else if breaks.isEmpty then [' '] else breaks

/-- The line breaks up to the next word of a quoted scalar, with blanks between them. -/
def quotedBreaks : Nat → Cursor → Except Fault (List Char × Cursor)
  | 0, _ => .error .unfinishedScalar
  | fuel + 1, cursor =>
    if (documentSign? cursor.rest).isSome then .error .unfinishedScalar
    else
      let cursor := cursor.skipWhile fun c => c == ' ' || c == '\t'
      match cursor.rest with
      | c :: _ =>
        if isBreak c then do
          let (breaks, cursor') ← quotedBreaks fuel cursor.next
          return (c :: breaks, cursor')
        else return ([], cursor)
      | [] => return ([], cursor)

/-- The characters of the short escapes of a double-quoted scalar. -/
def shortEscapes : List (Char × Char) :=
  [('0', '\x00'), ('a', '\x07'), ('b', '\x08'), ('t', '\t'), ('\t', '\t'), ('n', '\n'),
    ('v', '\x0b'), ('f', '\x0c'), ('r', '\r'), ('e', '\x1b'), (' ', ' '), ('"', '"'),
    ('\\', '\\'), ('/', '/'), ('N', '\x85'), ('_', '\xa0'), ('L', '\u2028'), ('P', '\u2029')]

/-- How many digits a numeric escape has. -/
def escapeWidth? (c : Char) : Option Nat :=
  if c = 'x' then some 2 else if c = 'u' then some 4 else if c = 'U' then some 8 else none

/-- What a backslash and the characters behind it write. -/
def readEscape (fuel : Nat) (cursor : Cursor) : Except Fault (List Char × Cursor) :=
  match cursor.rest with
  | [] => .error .badEscape
  | c :: rest =>
    match shortEscapes.lookup c with
    | some d => .ok ([d], cursor.next)
    | none =>
      match escapeWidth? c with
      | some width =>
        let digits := rest.take width
        if digits.length = width then
          match Text.readHex? digits with
          | some n => .ok ([Char.ofNat n], cursor.skip (width + 1))
          | none => .error .badEscape
        else .error .badEscape
      | none =>
        if isBreak c then
          (quotedBreaks fuel cursor.next).map fun (breaks, cursor') =>
            (breaks.map fun b => if b = '\x85' then '\n' else b, cursor')
        else .error .badEscape

/-- Read a quoted scalar behind its opening quote. -/
def readQuoted (quote : Char) : Nat → Cursor → Except Fault (List Char × Cursor)
  | 0, _ => .error .unfinishedScalar
  | fuel + 1, cursor =>
    match cursor.rest with
    | [] => .error .unfinishedScalar
    | c :: rest =>
      if c = quote then
        if quote = '\'' && rest.head? = some '\'' then do
          let (more, cursor') ← readQuoted quote fuel (cursor.skip 2)
          return (quote :: more, cursor')
        else return ([], cursor.next)
      else if c = '\\' && quote = '"' then do
        let (text, cursor') ← readEscape fuel cursor.next
        let (more, cursor'') ← readQuoted quote fuel cursor'
        return (text ++ more, cursor'')
      else if c = ' ' || c = '\t' then do
        let blanks := cursor.rest.takeWhile fun c => c == ' ' || c == '\t'
        let cursor' := cursor.skip blanks.length
        match cursor'.rest with
        | [] => .error .unfinishedScalar
        | d :: _ =>
          let (more, cursor'') ← readQuoted quote fuel cursor'
          return ((if isBreak d then [] else blanks) ++ more, cursor'')
      else if isBreak c then do
        let (breaks, cursor') ← quotedBreaks fuel cursor.next
        let (more, cursor'') ← readQuoted quote fuel cursor'
        return (foldBreaks (c :: breaks) ++ more, cursor'')
      else do
        let (more, cursor') ← readQuoted quote fuel cursor.next
        return (c :: more, cursor')

/-- The word of a plain scalar at the front of a text.  A colon ends it before a gap, and inside
of brackets so does each sign of a collection. -/
def plainWord (inFlow : Bool) : List Char → List Char
  | [] => []
  | c :: rest =>
    if isGap c then []
    else if c = ':' && (gapNext rest || (inFlow && (rest.head?.map fun d =>
        [',', '[', ']', '{', '}'].contains d).getD false)) then []
    else if inFlow && [',', '?', '[', ']', '{', '}'].contains c then []
    else c :: plainWord inFlow rest

/-- The line breaks and spaces behind a line of a plain scalar.  They end at the sign of a
document. -/
def plainBreaks : Nat → Cursor → List Char × Cursor × Bool
  | 0, cursor => ([], cursor, true)
  | fuel + 1, cursor =>
    if cursor.column = 0 && (documentSign? cursor.rest).isSome then ([], cursor, true)
    else
      match cursor.rest with
      | c :: _ =>
        if c = ' ' then plainBreaks fuel cursor.next
        else if isBreak c then
          let (breaks, cursor', ended) := plainBreaks fuel cursor.next
          (c :: breaks, cursor', ended)
        else ([], cursor, false)
      | [] => ([], cursor, false)

/-- Read a plain scalar whose further lines must be indented by more than `indent` columns.  The
flag tells whether a line break follows its last word. -/
def readPlain (inFlow : Bool) (indent : Int) : Nat → Cursor → List Char × Cursor × Bool
  | 0, cursor => ([], cursor, false)
  | fuel + 1, cursor =>
    let word := plainWord inFlow cursor.rest
    let cursor := cursor.skip word.length
    let spaces := cursor.rest.takeWhile (· == ' ')
    let after := cursor.skip spaces.length
    match after.rest with
    | [] => (word, after, false)
    | c :: _ =>
      if isBreak c then
        let (breaks, after', ended) := plainBreaks fuel after.next
        let stop := ended || after'.rest.head? = some '#' ||
          (!inFlow && (after'.column : Int) ≤ indent) || (plainWord inFlow after'.rest).isEmpty
        if stop then (word, after', true)
        else
          let (more, cursor', broken) := readPlain inFlow indent fuel after'
          (word ++ foldBreaks (c :: breaks) ++ more, cursor', broken)
      else if spaces.isEmpty || c = '#' || (plainWord inFlow after.rest).isEmpty then
        (word, after, false)
      else
        let (more, cursor', broken) := readPlain inFlow indent fuel after
        (word ++ spaces ++ more, cursor', broken)

/-! ### The scan -/

/-- A place at which a key may have begun: the number of lexemes before it, whether a key must
stand there, and the place. -/
structure KeyPlace where
  lexeme : Nat
  required : Bool
  index : Nat
  line : Nat
  column : Nat

/-- The state of a scan. -/
structure Scanner where
  cursor : Cursor
  /-- The lexemes so far. -/
  lexemes : List Lexeme := []
  /-- How many brackets are open. -/
  flow : Nat := 0
  /-- The column of the innermost block collection; below zero when there is none. -/
  indent : Int := -1
  /-- The columns of the block collections around it. -/
  outer : List Int := []
  /-- Whether a key may begin here. -/
  keyAllowed : Bool := true
  /-- The places at which a key may have begun, by the number of open brackets. -/
  places : List (Nat × KeyPlace) := []

namespace Scanner

/-- The state with one more lexeme. -/
def push (s : Scanner) (lexeme : Lexeme) : Scanner :=
  { s with lexemes := s.lexemes ++ [lexeme] }

/-- The column of the next character. -/
def column (s : Scanner) : Int :=
  s.cursor.column

/-- Give up the place of a key inside the current brackets; an error if a key must stand there. -/
def dropPlace (s : Scanner) : Except Fault Scanner :=
  match s.places.lookup s.flow with
  | some place =>
    if place.required then .error .missingColon
    else .ok { s with places := s.places.filter fun entry => entry.1 != s.flow }
  | none => .ok s

/-- Remember the place of a key, if one may begin here. -/
def savePlace (s : Scanner) : Except Fault Scanner :=
  if s.keyAllowed then do
    let s ← s.dropPlace
    let place : KeyPlace :=
      { lexeme := s.lexemes.length
        required := s.flow = 0 && s.indent = s.column
        index := s.cursor.index
        line := s.cursor.line
        column := s.cursor.column }
    return { s with places := (s.flow, place) :: s.places }
  else .ok s

/-- Give up the places of keys that are on another line or too far away. -/
def dropStale (s : Scanner) : Except Fault Scanner :=
  let stale (entry : Nat × KeyPlace) : Bool :=
    entry.2.line != s.cursor.line || 1024 < s.cursor.index - entry.2.index
  if s.places.any fun entry => stale entry && entry.2.required then .error .missingColon
  else .ok { s with places := s.places.filter fun entry => !stale entry }

/-- Close the block collections that are indented by more than `column` columns. -/
def unwindFrom : Nat → Int → Scanner → Scanner
  | 0, _, s => s
  | fuel + 1, column, s =>
    if column < s.indent then
      unwindFrom fuel column
        { s.push .blockEnd with indent := s.outer.head?.getD (-1), outer := s.outer.tail }
    else s

/-- Close block collections, unless brackets are open. -/
def unwind (s : Scanner) (column : Int) : Scanner :=
  if s.flow = 0 then unwindFrom (s.outer.length + 1) column s else s

/-- Open a block collection at a column, unless one is open there.  Its lexeme goes to the place
`position` among the lexemes. -/
def openBlock (s : Scanner) (column : Int) (position : Nat) (lexeme : Lexeme) : Scanner :=
  if s.indent < column then
    { s with
      lexemes := s.lexemes.insertIdx position lexeme
      indent := column
      outer := s.indent :: s.outer }
  else s

/-- Go past spaces, comments and line breaks.  Outside of brackets a key may begin on a new
line. -/
def skipGap : Nat → Scanner → Scanner
  | 0, s => s
  | fuel + 1, s =>
    let cursor := s.cursor.skipWhile (· == ' ')
    let cursor :=
      if cursor.rest.head? = some '#' then cursor.skipWhile fun c => !isBreak c else cursor
    match cursor.rest with
    | c :: _ =>
      if isBreak c then
        skipGap fuel { s with cursor := cursor.next, keyAllowed := s.keyAllowed || s.flow = 0 }
      else { s with cursor := cursor }
    | [] => { s with cursor := cursor }

/-! ### One lexeme further -/

/-- The sign of a document. -/
def readDocumentSign (s : Scanner) (lexeme : Lexeme) : Except Fault Scanner := do
  let s ← (s.unwind (-1)).dropPlace
  return { s.push lexeme with cursor := s.cursor.skip 3, keyAllowed := false }

/-- An opening bracket. -/
def readOpening (s : Scanner) (lexeme : Lexeme) : Except Fault Scanner := do
  let s ← s.savePlace
  return { s.push lexeme with cursor := s.cursor.next, flow := s.flow + 1, keyAllowed := true }

/-- A closing bracket. -/
def readClosing (s : Scanner) (lexeme : Lexeme) : Except Fault Scanner := do
  let s ← s.dropPlace
  if s.flow = 0 then .error .badStructure
  else
    return { s.push lexeme with cursor := s.cursor.next, flow := s.flow - 1, keyAllowed := false }

/-- A comma between brackets. -/
def readFlowEntry (s : Scanner) : Except Fault Scanner := do
  let s ← s.dropPlace
  return { s.push .flowEntry with cursor := s.cursor.next, keyAllowed := true }

/-- The dash of an entry. -/
def readBlockEntry (s : Scanner) : Except Fault Scanner := do
  if s.flow = 0 && !s.keyAllowed then .error .misplaced
  else
    let s := if s.flow = 0 then s.openBlock s.column s.lexemes.length .blockSequenceStart else s
    let s ← s.dropPlace
    return { s.push .blockEntry with cursor := s.cursor.next, keyAllowed := true }

/-- The question mark of a key. -/
def readKey (s : Scanner) : Except Fault Scanner := do
  if s.flow = 0 && !s.keyAllowed then .error .misplaced
  else
    let s := if s.flow = 0 then s.openBlock s.column s.lexemes.length .blockMappingStart else s
    let s ← s.dropPlace
    return { s.push .key with cursor := s.cursor.next, keyAllowed := s.flow = 0 }

/-- The colon of a value.  With a remembered place, what stands there is the key. -/
def readValue (s : Scanner) : Except Fault Scanner := do
  match s.places.lookup s.flow with
  | some place =>
    let s := { s with
      places := s.places.filter fun entry => entry.1 != s.flow
      lexemes := s.lexemes.insertIdx place.lexeme .key }
    let s := if s.flow = 0 then s.openBlock place.column place.lexeme .blockMappingStart else s
    return { s.push .value with cursor := s.cursor.next, keyAllowed := false }
  | none =>
    if s.flow = 0 && !s.keyAllowed then .error .misplaced
    else
      let s := if s.flow = 0 then s.openBlock s.column s.lexemes.length .blockMappingStart else s
      return { s.push .value with cursor := s.cursor.next, keyAllowed := s.flow = 0 }

/-- A quoted scalar. -/
def readQuotedScalar (s : Scanner) (quote : Char) : Except Fault Scanner := do
  let s ← s.savePlace
  let (text, cursor) ← readQuoted quote (s.cursor.rest.length + 1) s.cursor.next
  return { s.push (.scalar (String.ofList text) true) with cursor, keyAllowed := false }

/-- A plain scalar. -/
def readPlainScalar (s : Scanner) : Except Fault Scanner := do
  let s ← s.savePlace
  let (text, cursor, broken) :=
    readPlain (s.flow != 0) s.indent (s.cursor.rest.length + 1) s.cursor
  return { s.push (.scalar (String.ofList text) false) with cursor, keyAllowed := broken }

/-- Whether a plain scalar can begin with a character in front of `rest`. -/
def beginsPlain (s : Scanner) (c : Char) (rest : List Char) : Bool :=
  !(isGap c || ['-', '?', ':', ',', '[', ']', '{', '}', '#', '&', '*', '!', '|', '>', '\'', '"',
      '%', '@', '\x60'].contains c) ||
    (!gapNext rest && (c = '-' || (s.flow = 0 && (c = '?' || c = ':'))))

/-- Read the lexeme that begins with `c` in front of `rest`. -/
def readLexeme (s : Scanner) (c : Char) (rest : List Char) : Except Fault Scanner :=
  let lineStart := s.cursor.column = 0
  match if lineStart then documentSign? (c :: rest) else none with
  | some lexeme => s.readDocumentSign lexeme
  | none =>
    if c = '%' && lineStart then .error .unsupported
    else if c = '[' then s.readOpening .flowSequenceStart
    else if c = '{' then s.readOpening .flowMappingStart
    else if c = ']' then s.readClosing .flowSequenceEnd
    else if c = '}' then s.readClosing .flowMappingEnd
    else if c = ',' then s.readFlowEntry
    else if c = '-' && gapNext rest then s.readBlockEntry
    else if c = '?' && (s.flow != 0 || gapNext rest) then s.readKey
    else if c = ':' && (s.flow != 0 || gapNext rest) then s.readValue
    else if c = '*' || c = '&' || c = '!' || (s.flow = 0 && (c = '|' || c = '>')) then
      .error .unsupported
    else if c = '\'' || c = '"' then s.readQuotedScalar c
    else if s.beginsPlain c rest then s.readPlainScalar
    else .error .strayCharacter

/-- One lexeme further; none at the end of the text. -/
def step (s : Scanner) : Except Fault (Scanner × Bool) := do
  let s ← (skipGap (s.cursor.rest.length + 1) s).dropStale
  let s := s.unwind s.column
  match s.cursor.rest with
  | [] =>
    let s ← (s.unwind (-1)).dropPlace
    return (s, true)
  | c :: rest =>
    let s ← s.readLexeme c rest
    return (s, false)

/-- The lexemes up to the end of the text, at most `fuel` of them. -/
def run : Nat → Scanner → Except Fault (List Lexeme)
  | 0, s => .ok s.lexemes
  | fuel + 1, s => do
    let (s', ended) ← s.step
    if ended then return s'.lexemes else run fuel s'

end Scanner

/-- The lexemes of a text.  One byte order mark in front is no part of it. -/
def lexemes (text : List Char) : Except Fault (List Lexeme) :=
  if text.all isAllowed then
    let text := (Text.dropStart? ['\ufeff'] text).getD text
    Scanner.run (text.length + 1) { cursor := ⟨text, 0, 0, 0⟩ }
  else .error .unprintable

end TokenTheme.Yaml
