import TokenTheme.Yaml.Lexeme

/-!
# Nodes of YAML

The tree of a document, before its plain scalars are given a meaning.

* `Node` — a scalar, a list or a mapping, in the order of the text;
* `Node.empty` — what stands where a node is left out;
* `readNode` and the readers of the four kinds of collection — from lexemes to nodes, each with
  the lexemes that are left;
* `Node.ofLexemes` — the node of the only document of a text.
-/

namespace TokenTheme.Yaml

/-- A node of a document. -/
inductive Node where
  | scalar (text : String) (quoted : Bool)
  | list (items : List Node)
  | mapping (entries : List (Node × Node))

namespace Node

/-- What stands where a node is left out. -/
def empty : Node :=
  .scalar "" false

/-! ### Readers

Each reader calls the next one with less fuel.  At most three calls go by without a lexeme
being consumed, so that three units for each lexeme are enough. -/

/-- What ends an entry of a block mapping. -/
def blockStops : List Lexeme :=
  [.key, .value, .blockEnd]

/-- What ends an item between square brackets. -/
def listStops : List Lexeme :=
  [.flowEntry, .flowSequenceEnd]

/-- What ends an entry between curly brackets. -/
def mappingStops : List Lexeme :=
  [.flowEntry, .flowMappingEnd]

/-- Whether one of the lexemes is next. -/
def stopsAt (stops : List Lexeme) : List Lexeme → Bool
  | [] => false
  | lexeme :: _ => stops.contains lexeme

/-- Go past the comma in front of an item that is not the first one. -/
def skipComma (first : Bool) (lexemes : List Lexeme) : Except Fault (List Lexeme) :=
  if first then .ok lexemes
  else
    match lexemes with
    | .flowEntry :: rest => .ok rest
    | _ => .error .badStructure

mutual

/-- Read a node.  Where `dashes` holds, the entries of a list may stand there without an
indentation of their own. -/
def readNode (dashes : Bool) : Nat → List Lexeme → Except Fault (Node × List Lexeme)
  | 0, _ => .error .badStructure
  | fuel + 1, lexemes =>
    match lexemes with
    | .scalar text quoted :: rest => .ok (.scalar text quoted, rest)
    | .flowSequenceStart :: rest => do
      let (items, rest) ← readFlowItems true fuel rest
      return (.list items, rest)
    | .flowMappingStart :: rest => do
      let (entries, rest) ← readFlowEntries true fuel rest
      return (.mapping entries, rest)
    | .blockSequenceStart :: rest => do
      let (items, rest) ← readItems fuel rest
      return (.list items, rest)
    | .blockMappingStart :: rest => do
      let (entries, rest) ← readEntries fuel rest
      return (.mapping entries, rest)
    | .blockEntry :: _ =>
      if dashes then do
        let (items, rest) ← readBareItems fuel lexemes
        return (.list items, rest)
      else .error .badStructure
    | _ => .error .badStructure

/-- Read a node that may be left out in front of some lexemes. -/
def readOptional (stops : List Lexeme) (dashes : Bool) :
    Nat → List Lexeme → Except Fault (Node × List Lexeme)
  | 0, _ => .error .badStructure
  | fuel + 1, lexemes =>
    if stopsAt stops lexemes then .ok (empty, lexemes) else readNode dashes fuel lexemes

/-- Read what stands behind a colon; without a colon the value is left out. -/
def readValue (stops : List Lexeme) (dashes : Bool) :
    Nat → List Lexeme → Except Fault (Node × List Lexeme)
  | 0, _ => .error .badStructure
  | fuel + 1, lexemes =>
    match lexemes with
    | .value :: rest => readOptional stops dashes fuel rest
    | _ => .ok (empty, lexemes)

/-- Read the items of a list up to the end of its indentation. -/
def readItems : Nat → List Lexeme → Except Fault (List Node × List Lexeme)
  | 0, _ => .error .badStructure
  | fuel + 1, lexemes =>
    match lexemes with
    | .blockEntry :: rest => do
      let (item, rest) ← readOptional [.blockEntry, .blockEnd] false fuel rest
      let (items, rest) ← readItems fuel rest
      return (item :: items, rest)
    | .blockEnd :: rest => .ok ([], rest)
    | _ => .error .badStructure

/-- Read the items of a list that has no indentation of its own. -/
def readBareItems : Nat → List Lexeme → Except Fault (List Node × List Lexeme)
  | 0, _ => .error .badStructure
  | fuel + 1, lexemes =>
    match lexemes with
    | .blockEntry :: rest => do
      let (item, rest) ← readOptional (.blockEntry :: blockStops) false fuel rest
      let (items, rest) ← readBareItems fuel rest
      return (item :: items, rest)
    | _ => .ok ([], lexemes)

/-- Read the entries of a mapping up to the end of its indentation. -/
def readEntries : Nat → List Lexeme → Except Fault (List (Node × Node) × List Lexeme)
  | 0, _ => .error .badStructure
  | fuel + 1, lexemes =>
    match lexemes with
    | .key :: rest => do
      let (key, rest) ← readOptional blockStops true fuel rest
      let (value, rest) ← readValue blockStops true fuel rest
      let (entries, rest) ← readEntries fuel rest
      return ((key, value) :: entries, rest)
    | .blockEnd :: rest => .ok ([], rest)
    | _ => .error .badStructure

/-- Read the items of a list up to its closing bracket.  A single entry is a mapping. -/
def readFlowItems (first : Bool) : Nat → List Lexeme → Except Fault (List Node × List Lexeme)
  | 0, _ => .error .badStructure
  | fuel + 1, lexemes =>
    if stopsAt [.flowSequenceEnd] lexemes then .ok ([], lexemes.tail)
    else do
      let lexemes ← skipComma first lexemes
      match lexemes with
      | .flowSequenceEnd :: rest => .ok ([], rest)
      | .key :: rest =>
        let (key, rest) ← readOptional (.value :: listStops) false fuel rest
        let (value, rest) ← readValue listStops false fuel rest
        let (items, rest) ← readFlowItems false fuel rest
        return (.mapping [(key, value)] :: items, rest)
      | _ =>
        let (item, rest) ← readNode false fuel lexemes
        let (items, rest) ← readFlowItems false fuel rest
        return (item :: items, rest)

/-- Read the entries of a mapping up to its closing bracket.  A single node is a key. -/
def readFlowEntries (first : Bool) :
    Nat → List Lexeme → Except Fault (List (Node × Node) × List Lexeme)
  | 0, _ => .error .badStructure
  | fuel + 1, lexemes =>
    if stopsAt [.flowMappingEnd] lexemes then .ok ([], lexemes.tail)
    else do
      let lexemes ← skipComma first lexemes
      match lexemes with
      | .flowMappingEnd :: rest => .ok ([], rest)
      | .key :: rest =>
        let (key, rest) ← readOptional (.value :: mappingStops) false fuel rest
        let (value, rest) ← readValue mappingStops false fuel rest
        let (entries, rest) ← readFlowEntries false fuel rest
        return ((key, value) :: entries, rest)
      | _ =>
        let (key, rest) ← readNode false fuel lexemes
        let (entries, rest) ← readFlowEntries false fuel rest
        return ((key, empty) :: entries, rest)

end

/-! ### Documents -/

/-- Make sure that nothing follows a document but the sign of its end. -/
def finish : List Lexeme → Except Fault Unit
  | [] => .ok ()
  | .documentEnd :: rest => finish rest
  | .documentStart :: _ => .error .severalDocuments
  | _ => .error .badStructure

/-- The node of a document that begins here and is the last one. -/
def ofBody (lexemes : List Lexeme) : Except Fault Node := do
  let (node, rest) ← readNode false (3 * lexemes.length + 3) lexemes
  finish rest
  return node

/-- The node of the only document; without one it is empty. -/
def ofLexemes : List Lexeme → Except Fault Node
  | [] => .ok empty
  | .documentStart :: rest =>
    if rest.isEmpty || stopsAt [.documentStart, .documentEnd] rest then do
      finish rest
      return empty
    else ofBody rest
  | lexemes => ofBody lexemes

end Node

end TokenTheme.Yaml
