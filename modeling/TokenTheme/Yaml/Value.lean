import TokenTheme.Table
import TokenTheme.Yaml.Node

/-!
# Values of YAML

* `Value` — a value whose mappings are tables;
* `DeepFault`, `Reading` — a fault with the number of lists and mappings around it, and a value
  or the fault that counts: nodes are read level by level, so that of two faults the outer one
  counts, and of two on one level the first;
* `Node.toValue` — the value of a node, in which each plain scalar has its meaning;
* `Value.read` — the value that a text writes.
-/

namespace TokenTheme.Yaml

/-- A value. -/
inductive Value where
  | scalar (s : Scalar)
  | list (items : List Value)
  | mapping (entries : List (Scalar × Value))

instance : Inhabited Value :=
  ⟨.scalar .null⟩

/-! ### Readings -/

/-- A fault, and how many lists and mappings lie around it. -/
structure DeepFault where
  depth : Nat
  fault : Fault
deriving DecidableEq, Repr

/-- A value, or the fault that counts. -/
abbrev Reading (α : Type) := Except DeepFault α

namespace Reading

variable {α β : Type}

/-- A result that stands on the level on which reading begins. -/
def here : Except Fault α → Reading α
  | .ok a => .ok a
  | .error fault => .error ⟨0, fault⟩

/-- A result that stands one level further in. -/
def within : Reading α → Reading α
  | .ok a => .ok a
  | .error e => .error { e with depth := e.depth + 1 }

/-- Two values, or the outer fault of two, the first one on the same level. -/
def both : Reading α → Reading β → Reading (α × β)
  | .ok a, .ok b => .ok (a, b)
  | .ok _, .error e => .error e
  | .error e, .ok _ => .error e
  | .error e, .error f => .error (if f.depth < e.depth then f else e)

/-- All values of a list, or the fault that counts. -/
def all : List (Reading α) → Reading (List α)
  | [] => .ok []
  | reading :: rest => (both reading (all rest)).map fun (a, more) => a :: more

end Reading

/-! ### Nodes as values -/

namespace Node

/-- Whether a key is the sign of a merge. -/
def isMerge : Node → Bool
  | .scalar text false => (plain text).toOption == some .merge
  | _ => false

/-- The key that a node writes.  A list or a mapping is no key. -/
def toKey : Node → Except Fault Scalar
  | .scalar text true => .ok (.string text)
  | .scalar text false => do
    match ← plain text with
    | .value s => return s
    | .defaultValue => return .string text
    | .merge => .error .misplaced
  | _ => .error .badKey

/-- The value of a scalar. -/
def scalarValue (text : String) (quoted : Bool) : Except Fault Value :=
  if quoted then .ok (.scalar (.string text))
  else do
    match ← plain text with
    | .value s => return .scalar s
    | _ => .error .misplaced

/-- The entries of a mapping, each read for itself: those that it merges, and its own. -/
abbrev EntryReadings := List (Reading (Scalar × Value)) × List (Reading (Scalar × Value))

mutual

/-- The value of a node.  Which entries a mapping has is settled before one of them is read. -/
def toValue : Node → Reading Value
  | .scalar text quoted => .here (scalarValue text quoted)
  | .list items => Reading.within ((itemValues items).map Value.list)
  | .mapping entries =>
    match entryReadings entries with
    | .error fault => .error ⟨1, fault⟩
    | .ok (merged, own) =>
      Reading.within ((Reading.all (merged ++ own)).map fun pairs => .mapping (Table.ofList pairs))

/-- The values of the items of a list. -/
def itemValues : List Node → Reading (List Value)
  | [] => .ok []
  | item :: rest => (Reading.both (toValue item) (itemValues rest)).map fun (v, more) => v :: more

/-- The entries of a mapping, each read for itself: those that it merges, and its own. -/
def entryReadings : List (Node × Node) → Except Fault EntryReadings
  | [] => .ok ([], [])
  | (key, value) :: rest =>
    if key.isMerge then do
      let here ← mergedReadings value
      let (merged, own) ← entryReadings rest
      return (here ++ merged, own)
    else do
      let (merged, own) ← entryReadings rest
      return (merged, Reading.both (.here key.toKey) (toValue value) :: own)

/-- The entries that a mapping, or a list of mappings, gives to the mapping that merges it.  The
first mapping of a list wins. -/
def mergedReadings : Node → Except Fault (List (Reading (Scalar × Value)))
  | .mapping entries => do
    let (merged, own) ← entryReadings entries
    return merged ++ own
  | .list items => mergedItems items
  | _ => .error .misplaced

/-- The entries of the mappings of a list, those of the last mapping first. -/
def mergedItems : List Node → Except Fault (List (Reading (Scalar × Value)))
  | [] => .ok []
  | .mapping entries :: rest => do
    let (merged, own) ← entryReadings entries
    let more ← mergedItems rest
    return more ++ (merged ++ own)
  | _ => .error .misplaced

end

end Node

/-! ### Texts -/

/-- The value that a text writes. -/
def Value.read (text : String) : Except Fault Value := do
  let found ← lexemes text.toList
  let node ← Node.ofLexemes found
  node.toValue.mapError DeepFault.fault

end TokenTheme.Yaml
