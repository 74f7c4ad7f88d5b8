import TokenTheme.Export.Font
import TokenTheme.Export.Tree

/-!
# Reading typed nodes

What the nodes of a W3C export state.

* `NodeType` — the types that a node may have, with their words;
* `NodeReading` — a node states a token, or one property of a text style, or nothing;
* `readNumberNode` — a bare number, whose meaning its name tells;
* `TypedNode.read` — the reading of a node, unless a number in it is out of range;
* `readNodes` — the tokens that the nodes state, and the text styles gathered from their leaves;
* `w3cDrafts` — the drafts of a whole export: first the tokens of single nodes, then the text
  styles.
-/

namespace TokenTheme

/-! ### Types -/

/-- What the type of a node says about its value. -/
inductive NodeType where
  | color
  | spacing
  | borderRadius
  | shadow
  | typography
  | text
  | number
deriving DecidableEq, Repr

/-- The words for each type. -/
def NodeType.words : List (String × NodeType) :=
  [("color", .color), ("dimension", .spacing), ("spacing", .spacing),
    ("borderRadius", .borderRadius), ("shadow", .shadow), ("typography", .typography),
    ("text", .text), ("fontFamily", .text), ("number", .number), ("fontWeight", .number),
    ("fontSize", .number), ("lineHeight", .number), ("letterSpacing", .number)]

/-- The type of a word. -/
def NodeType.ofWord? (word : String) : Option NodeType :=
  Entries.get? word NodeType.words

/-! ### Readings -/

/-- What a node states. -/
inductive NodeReading where
  | token (draft : Draft)
  | leaf (leaf : FontLeaf)
  | nothing

/-- A token of a kind. -/
def NodeReading.ofKind (kind : TokenKind) (name : String) (description value : Json) :
    NodeReading :=
  .token ⟨name, .string kind.name, value, description⟩

/-- A width in pixels; whatever is not a number is kept. -/
def toPixels : Json → Except RangeError Json
  | .number n => n.plain.map fun s => .string (s ++ "px")
  | value => .ok value

/-- A bare number is a spacing, a border radius or the width of a border when its name says so.
Otherwise it may belong to a text style. -/
def readNumberNode (name : String) (description value : Json) : Except RangeError NodeReading :=
  let holds (word : String) : Bool := Text.occurs word.toList name.toList
  if holds "space" || holds "margin" || holds "gutter" then
    value.toLength.map (.ofKind .spacing name description)
  else if holds "radius" then
    value.toLength.map (.ofKind .borderRadius name description)
  else if holds "width" && holds "border" then
    (toPixels value).map (.ofKind .spacing name description)
  else if holds "size" && !holds "font" then
    value.toLength.map (.ofKind .spacing name description)
  else .ok (.leaf ⟨name, value, description⟩)

/-- The letter spacing of a composite value, where it states one: zero and null state none. -/
def compositeSpacing (spacing : Option Number) : Except RangeError (Entries Json) :=
  match spacing with
  | none => .ok []
  | some n =>
    if n.isZero then .ok [] else n.plain.map fun s => [("letterSpacing", .string (s ++ "em"))]

/-- The letter spacing of a composite value must be a number, null or missing. -/
def spacingNumber? : Json → Option (Option Number)
  | .null => some none
  | .number n => some (some n)
  | _ => none

/-- The composite value of a text style that a node states in numbers; none when a part is
missing or is not of its type. -/
def compositeValue? : Json → Except RangeError (Option Json)
  | .object entries =>
    match Json.field "fontFamily" entries, Json.field "fontSize" entries,
        Json.field "fontWeight" entries, Json.field "lineHeight" entries,
        spacingNumber? (Json.field "letterSpacing" entries) with
    | .string family, .number size, .number weight, .number height, some spacing => do
      let size ← size.rem
      let height ← height.rem
      let spacing ← compositeSpacing spacing
      return some <| .object <|
        [("fontFamily", .string family), ("fontSize", .string size),
          ("fontWeight", .number weight), ("lineHeight", .string height)] ++ spacing
    | _, _, _, _, _ => return none
  | _ => return none

/-- The type of a node as its entries give it. -/
def TypedNode.typeValue (node : TypedNode) : Json :=
  (Json.field "$type" node.entries).orElse (Json.field "type" node.entries)

/-- What a node states.  A node of an unknown type states nothing. -/
def TypedNode.read (node : TypedNode) : Except RangeError NodeReading :=
  let value := Json.field "$value" node.entries
  let description := Json.field "$description" node.entries
  match node.typeValue.string?.bind NodeType.ofWord? with
  | none => .ok .nothing
  | some .color => .ok (.ofKind .color node.name description value)
  | some .spacing => value.toLength.map (.ofKind .spacing node.name description)
  | some .borderRadius => value.toLength.map (.ofKind .borderRadius node.name description)
  | some .shadow => .ok (.ofKind .shadow node.name description value)
  | some .typography =>
    (compositeValue? value).map fun
      | some style => .ofKind .typography node.name description style
      | none => .nothing
  | some .text => .ok (.leaf ⟨node.name, value, description⟩)
  | some .number => readNumberNode node.name description value

/-! ### Whole exports -/

/-- The tokens of the nodes, and the groups of their leaves on top of `groups`.  The first number
out of range ends the reading and is blamed on its node. -/
def readNodes : List TypedNode → Entries FontGroup →
    Except ExportError (List Draft × Entries FontGroup)
  | [], groups => .ok ([], groups)
  | node :: rest, groups =>
    match node.read with
    | .error cause => .error (.outOfRange node.name cause)
    | .ok .nothing => readNodes rest groups
    | .ok (.token draft) => do
      let (drafts, groups') ← readNodes rest groups
      return (draft :: drafts, groups')
    | .ok (.leaf leaf) =>
      match leaf.addTo groups with
      | .error cause => .error (.outOfRange leaf.name cause)
      | .ok groups' => readNodes rest groups'

/-- The drafts of a W3C export. -/
def w3cDrafts (entries : Entries Json) : Except ExportError (List Draft) := do
  let (drafts, groups) ← readNodes (typedNodes "" entries) []
  return drafts ++ fontDrafts groups

end TokenTheme
