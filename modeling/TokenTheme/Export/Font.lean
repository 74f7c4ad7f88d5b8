import TokenTheme.Export.Draft
import TokenTheme.Token.Length

/-!
# Fonts spread over leaves

A W3C export may state a text style by single leaves, such as `font-body-family` and
`font-body-size`.  The leaves of one base, here `font-body`, are gathered into one typography
token.

* `FontProperty` — the properties that a leaf may state;
* `fontLeaf?` — the base and the property that a leaf's name states;
* `FontLeaf`, `FontGroup` — a leaf, and what the leaves of a base have stated so far;
* `FontGroup.state` — the group after one more leaf: the last leaf of a property wins;
* `FontLeaf.addTo` — the groups after one more leaf, in the order of their first leaves;
* `FontGroup.draft?` — the token of a group that has a family and a size.
-/

namespace TokenTheme

/-! ### Names of leaves -/

/-- The properties of a text style. -/
inductive FontProperty where
  | family
  | size
  | weight
  | lineHeight
  | letterSpacing
deriving DecidableEq, Repr

namespace FontProperty

/-- The end of the name of a leaf. -/
def word : FontProperty → String
  | .family => "family"
  | .size => "size"
  | .weight => "weight"
  | .lineHeight => "line-height"
  | .letterSpacing => "letter-spacing"

/-- All properties. -/
def all : List FontProperty :=
  [.family, .size, .weight, .lineHeight, .letterSpacing]

end FontProperty

/-- Whether the text is a base: `font-` and at least one more character, none a line break. -/
def isFontBase (base : List Char) : Bool :=
  match Text.dropStart? "font-".toList base with
  | some rest => !rest.isEmpty && !rest.contains '\n'
  | none => false

/-- The base and the property of a leaf's name.  One line break behind the name is ignored. -/
def fontLeaf? (name : String) : Option (String × FontProperty) :=
  let text := Text.dropFinalBreak name.toList
  FontProperty.all.findSome? fun property =>
    match Text.dropEnd? ('-' :: property.word.toList) text with
    | some base => if isFontBase base then some (String.ofList base, property) else none
    | none => none

/-! ### Groups -/

/-- A node that states one property of a text style. -/
structure FontLeaf where
  name : String
  value : Json
  description : Json

/-- What the leaves of a base have stated.  Null stands for what is not stated. -/
structure FontGroup where
  description : Json
  family : Json := .null
  size : Option Finite := none
  weight : Json := .null
  lineHeight : Option Finite := none
  letterSpacing : Json := .null

/-- The letter spacing that a value states: a number counts in em. -/
def letterSpacingOf : Json → Except RangeError Json
  | .number n => n.plain.map fun s => .string (s ++ "em")
  | value => .ok value

namespace FontGroup

/-- The group after a leaf has stated a property. -/
def state (group : FontGroup) (value : Json) : FontProperty → Except RangeError FontGroup
  | .family => .ok { group with family := value }
  | .size => value.leadingNumber.map fun size => { group with size := size }
  | .weight => .ok { group with weight := value }
  | .lineHeight => value.leadingNumber.map fun height => { group with lineHeight := height }
  | .letterSpacing => (letterSpacingOf value).map fun s => { group with letterSpacing := s }

/-- The line height in relation to the size, with three places; `1.5` where it is not stated or
the size is zero. -/
def relativeLineHeight (size : Finite) : Option Finite → String
  | some height =>
    if size.isZero then "1.5" else (Binary64.div (.finite height) (.finite size)).fixed 3
  | none => "1.5"

/-- The composite value of a group. -/
def value (group : FontGroup) (size : Finite) : Json :=
  .object <|
    [("fontFamily", group.family),
      ("fontSize", .string size.rem),
      ("fontWeight", if group.weight.isNull then .int 400 else group.weight),
      ("lineHeight", .string (relativeLineHeight size group.lineHeight))] ++
      if group.letterSpacing.isNull then [] else [("letterSpacing", group.letterSpacing)]

/-- The token of a group, once it has a family and a size. -/
def draft? (base : String) (group : FontGroup) : Option Draft :=
  match group.size with
  | some size =>
    if group.family.isNull then none
    else some ⟨base, .string TokenKind.typography.name, group.value size, group.description⟩
  | none => none

end FontGroup

/-- The groups after one more leaf.  A leaf whose name states no property is dropped. -/
def FontLeaf.addTo (groups : Entries FontGroup) (leaf : FontLeaf) :
    Except RangeError (Entries FontGroup) :=
  match fontLeaf? leaf.name with
  | none => .ok groups
  | some (base, property) =>
    let group := (groups.get? base).getD { description := leaf.description }
    (group.state leaf.value property).map fun group' => groups.set base group'

/-- The tokens of the groups that are complete. -/
def fontDrafts (groups : Entries FontGroup) : List Draft :=
  groups.filterMap fun (base, group) => group.draft? base

end TokenTheme
