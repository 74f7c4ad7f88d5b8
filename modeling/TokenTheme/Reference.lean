import TokenTheme.Token.Basic
import TokenTheme.Warning

/-!
# References

A token may refer to another by a path in braces, such as `{colour.text.primary}`.

* `Reference.path?` — the path of a reference;
* `TokenIndex` — the last token of each name;
* `externalValues` — references into files that an export does not include, with their values;
* `TokenIndex.find?` — the token of a path, whose dots may stand for hyphens;
* `Trail`, `follow` — where a reference leads: the paths looked up on the way, and how the way
  ends;
* `resolve` — the value at the end, with a warning when the end is still a reference.
-/

namespace TokenTheme

/-! ### Paths -/

namespace Reference

/-- The path between the braces of a reference, which hold no line break.  One line break may
follow. -/
def path? (s : String) : Option String :=
  match s.toList with
  | '{' :: rest =>
    match (Text.dropEnd? ['}'] rest).or (Text.dropEnd? ['}', '\n'] rest) with
    | some path =>
      if path.isEmpty || path.contains '\n' then none else some (String.ofList path)
    | none => none
  | _ => none

/-- Whether a string is a reference. -/
def isReference (s : String) : Bool :=
  (path? s).isSome

/-- The flat name of a path: hyphens take the place of dots. -/
def flatName (path : String) : String :=
  String.ofList (path.toList.map fun c => if c = '.' then '-' else c)

/-- References into files that an export does not include, with their values. -/
def externalValues : Entries String :=
  [("\x7bfont.letter-spacing.0\x7d", "0"),
    ("\x7bborder.width.none\x7d", "0"),
    ("\x7bborder.radius.none\x7d", "0"),
    ("\x7bspace.0\x7d", "0"),
    ("\x7bcolor.status.error\x7d", "#e90932")]

end Reference

/-! ### Indexes -/

/-- Tokens by their names. -/
abbrev TokenIndex := Entries Token

namespace TokenIndex

/-- The last token of each name. -/
def ofTokens (tokens : List Token) : TokenIndex :=
  Entries.ofList (tokens.map fun token => (token.name, token))

/-- The token of a path: the one of that very name, else the one of its flat name. -/
def find? (index : TokenIndex) (path : String) : Option Token :=
  (Entries.get? path index).or <|
    if path.toList.contains '.' then Entries.get? (Reference.flatName path) index else none

end TokenIndex

/-! ### Following references -/

/-- How the way of a reference ends. -/
inductive Destination where
  /-- A value that is no reference, or the value of an external reference. -/
  | value (v : TokenValue)
  /-- A reference to a path that was already looked up. -/
  | circular (reference : String)
  /-- A reference to a path that no token has. -/
  | dangling (reference : String)
deriving DecidableEq

/-- The way of a reference: the paths looked up, in order, and how it ends. -/
structure Trail where
  lookups : List String
  destination : Destination

/-- Follow a value through at most `fuel` lookups.  `seen` holds the paths that were looked up
before. -/
def followFrom (index : TokenIndex) : Nat → List String → TokenValue → Trail
  | fuel, seen, value =>
    match value.string? with
    | none => ⟨[], .value value⟩
    | some s =>
      match Reference.path? s with
      | none => ⟨[], .value value⟩
      | some path =>
        match Entries.get? s Reference.externalValues with
        | some external => ⟨[], .value (.string external)⟩
        | none =>
          if seen.contains path then ⟨[], .circular s⟩
          else
            match fuel with
            | 0 => ⟨[], .circular s⟩
            | fuel + 1 =>
              match index.find? path with
              | none => ⟨[path], .dangling s⟩
              | some token =>
                let trail := followFrom index fuel (path :: seen) token.value
                ⟨path :: trail.lookups, trail.destination⟩

/-- The way of a value.  Past the first path every further one is the value of a token, so that
one lookup more than there are tokens always reaches the end. -/
def follow (index : TokenIndex) (value : TokenValue) : Trail :=
  followFrom index (index.length + 1) [] value

namespace Destination

/-- The value that a reference stands for; where there is none, a reference. -/
def toValue : Destination → TokenValue
  | .value v => v
  | .circular reference | .dangling reference => .string reference

/-- The warning that tells why there is none. -/
def warnings : Destination → List Warning
  | .value _ => []
  | .circular reference => [.circular reference]
  | .dangling reference => [.unresolved reference]

end Destination

/-- The value that a value stands for, once its references are followed. -/
def resolve (index : TokenIndex) (value : TokenValue) : Warned TokenValue :=
  let destination := (follow index value).destination
  ⟨destination.toValue, destination.warnings⟩

end TokenTheme
