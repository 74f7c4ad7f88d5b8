/-!
# Words inside a text

Questions about a text as a list of characters that the naming rules of an export ask.

* `Text.occurs` — whether a word occurs somewhere in a text;
* `Text.dropStart?`, `Text.dropEnd?` — what follows a given start, what precedes a given end;
* `Text.splitOn` — the pieces between the occurrences of a separator;
* `Text.atEnd` — the end of a text, where one final line break may still stand;
* `Text.join` — texts with a separator between each two;
* `Text.padZeros` — a numeral of a least width.
-/

namespace TokenTheme.Text

/-- Whether `word` occurs in the text. -/
def occurs (word : List Char) : List Char → Bool
  | [] => word.isEmpty
  | c :: rest => word.isPrefixOf (c :: rest) || occurs word rest

/-- What follows `start`, when the text begins with it. -/
def dropStart? : List Char → List Char → Option (List Char)
  | [], text => some text
  | _ :: _, [] => none
  | c :: start, d :: text => if c = d then dropStart? start text else none

/-- Exactly the texts that begin with `start` are cut. -/
theorem dropStart?_eq_some_iff {start text rest : List Char} :
    dropStart? start text = some rest ↔ text = start ++ rest := by
  induction start generalizing text with
  | nil => simp [dropStart?]
  | cons c start ih =>
    cases text with
    | nil => simp [dropStart?]
    | cons d text =>
      by_cases h : c = d
      · subst h; simp [dropStart?, ih]
      · simp [dropStart?, h, Ne.symm h]

/-- What precedes `ending`, when the text ends with it. -/
def dropEnd? (ending text : List Char) : Option (List Char) :=
  (dropStart? ending.reverse text.reverse).map List.reverse

/-- Exactly the texts that end with `ending` are cut. -/
theorem dropEnd?_eq_some_iff {ending text front : List Char} :
    dropEnd? ending text = some front ↔ text = front ++ ending := by
  unfold dropEnd?
  rw [Option.map_eq_some_iff]
  constructor
  · rintro ⟨r, h, rfl⟩
    have h' := congrArg List.reverse (dropStart?_eq_some_iff.1 h)
    simpa using h'
  · rintro rfl
    exact ⟨front.reverse, dropStart?_eq_some_iff.2 (by simp), by simp⟩

/-- Whether nothing follows, one final line break apart. -/
def atEnd (rest : List Char) : Bool :=
  rest == [] || rest == ['\n']

/-- The text without one final line break. -/
def dropFinalBreak (text : List Char) : List Char :=
  (dropEnd? ['\n'] text).getD text

/-- The pieces between the occurrences of `separator`; there is always a first one. -/
def splitOn (separator : Char) : List Char → List (List Char)
  | [] => [[]]
  | c :: rest =>
    if c = separator then [] :: splitOn separator rest
    else
      match splitOn separator rest with
      | [] => [[c]]
      | piece :: pieces => (c :: piece) :: pieces

/-- The texts with `separator` between each two. -/
def join (separator : String) : List String → String
  | [] => ""
  | [s] => s
  | s :: t :: rest => s ++ separator ++ join separator (t :: rest)

/-- Pad a numeral with zeros on the left to at least `width` characters. -/
def padZeros (width : Nat) (digits : List Char) : List Char :=
  List.replicate (width - digits.length) '0' ++ digits

end TokenTheme.Text
