import TokenTheme.Json.Reader

/-!
# The stack

Calls that are nested take room on a stack that has an end.  What runs the program says how much
room there is and how much of it a call takes.

* `Exhausted` — the error of a call for which there is no room, with its wording;
* `Json.nesting` — how many lists and objects lie inside each other in a value;
* `Stack` — the tasks whose calls are nested as deep as a document, with the calls for which there
  is no room;
* `demand` — go on where there is room;
* `Stack.HasRoom`, `Stack.Suffices` — there is room for calls down to a depth, and for every call
  that a document asks for;
* `Stack.unbounded`, `Stack.ofLimit` — a stack without an end, and one of a number of calls.
-/

namespace TokenTheme

/-- The error of a call for which there is no room; `task` says what was to be done. -/
structure Exhausted where
  task : String := ""
deriving DecidableEq, Repr

/-- The wording of the error. -/
def Exhausted.message (e : Exhausted) : String :=
  "maximum recursion depth exceeded" ++ e.task

/-- Go on unless there is an error. -/
def demand : Option Exhausted → Except Exhausted Unit
  | none => .ok ()
  | some e => .error e

/-! ### Depth of a value -/

namespace Json

mutual

/-- How many lists and objects lie inside each other in a value. -/
def nesting : Json → Nat
  | .list items => 1 + itemsNesting items
  | .object entries => 1 + entriesNesting entries
  | _ => 0

/-- The deepest nesting of the items of a list. -/
def itemsNesting : List Json → Nat
  | [] => 0
  | item :: rest => max (nesting item) (itemsNesting rest)

/-- The deepest nesting of the values of an object. -/
def entriesNesting : List (String × Json) → Nat
  | [] => 0
  | (_, value) :: rest => max (nesting value) (entriesNesting rest)

end

end Json

/-! ### Room -/

/-- The tasks whose calls are nested as deep as a document.  A depth has an error when there is no
room for a call as deep as that. -/
structure Stack where
  /-- Decode a text. -/
  decoding : String → Option Exhausted
  /-- Search a value for a typed node. -/
  searching : Nat → Option Exhausted
  /-- Walk to the typed nodes of an object, or read one. -/
  walking : Nat → Option Exhausted
  /-- Show a value in a message. -/
  showing : Nat → Option Exhausted

namespace Stack

/-- There is room for the calls on a decoded document above a depth. -/
structure HasRoom (stack : Stack) (depth : Nat) : Prop where
  searching : ∀ n < depth, stack.searching n = none
  walking : ∀ n < depth, stack.walking n = none
  showing : ∀ n < depth, stack.showing n = none

/-- There is room for every call that a decoded document may ask for. -/
def Suffices (stack : Stack) (data : Json) : Prop :=
  stack.HasRoom data.nesting

/-- A stack without an end. -/
def unbounded : Stack where
  decoding _ := none
  searching _ := none
  walking _ := none
  showing _ := none

theorem unbounded_suffices (data : Json) : unbounded.Suffices data where
  searching _ _ := rfl
  walking _ _ := rfl
  showing _ _ := rfl

end Stack

/-! ### A limit on nested calls -/

namespace Json

mutual

/-- The bracket of a text that lies inside more than `limit` others, of which `depth` are open. -/
def deepBracket? (limit : Nat) (depth : Nat) : List Char → Option Char
  | [] => none
  | '"' :: rest => deepBracketAfterString? limit depth rest
  | c :: rest =>
    if c = '[' || c = '{' then
      if depth < limit then deepBracket? limit (depth + 1) rest else some c
    else if c = ']' || c = '}' then deepBracket? limit (depth - 1) rest
    else deepBracket? limit depth rest

/-- The same from within a string. -/
def deepBracketAfterString? (limit : Nat) (depth : Nat) : List Char → Option Char
  | [] => none
  | '\\' :: _ :: rest => deepBracketAfterString? limit depth rest
  | '"' :: rest => deepBracket? limit depth rest
  | _ :: rest => deepBracketAfterString? limit depth rest

end

/-- The part of a text that is read: all of it, or what stands in front of its first fault. -/
def partRead (s : String) : List Char :=
  match read s with
  | .error (.malformed _ place) => s.toList.take place.offset
  | _ => s.toList

/-- What a call was to do for which a bracket asks. -/
def bracketTask (bracket : Char) : String :=
  " while decoding a JSON " ++ (if bracket = '[' then "array" else "object") ++
    " from a unicode string"

end Json

namespace Stack

/-- Room for calls above a depth only. -/
def above (room : Nat) (task : String) (depth : Nat) : Option Exhausted :=
  if depth < room then none else some ⟨task⟩

/-- A stack of `limit` calls, of which `taken` are taken.  The search takes three of them for one
of its own, the other tasks take one. -/
def ofLimit (limit taken : Nat) : Stack where
  decoding s := (Json.deepBracket? (limit - taken) 0 (Json.partRead s)).map fun bracket =>
    ⟨Json.bracketTask bracket⟩
  searching := above ((limit - taken) / 3) " in comparison"
  walking := above (limit - taken) " in comparison"
  showing := above (limit - taken) " while getting the repr of an object"

end Stack

end TokenTheme
