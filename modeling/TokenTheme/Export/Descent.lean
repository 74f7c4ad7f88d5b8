import TokenTheme.Export.Validated
import TokenTheme.Stack

/-!
# Descending into an export

An export is searched, and walked, by calls that are nested as deep as the export.  Validation
ends early where there is no room for one of them.

* `searchValue`, `ExportFormat.within` — the search for a typed node, and the shape of an export
  that follows from it;
* `NodeWalk`, `walkEntries` — the typed nodes that are found, in document order, up to the first call
  for which there is no room;
* `Halt` — what ends validation: the export is refused, or the stack is exhausted;
* `Draft.checkWithin`, `w3cDraftsWithin`, `draftsWithin` — the parts of validation;
* `Validated.within` — validation of a decoded export on a stack.
-/

namespace TokenTheme

/-! ### The shape of an export -/

mutual

/-- Whether the value is a typed node or holds one in its objects, by a call at a depth. -/
def searchValue (stack : Stack) (depth : Nat) : Json → Except Exhausted Bool
  | .object entries => do
    demand (stack.searching depth)
    if isTypedNode entries then return true else searchEntries stack (depth + 1) entries
  | _ => do
    demand (stack.searching depth)
    return false

/-- Whether one of the entries holds a typed node.  The search ends with the first one. -/
def searchEntries (stack : Stack) (depth : Nat) : List (String × Json) → Except Exhausted Bool
  | [] => .ok false
  | (_, value) :: rest => do
    if ← searchValue stack depth value then return true else searchEntries stack depth rest

end

/-- The shape of an export: W3C as soon as an entry other than `version` holds a typed node. -/
def ExportFormat.within (stack : Stack) : List (String × Json) → Except Exhausted ExportFormat
  | [] => .ok .legacy
  | (key, value) :: rest =>
    if key = "version" then within stack rest
    else do
      if ← searchValue stack 0 value then return .w3c else within stack rest

/-! ### The nodes that are read -/

/-- The typed nodes that are found, and the error that ends the walk early. -/
structure NodeWalk where
  nodes : List TypedNode
  ending : Option Exhausted := none

/-- Walk on after a walk that has come to its end. -/
def NodeWalk.append (first rest : NodeWalk) : NodeWalk :=
  match first.ending with
  | none => ⟨first.nodes ++ rest.nodes, rest.ending⟩
  | some e => ⟨first.nodes, some e⟩

/-- The error of reading a node by a call at a depth.  A type that is no word is shown. -/
def Stack.reading (stack : Stack) (depth : Nat) (node : TypedNode) : Option Exhausted :=
  (stack.walking depth).or <|
    if node.typeValue.string?.isSome then none
    else stack.showing (depth + node.typeValue.nesting)

mutual

/-- The typed nodes of a value that stands under a name, by a call at a depth. -/
def walkValue (stack : Stack) (depth : Nat) (name : String) : Json → NodeWalk
  | .object entries =>
    if isTypedNode entries then
      match stack.reading depth ⟨name, entries⟩ with
      | none => ⟨[⟨name, entries⟩], none⟩
      | some e => ⟨[], some e⟩
    else if Entries.has "$value" entries then ⟨[], none⟩
    else
      match stack.walking depth with
      | none => walkEntries stack (depth + 1) name entries
      | some e => ⟨[], some e⟩
  | _ => ⟨[], none⟩

/-- The typed nodes below the entries of an object, by calls at a depth. -/
def walkEntries (stack : Stack) (depth : Nat) (parent : String) : List (String × Json) → NodeWalk
  | [] => ⟨[], none⟩
  | (key, value) :: rest =>
    .append (if key = "version" then ⟨[], none⟩
        else walkValue stack depth (childName parent key) value)
      (walkEntries stack depth parent rest)

end

/-! ### Validation -/

/-- What ends validation. -/
inductive Halt where
  | refused (e : ExportError)
  | exhausted (e : Exhausted)

/-- The drafts of a W3C export.  A node is read before the walk goes on. -/
def w3cDraftsWithin (stack : Stack) (entries : Entries Json) : Except Halt (List Draft) := do
  let walk := walkEntries stack 0 "" entries
  let (drafts, groups) ← (readNodes walk.nodes []).mapError .refused
  (demand walk.ending).mapError .exhausted
  return drafts ++ fontDrafts groups

/-- The drafts of an export of a shape. -/
def draftsWithin (stack : Stack) (entries : Entries Json) :
    ExportFormat → Except Halt (List Draft)
  | .w3c => w3cDraftsWithin stack entries
  | .legacy => (legacyDrafts entries).mapError .refused

/-- The token of a draft.  An unknown kind is shown. -/
def Draft.checkWithin (stack : Stack) (draft : Draft) : Except Halt Token :=
  match draft.check with
  | .error (.unknownKind name kind) => do
    (demand (stack.showing kind.nesting)).mapError .exhausted
    .error (.refused (.unknownKind name kind))
  | result => result.mapError .refused

/-- Validate a decoded export on a stack. -/
def Validated.within (stack : Stack) : Json → Except Halt Validated
  | .object entries => do
    let format ← (ExportFormat.within stack entries).mapError .exhausted
    let found ← draftsWithin stack entries format
    if found.isEmpty then .error (.refused .noTokens)
    else
      let tokens ← found.mapM (Draft.checkWithin stack)
      return { format, tokens }
  | _ => .error (.refused .notAnObject)

end TokenTheme
