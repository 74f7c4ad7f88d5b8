import TokenTheme.Export.Draft

/-!
# Trees of typed nodes

A W3C export is a tree of objects.  A typed node is an object that holds `$value` together with
`$type` or `type`; it is named by the keys that lead to it, joined by hyphens.

* `isTypedNode` — whether the entries of an object make it a typed node;
* `holdsTypedNode`, `ExportFormat.ofEntries` — whether a value holds a typed node at any depth,
  and the shape of an export that follows from it;
* `TypedNode`, `typedNodes` — the typed nodes that are read, in document order: the search skips
  every key `version` and looks neither into a typed node nor past another `$value`.
-/

namespace TokenTheme

/-- Whether the entries of an object make it a typed node. -/
def isTypedNode (entries : Entries Json) : Bool :=
  entries.has "$value" && (entries.has "$type" || entries.has "type")

/-! ### The shape of an export -/

mutual

/-- Whether the value is a typed node or holds one in its objects. -/
def holdsTypedNode : Json → Bool
  | .object entries => isTypedNode entries || anyHoldsTypedNode entries
  | _ => false

/-- Whether one of the entries holds a typed node. -/
def anyHoldsTypedNode : List (String × Json) → Bool
  | [] => false
  | (_, value) :: rest => holdsTypedNode value || anyHoldsTypedNode rest

end

/-- The shape of an export: W3C as soon as an entry other than `version` holds a typed node. -/
def ExportFormat.ofEntries (entries : Entries Json) : ExportFormat :=
  if entries.any fun entry => entry.1 != "version" && holdsTypedNode entry.2 then .w3c else .legacy

/-! ### The nodes that are read -/

/-- A typed node with its name. -/
structure TypedNode where
  name : String
  entries : Entries Json

/-- The name of an entry under the name of its parent; the root has the empty name. -/
def childName (parent key : String) : String :=
  if parent.isEmpty then key else parent ++ "-" ++ key

mutual

/-- The typed nodes of a value that stands under a name. -/
def typedNodesOf (name : String) : Json → List TypedNode
  | .object entries =>
    if isTypedNode entries then [⟨name, entries⟩]
    else if Entries.has "$value" entries then []
    else typedNodes name entries
  | _ => []

/-- The typed nodes below the entries of an object. -/
def typedNodes (parent : String) : List (String × Json) → List TypedNode
  | [] => []
  | (key, value) :: rest =>
    (if key = "version" then [] else typedNodesOf (childName parent key) value) ++
      typedNodes parent rest

end

end TokenTheme
