import TokenTheme.Configuration
import TokenTheme.Proofs.Configuration.Merge
import TokenTheme.Proofs.Fallible

/-!
# Extending a configuration again

A configuration is extended by one collection of entries after another.

* `Configuration.opened` — what an extension finds: the theme, and the entries it holds already;
* `Configuration.closed` — the configuration whose theme holds given entries;
* `Configuration.extend_object` — an extension opens the configuration, merges, and closes it;
* `Configuration.opened_closed` — what was closed is opened again without a fault, so that only the
  first of several extensions can fail;
* `Configuration.extendAll_closed` — the extensions after the first one, by induction;
* `extend_action` — several extensions are one extension by all their entries.
-/

namespace TokenTheme

namespace Configuration

/-! ### One extension -/

/-- What an extension finds: the table of the theme, and the entries that are under `extend`. -/
def opened (configuration : Configuration) : Except ShapeError (Table Json × Entries Json) := do
  let theme ← ((Entries.get? "theme" configuration).getD (.value .null)).toTable
  let before ← optionalEntries ((theme.get? (.string "extend")).getD .null)
  return (theme, before)

/-- The configuration whose theme has the given table, but for the entries under `extend`. -/
def closed (configuration : Configuration) (theme : Table Json) (entries : Entries Json) :
    Configuration :=
  Entries.set "theme" (.theme (theme.set (.string "extend") (.object entries))) configuration

/-- An extension opens the configuration, merges its entries, and closes it.  It fails where the
configuration is not opened, whatever its entries are. -/
theorem extend_object (configuration : Configuration) (added : Entries Json) :
    configuration.extend (.object added) =
      configuration.opened.map fun found => configuration.closed found.1 (found.2.merge added) := by
  unfold extend opened
  cases ((Entries.get? "theme" configuration).getD (.value .null)).toTable with
  | error e => rfl
  | ok theme =>
    show (optionalEntries ((theme.get? (.string "extend")).getD .null) >>= _) =
      Except.map _ (optionalEntries ((theme.get? (.string "extend")).getD .null) >>= _)
    cases optionalEntries ((theme.get? (.string "extend")).getD .null) <;> rfl

theorem optionalEntries_object (entries : Entries Json) :
    optionalEntries (.object entries) = .ok entries := by
  cases entries <;> rfl

/-- What was closed is opened again: its theme is a table, and its entries are an object. -/
theorem opened_closed (configuration : Configuration) (theme : Table Json)
    (entries : Entries Json) :
    (configuration.closed theme entries).opened =
      .ok (theme.set (.string "extend") (.object entries), entries) := by
  have htheme : Entries.get? "theme" (configuration.closed theme entries) =
      some (.theme (theme.set (.string "extend") (.object entries))) := by
    rw [closed, Entries.get?_set, if_pos rfl]
  have hextend : (theme.set (.string "extend") (.object entries)).get? (.string "extend") =
      some (.object entries) := Table.get?_set_self _ _ _
  rw [opened, htheme]
  show (optionalEntries (((theme.set (.string "extend") (.object entries)).get?
    (.string "extend")).getD .null) >>= _) = _
  rw [hextend, Option.getD_some, optionalEntries_object]
  rfl

/-- Of two closings the second one counts. -/
theorem closed_closed (configuration : Configuration) (theme : Table Json)
    (entries entries' : Entries Json) :
    (configuration.closed theme entries).closed
        (theme.set (.string "extend") (.object entries)) entries' =
      configuration.closed theme entries' := by
  rw [closed, closed, Table.set_set, Entries.set_set, closed]

/-! ### Several extensions -/

/-- A configuration that is extended by one collection after another. -/
def extendAll (configuration : Configuration) (extensions : List (Entries Json)) :
    Except ShapeError Configuration :=
  extensions.foldlM (fun configuration added => configuration.extend (.object added)) configuration

/-- A configuration that was extended is extended again by a merge of the entries alone. -/
theorem extend_closed (configuration : Configuration) (theme : Table Json)
    (entries added : Entries Json) :
    (configuration.closed theme entries).extend (.object added) =
      .ok (configuration.closed theme (entries.merge added)) := by
  rw [extend_object, opened_closed]
  exact congrArg Except.ok (closed_closed configuration theme entries (entries.merge added))

/-- The same for any number of extensions: none of them fails. -/
theorem extendAll_closed (configuration : Configuration) (theme : Table Json)
    (entries : Entries Json) (extensions : List (Entries Json)) :
    (configuration.closed theme entries).extendAll extensions =
      .ok (configuration.closed theme (extensions.foldl Entries.merge entries)) := by
  induction extensions generalizing entries with
  | nil => rfl
  | cons added extensions ih =>
    rw [extendAll, List.foldlM_cons, extend_closed]
    exact ih (entries.merge added)

/-- Several extensions, by what the first of them finds. -/
theorem extendAll_cons (configuration : Configuration) (first : Entries Json)
    (rest : List (Entries Json)) :
    configuration.extendAll (first :: rest) =
      configuration.opened.map fun found =>
        configuration.closed found.1 ((first :: rest).foldl Entries.merge found.2) := by
  rw [extendAll, List.foldlM_cons, extend_object]
  cases configuration.opened with
  | error e => rfl
  | ok found => exact extendAll_closed configuration found.1 (found.2.merge first) rest

/-- What is closed keeps every other entry of the configuration, and every other entry of its
theme, with its value and in its place. -/
theorem closed_keeps (configuration : Configuration) (theme : Table Json)
    (entries : Entries Json) :
    SameApart (· == "theme") configuration (configuration.closed theme entries) ∧
      ∃ extended, Entries.get? "theme" (configuration.closed theme entries) =
          some (.theme extended) ∧
        SameApart (·.sameKey (.string "extend")) theme extended ∧
        extended.get? (.string "extend") = some (.object entries) := by
  refine ⟨Entries.sameApart_set _ _ _, theme.set (.string "extend") (.object entries), ?_, ?_, ?_⟩
  · rw [closed, Entries.get?_set, if_pos rfl]
  · exact Table.sameApart_set _ _ _
  · exact Table.get?_set_self _ _ _

/-- **Extending is an action of merging.**  To extend a configuration by one collection after
another, the first of them at least, is to extend it once by all of them merged: later values win,
and first places are kept.  The first extension fails exactly when the single one does, with the
same error, and after it none can fail.  An extension keeps every other entry of the configuration
and every other entry of the theme, with its value and in its place.  The configuration that is given
is a value, and no step changes it. -/
theorem extend_action (configuration : Configuration) (first : Entries Json)
    (rest : List (Entries Json)) :
    let merged := Entries.mergeAll (first :: rest)
    configuration.extendAll (first :: rest) = configuration.extend (.object merged) ∧
    (∀ e, configuration.extend (.object first) = .error e ↔
      configuration.extend (.object merged) = .error e) ∧
    (∀ next, configuration.extend (.object first) = .ok next →
      ∀ later, ∃ last, next.extendAll later = .ok last) ∧
    ∀ result, configuration.extend (.object merged) = .ok result →
      SameApart (· == "theme") configuration result ∧
      ∃ theme before extended, configuration.opened = .ok (theme, before) ∧
        Entries.get? "theme" result = some (.theme extended) ∧
        SameApart (·.sameKey (.string "extend")) theme extended ∧
        extended.get? (.string "extend") = some (.object (before.merge merged)) := by
  intro merged
  refine ⟨?_, ?_, ?_, ?_⟩
  · rw [extendAll_cons, extend_object]
    simp only [merged, Entries.merge_mergeAll]
  · intro e
    rw [extend_object, extend_object]
    cases configuration.opened with
    | error cause => exact Iff.rfl
    | ok found => exact iff_of_false nofun nofun
  · intro next hnext later
    rw [extend_object, map_eq_ok_iff] at hnext
    obtain ⟨⟨theme, before⟩, -, rfl⟩ := hnext
    exact ⟨_, extendAll_closed configuration theme (before.merge first) later⟩
  · intro result hresult
    rw [extend_object, map_eq_ok_iff] at hresult
    obtain ⟨⟨theme, before⟩, hopened, rfl⟩ := hresult
    obtain ⟨hkept, extended, htheme, hrest, hentries⟩ :=
      closed_keeps configuration theme (before.merge merged)
    exact ⟨hkept, theme, before, extended, hopened, htheme, hrest, hentries⟩

/-- A theme that is a list of pairs is a table from the first extension on. -/
example :
    let theme := Json.list [.list [.string "screens", .null],
      .list [.string "extend", .object [("colors", .string "red")]], .list [.string "dark", .null]]
    let configuration := ofEntries [("theme", theme), ("plugins", .list [])]
    configuration.extendAll [[("spacing", .string "1rem")], [("colors", .string "blue")]] =
      .ok [("theme", .theme [(.string "screens", .null),
        (.string "extend", .object [("colors", .string "blue"), ("spacing", .string "1rem")]),
        (.string "dark", .null)]), ("plugins", .value (.list []))] :=
  rfl

end Configuration

end TokenTheme
