import Mathlib.Data.List.Forall2
import TokenTheme.Proofs.Entries
import TokenTheme.Proofs.Rules.Library
import TokenTheme.Rules.File

/-!
# Rules by their contents

What a rules file states depends on the values of its known keys, not on where they stand.  It is so
for any libraries of which the usual things are known.

* `Takes`, `Rules.StatedBy` — what the entries of a file give for each field;
* `RuleLibraries.Lawful.required`, `RuleLibraries.Lawful.defaulted` — a field with and without a
  usual value;
* `Rules.given_iff`, `Rules.ofValue_eq_ok_iff` — the rules of a file are those that it states, when
  all its keys are known;
* `Rules.SameEntry`, `Rules.Rearranged` — another order of the keys, at the top or in a section, and
  other unknown keys in a section;
* `Rules.SameFields`, `Rules.Rearranged.sameFields` — what rearranged entries have in common;
* `Rules.StatedBy.congr` — they state the same rules;
* `Rules.get?_ne_null`, `Rules.section_get?_ne_null` — where null may not stand;
* `Rules.ofValue_contents` — all of it, for whatever a rules file decodes to.
-/

namespace TokenTheme

variable {Other : Type}

/-! ### What a file states -/

/-- The field takes the value that its key has, and the usual one when the key is not there. -/
def Takes {α : Type} (write : α → RuleValue Other) (usual : α) (key : String)
    (entries : RuleEntries Other) (a : α) : Prop :=
  entries.get? key = some (write a) ∨ entries.get? key = none ∧ a = usual

/-- The name of a file as a value: null for none. -/
def fileNameValue : Option String → RuleValue Other
  | none => .null
  | some name => .string name

/-- The entries state these rules about the export. -/
structure SourceRules.StatedBy (rules : SourceRules) (entries : RuleEntries Other) : Prop where
  tokensPath : entries.get? "tokens_path" = some (.string rules.tokensPath)

/-- The entries state these rules about the generated files. -/
structure OutputRules.StatedBy (rules : OutputRules) (entries : RuleEntries Other) : Prop where
  directory : entries.get? "dir" = some (.string rules.directory)
  themeModule : Takes fileNameValue (some "tokens.ts") "theme_module" entries rules.themeModule
  themeJson : Takes fileNameValue (some "tokens.json") "theme_json" entries rules.themeJson
  stylesheet : Takes fileNameValue (some "variables.css") "css_file" entries rules.stylesheet

/-- The entries state these rules about the style sheet. -/
structure StyleRules.StatedBy (rules : StyleRules) (entries : RuleEntries Other) : Prop where
  radius : Takes .string "0.5rem" "radius_fallback" entries rules.radius
  font : Takes .string "\"Albert Sans\", sans-serif" "font_fallback" entries rules.font

/-- The entries state these rules.  The version is what the library takes for an integer.  The
section about the style sheet may be left out, and then states what an empty one does. -/
structure Rules.StatedBy (rules : Rules) (libraries : RuleLibraries Other)
    (entries : RuleEntries Other) : Prop where
  version : ∃ value, entries.get? "schema_version" = some value ∧
    libraries.check .integer value = .ok rules.version
  version_eq : rules.version = 1
  project : entries.get? "project_slug" = some (.string rules.project)
  project_ne : rules.project ≠ ""
  source : ∃ own, entries.get? "source" = some (.mapping own) ∧ rules.source.StatedBy own
  output : ∃ own, entries.get? "output" = some (.mapping own) ∧ rules.output.StatedBy own
  style : ∃ own, (entries.get? "css").getD (.mapping []) = .mapping own ∧ rules.style.StatedBy own

/-! ### Single fields -/

namespace RuleLibraries.Lawful

variable {libraries : RuleLibraries Other} (hlaw : libraries.Lawful) {value : RuleValue Other}
  {entries : RuleEntries Other} {α : Type} {schema : Schema α} {key : String} {a : α}

/-- A field without a usual value must be there. -/
theorem required :
    ((∃ value, entries.get? key = some value ∧ libraries.check schema value = .ok a) ∨
      entries.get? key = none ∧ none = some a) ↔
    ∃ value, entries.get? key = some value ∧ libraries.check schema value = .ok a := by
  simp

/-- A field with a usual value takes it where it is not there. -/
theorem defaulted {write : α → RuleValue Other}
    (hwrite : ∀ value a, libraries.check schema value = .ok a ↔ value = write a) {usual : α} :
    ((∃ value, entries.get? key = some value ∧ libraries.check schema value = .ok a) ∨
      entries.get? key = none ∧ some usual = some a) ↔ Takes write usual key entries a := by
  simp only [Takes, hwrite, exists_eq_right, Option.some.injEq, eq_comm (a := usual)]

include hlaw

theorem anyString_eq_ok_iff (value : RuleValue Other) (s : String) :
    libraries.check anyString value = .ok s ↔ value = .string s := by
  rw [anyString, hlaw.string]
  simp

theorem fileName_eq_ok_iff (value : RuleValue Other) (name : Option String) :
    libraries.check fileName value = .ok name ↔ value = fileNameValue name := by
  rw [fileName]
  by_cases hnull : value = .null
  · subst hnull
    rw [hlaw.nullable_null]
    cases name <;> simp [fileNameValue]
  · rw [hlaw.nullable hnull]
    simp only [hlaw.anyString_eq_ok_iff]
    cases name <;> simp [fileNameValue, hnull]

/-- A field that must be a string has that string as its value. -/
theorem required_string {s : String} :
    ((∃ value, entries.get? key = some value ∧ libraries.check anyString value = .ok s) ∨
      entries.get? key = none ∧ none = some s) ↔ entries.get? key = some (.string s) := by
  rw [required]
  simp [hlaw.anyString_eq_ok_iff]

/-! ### Sections -/

/-- Other keys do not count in a record that is not closed. -/
theorem open_eq_ok_iff {β : Type} {name : String} {fields : Fields α} {make : α → β} {b : β} :
    libraries.check (.record name false fields make) value = .ok b ↔
      ∃ own a, value = .mapping own ∧ fields.Given libraries own a ∧ b = make a := by
  rw [hlaw.record]
  simp only [Bool.false_eq_true, false_imp_iff, true_and]

theorem source_eq_ok_iff {rules : SourceRules} :
    libraries.check SourceRules.schema value = .ok rules ↔
      ∃ own, value = .mapping own ∧ rules.StatedBy own := by
  rw [SourceRules.schema, hlaw.open_eq_ok_iff]
  refine exists_congr fun own => ?_
  simp only [SourceRules.fields, Prod.exists, Fields.Given, hlaw.required_string]
  constructor
  · rintro ⟨path, _, rfl, ⟨hpath, -⟩, rfl⟩
    exact ⟨rfl, ⟨hpath⟩⟩
  · rintro ⟨rfl, hstated⟩
    exact ⟨_, (), rfl, ⟨hstated.tokensPath, trivial⟩, rfl⟩

theorem output_eq_ok_iff {rules : OutputRules} :
    libraries.check OutputRules.schema value = .ok rules ↔
      ∃ own, value = .mapping own ∧ rules.StatedBy own := by
  rw [OutputRules.schema, hlaw.open_eq_ok_iff]
  refine exists_congr fun own => ?_
  simp only [OutputRules.fields, Prod.exists, Fields.Given, hlaw.required_string,
    defaulted hlaw.fileName_eq_ok_iff]
  constructor
  · rintro ⟨directory, themeModule, themeJson, stylesheet, _, rfl, hfields, rfl⟩
    obtain ⟨hdirectory, hmodule, hjson, hsheet, -⟩ := hfields
    exact ⟨rfl, ⟨hdirectory, hmodule, hjson, hsheet⟩⟩
  · rintro ⟨rfl, h⟩
    exact ⟨_, _, _, _, (), rfl,
      ⟨h.directory, h.themeModule, h.themeJson, h.stylesheet, trivial⟩, rfl⟩

theorem style_eq_ok_iff {rules : StyleRules} :
    libraries.check StyleRules.schema value = .ok rules ↔
      ∃ own, value = .mapping own ∧ rules.StatedBy own := by
  rw [StyleRules.schema, hlaw.open_eq_ok_iff]
  refine exists_congr fun own => ?_
  simp only [StyleRules.fields, Prod.exists, Fields.Given, defaulted hlaw.anyString_eq_ok_iff]
  constructor
  · rintro ⟨radius, font, _, rfl, ⟨hradius, hfont, -⟩, rfl⟩
    exact ⟨rfl, ⟨hradius, hfont⟩⟩
  · rintro ⟨rfl, h⟩
    exact ⟨_, _, (), rfl, ⟨h.radius, h.font, trivial⟩, rfl⟩

/-- A section that is left out states what an empty one does. -/
theorem style_defaulted {rules : StyleRules} :
    ((∃ value, entries.get? key = some value ∧
        libraries.check StyleRules.schema value = .ok rules) ∨
      entries.get? key = none ∧ some {} = some rules) ↔
      ∃ own, (entries.get? key).getD (.mapping []) = .mapping own ∧ rules.StatedBy own := by
  cases entries.get? key with
  | some value => simp [hlaw.style_eq_ok_iff]
  | none =>
    simp only [Option.getD_none, RuleValue.mapping.injEq, exists_eq_left', Option.some.injEq,
      reduceCtorEq, false_and, exists_false, false_or, true_and]
    constructor
    · rintro rfl
      exact ⟨.inr ⟨rfl, rfl⟩, .inr ⟨rfl, rfl⟩⟩
    · rintro ⟨hradius | ⟨-, hradius⟩, hfont | ⟨-, hfont⟩⟩
      · cases hradius
      · cases hradius
      · cases hfont
      · cases rules
        cases hradius
        cases hfont
        rfl

/-! ### Files -/

theorem version_eq_ok_iff {version : Int} :
    libraries.check (.refined .integer Rules.versionFault) value = .ok version ↔
      libraries.check .integer value = .ok version ∧ version = 1 := by
  rw [hlaw.refined]
  refine and_congr_right fun _ => ?_
  rw [Rules.versionFault, schemaVersion]
  split <;> simp [*]

theorem project_eq_ok_iff {project : String} :
    libraries.check (.string 1) value = .ok project ↔ value = .string project ∧ project ≠ "" := by
  rw [hlaw.string]
  refine and_congr_right fun _ => ?_
  rw [Nat.one_le_iff_ne_zero, Ne, String.length_eq_zero_iff]

end RuleLibraries.Lawful

namespace Rules

variable {libraries : RuleLibraries Other} {entries others : RuleEntries Other}

/-- The keys of a rules file. -/
def knownKeys : List String :=
  ["schema_version", "project_slug", "source", "output", "css"]

/-- The entries of a file give its fields when they state its rules. -/
theorem given_iff (hlaw : libraries.Lawful) {rules : Rules} :
    fields.Given libraries entries
        (rules.version, rules.project, rules.source, rules.output, rules.style, ()) ↔
      rules.StatedBy libraries entries := by
  simp only [fields, Fields.Given, hlaw.version_eq_ok_iff, hlaw.project_eq_ok_iff,
    hlaw.source_eq_ok_iff, hlaw.output_eq_ok_iff, hlaw.style_defaulted, reduceCtorEq, and_false,
    or_false]
  constructor
  · rintro ⟨⟨stated, hversion, hinteger, heq⟩, ⟨value, hproject, rfl, hne⟩, hrest⟩
    obtain ⟨⟨_, hsource, own, rfl, hown⟩, ⟨_, houtput, own', rfl, hown'⟩, hstyle, -⟩ := hrest
    exact ⟨⟨stated, hversion, hinteger⟩, heq, hproject, hne, ⟨own, hsource, hown⟩,
      ⟨own', houtput, hown'⟩, hstyle⟩
  · intro h
    obtain ⟨stated, hversion, hinteger⟩ := h.version
    obtain ⟨own, hsource, hown⟩ := h.source
    obtain ⟨own', houtput, hown'⟩ := h.output
    exact ⟨⟨stated, hversion, hinteger, h.version_eq⟩, ⟨_, h.project, rfl, h.project_ne⟩,
      ⟨_, hsource, own, rfl, hown⟩, ⟨_, houtput, own', rfl, hown'⟩, h.style, trivial⟩

/-- The rules of a file are those that its entries state, when all its keys are known. -/
theorem ofValue_eq_ok_iff (hlaw : libraries.Lawful) {rules : Rules} :
    ofValue libraries (.mapping entries) = .ok rules ↔
      rules.StatedBy libraries entries ∧ ∀ entry ∈ entries, ∃ key ∈ knownKeys, entry.1 = .name key := by
  rw [ofValue, schema, hlaw.record]
  constructor
  · rintro ⟨_, ⟨version, project, source, output, style, ⟨⟩⟩, heq, hfields, hkeys, rfl⟩
    cases heq
    exact ⟨(given_iff hlaw).1 hfields, hkeys rfl⟩
  · rintro ⟨h, hkeys⟩
    exact ⟨entries, _, rfl, (given_iff hlaw).2 h, fun _ => hkeys, rfl⟩

/-! ### Rearrangement -/

/-- The keys of each section. -/
def sectionKeys : List (String × List String) :=
  [("source", ["tokens_path"]),
   ("output", ["dir", "theme_module", "theme_json", "css_file"]),
   ("css", ["radius_fallback", "font_fallback"])]

/-- The keys that null may stand at. -/
def fileNameKeys : List String :=
  ["theme_module", "theme_json", "css_file"]

/-- The entries whose keys are among some names. -/
def among (names : List String) (entries : RuleEntries Other) : Entries (RuleValue Other) :=
  entries.named.filter fun entry => names.contains entry.1

/-- The same entry, where a section may have its keys in another order and may have other unknown
keys. -/
inductive SameEntry : RuleKey Other × RuleValue Other → RuleKey Other × RuleValue Other → Prop where
  | same (entry : RuleKey Other × RuleValue Other) : SameEntry entry entry
  | rearranged {name : String} {names : List String} {own own' : RuleEntries Other}
    (hname : (name, names) ∈ sectionKeys) (hperm : (among names own).Perm (among names own')) :
    SameEntry (.name name, .mapping own) (.name name, .mapping own')

/-- The same entries in another order. -/
def Rearranged (entries others : RuleEntries Other) : Prop :=
  ∃ middle, entries.Perm middle ∧ List.Forall₂ SameEntry middle others

theorem SameEntry.key_eq {entry other : RuleKey Other × RuleValue Other}
    (h : SameEntry entry other) : entry.1 = other.1 := by
  cases h <;> rfl

/-- Rearranged entries have the same keys in another order. -/
theorem Rearranged.keys_perm (h : Rearranged entries others) :
    (entries.map Prod.fst).Perm (others.map Prod.fst) := by
  obtain ⟨middle, hperm, hsame⟩ := h
  have hkeys : middle.map Prod.fst = others.map Prod.fst := by
    clear hperm
    induction hsame with
    | nil => rfl
    | cons hentry _ ih => rw [List.map_cons, List.map_cons, hentry.key_eq, ih]
  rw [← hkeys]
  exact hperm.map _

/-- The value of a name does not depend on the entries of other names. -/
theorem get?_among {names : List String} {key : String} (hkey : key ∈ names) :
    Entries.get? key (among names entries) = entries.get? key := by
  rw [among, RuleEntries.get?]
  induction entries.named with
  | nil => rfl
  | cons entry rest ih =>
    obtain ⟨k, v⟩ := entry
    by_cases hk : k = key
    · have hnamed : names.contains k = true := by simpa [hk] using hkey
      rw [List.filter_cons_of_pos (by exact hnamed), Entries.get?, Entries.get?, if_pos hk, if_pos hk]
    · rw [Entries.get?, if_neg hk, ← ih]
      cases hin : names.contains k with
      | false => rw [List.filter_cons_of_neg (by simp only [hin]; decide)]
      | true => rw [List.filter_cons_of_pos (by exact hin), Entries.get?, if_neg hk]

/-- Sections that have the same known entries agree on their known keys. -/
theorem get?_eq_of_among_perm {names : List String} {own own' : RuleEntries Other}
    (h : (Entries.keys own.named).Nodup) (hperm : (among names own).Perm (among names own'))
    {key : String} (hkey : key ∈ names) : own.get? key = own'.get? key := by
  have hamong : (Entries.keys (among names own)).Nodup := h.sublist (List.filter_sublist.map _)
  calc own.get? key = Entries.get? key (among names own) := (get?_among hkey).symm
    _ = Entries.get? key (among names own') := Entries.get?_perm hamong hperm
    _ = own'.get? key := get?_among hkey

theorem named_eq_filterMap (entries : RuleEntries Other) :
    entries.named = entries.filterMap fun entry =>
      match entry.1 with
      | .name key => some (key, entry.2)
      | .other _ => none := by
  induction entries with
  | nil => rfl
  | cons entry rest ih =>
    obtain ⟨k, v⟩ := entry
    cases k <;> simp [RuleEntries.named, ih]

/-- The values of a mapping have each name once when those of the mapping do. -/
theorem namesOnce_of_mem {entry : RuleKey Other × RuleValue Other}
    (h : RuleValue.EntriesNamesOnce entries) (hm : entry ∈ entries) : entry.2.NamesOnce := by
  induction entries with
  | nil => exact absurd hm List.not_mem_nil
  | cons first rest ih =>
    rcases List.mem_cons.1 hm with rfl | hm
    · exact h.1
    · exact ih h.2 hm

/-- Entries that have the same value at every key, or there a section each, which agree on the keys
of that section. -/
def SameFields (entries others : RuleEntries Other) : Prop :=
  ∀ key, entries.get? key = others.get? key ∨
    ∃ (names : List String) (own own' : RuleEntries Other), (key, names) ∈ sectionKeys ∧
      entries.get? key = some (.mapping own) ∧ others.get? key = some (.mapping own') ∧
      ∀ field ∈ names, own.get? field = own'.get? field

theorem SameFields.symm (h : SameFields entries others) : SameFields others entries := by
  intro key
  rcases h key with hget | ⟨names, own, own', hnames, hget, hget', hown⟩
  · exact .inl hget.symm
  · exact .inr ⟨names, own', own, hnames, hget', hget, fun field hfield => (hown field hfield).symm⟩

/-- Rearranged entries have the same fields. -/
theorem Rearranged.sameFields (h : (RuleValue.mapping entries).NamesOnce)
    (hr : Rearranged entries others) : SameFields entries others := by
  obtain ⟨hkeys, hvalues⟩ := h
  obtain ⟨middle, hperm, hsame⟩ := hr
  have hnamed : entries.named.Perm (RuleEntries.named middle) := by
    rw [named_eq_filterMap, named_eq_filterMap]
    exact hperm.filterMap _
  have hmiddle : ∀ entry ∈ middle, entry.2.NamesOnce :=
    fun entry hm => namesOnce_of_mem hvalues (hperm.mem_iff.2 hm)
  intro key
  rw [RuleEntries.get?, Entries.get?_perm hkeys hnamed]
  clear hperm hkeys hvalues hnamed
  -- the order is settled, and what is left is the same entry by entry
  induction hsame with
  | nil => exact .inl rfl
  | @cons entry other rest more hentry _ ih =>
    obtain ⟨k, v⟩ := entry
    obtain ⟨k', v'⟩ := other
    have hk : k = k' := hentry.key_eq
    subst hk
    have hrest := ih fun later hm => hmiddle later (List.mem_cons_of_mem _ hm)
    cases k with
    | other x => exact hrest
    | name name =>
      rw [RuleEntries.named, RuleEntries.get?, RuleEntries.named, Entries.get?, Entries.get?]
      split
      · rename_i hname
        subst hname
        cases hentry with
        | same => exact .inl rfl
        | @rearranged _ names own own' hname hown =>
          have hdistinct := hmiddle _ List.mem_cons_self
          refine .inr ⟨names, own, own', hname, rfl, rfl, ?_⟩
          exact fun field hfield => get?_eq_of_among_perm hdistinct.1 hown hfield
      · exact hrest

/-! ### Rules of rearranged files -/

/-- A field that is no section has the same value. -/
theorem SameFields.get?_eq (h : SameFields entries others) {key : String}
    (hkey : ∀ names, (key, names) ∉ sectionKeys) : entries.get? key = others.get? key := by
  rcases h key with hget | ⟨names, _, _, hnames, _⟩
  · exact hget
  · exact absurd hnames (hkey names)

/-- What holds of a section that is there holds of the other one too. -/
theorem SameFields.section (h : SameFields entries others) {key : String} {names : List String}
    (hkey : ∀ names', (key, names') ∈ sectionKeys → names' = names)
    {P : RuleEntries Other → Prop}
    (hP : ∀ own own' : RuleEntries Other,
      (∀ field ∈ names, own.get? field = own'.get? field) → P own → P own') :
    ((∃ own, entries.get? key = some (.mapping own) ∧ P own) →
        ∃ own, others.get? key = some (.mapping own) ∧ P own) ∧
      ((∃ own, (entries.get? key).getD (.mapping []) = .mapping own ∧ P own) →
        ∃ own, (others.get? key).getD (.mapping []) = .mapping own ∧ P own) := by
  rcases h key with hget | ⟨names', own, own', hnames, hget, hget', hown⟩
  · rw [hget]
    exact ⟨id, id⟩
  · rw [hkey names' hnames] at hown
    rw [hget, hget']
    constructor
    · rintro ⟨_, heq, hold⟩
      cases heq
      exact ⟨own', rfl, hP own own' hown hold⟩
    · rintro ⟨_, heq, hold⟩
      cases heq
      exact ⟨own', rfl, hP own own' hown hold⟩

theorem takes_congr {α : Type} {write : α → RuleValue Other} {usual a : α} {key : String}
    (h : entries.get? key = others.get? key) (htakes : Takes write usual key entries a) :
    Takes write usual key others a := by
  rwa [Takes, h] at htakes

theorem source_congr {rules : SourceRules} {own own' : RuleEntries Other}
    (h : ∀ key ∈ ["tokens_path"], own.get? key = own'.get? key) (hstated : rules.StatedBy own) :
    rules.StatedBy own' :=
  ⟨(h _ List.mem_cons_self).symm.trans hstated.tokensPath⟩

theorem output_congr {rules : OutputRules} {own own' : RuleEntries Other}
    (h : ∀ key ∈ ["dir", "theme_module", "theme_json", "css_file"], own.get? key = own'.get? key)
    (hstated : rules.StatedBy own) : rules.StatedBy own' := by
  simp only [List.forall_mem_cons] at h
  obtain ⟨hdirectory, hmodule, hjson, hsheet, -⟩ := h
  exact ⟨hdirectory.symm.trans hstated.directory, takes_congr hmodule hstated.themeModule,
    takes_congr hjson hstated.themeJson, takes_congr hsheet hstated.stylesheet⟩

theorem style_congr {rules : StyleRules} {own own' : RuleEntries Other}
    (h : ∀ key ∈ ["radius_fallback", "font_fallback"], own.get? key = own'.get? key)
    (hstated : rules.StatedBy own) : rules.StatedBy own' := by
  simp only [List.forall_mem_cons] at h
  obtain ⟨hradius, hfont, -⟩ := h
  exact ⟨takes_congr hradius hstated.radius, takes_congr hfont hstated.font⟩

/-- Entries with the same fields state the same rules. -/
theorem StatedBy.congr {rules : Rules} (h : SameFields entries others)
    (hstated : rules.StatedBy libraries entries) : rules.StatedBy libraries others := by
  have hversion : entries.get? "schema_version" = others.get? "schema_version" :=
    h.get?_eq (by simp [sectionKeys])
  have hproject : entries.get? "project_slug" = others.get? "project_slug" :=
    h.get?_eq (by simp [sectionKeys])
  have hsource := (h.section (by simp [sectionKeys]) fun _ _ => source_congr).1 hstated.source
  have houtput := (h.section (by simp [sectionKeys]) fun _ _ => output_congr).1 hstated.output
  have hstyle := (h.section (by simp [sectionKeys]) fun _ _ => style_congr).2 hstated.style
  refine ⟨?_, hstated.version_eq, hproject ▸ hstated.project, hstated.project_ne,
    hsource, houtput, hstyle⟩
  rw [← hversion]
  exact hstated.version

/-- Rearranged entries state the same rules, or no rules either. -/
theorem ofValue_toOption_eq (hlaw : libraries.Lawful) (h : (RuleValue.mapping entries).NamesOnce)
    (hr : Rearranged entries others) :
    (ofValue libraries (.mapping others)).toOption =
      (ofValue libraries (.mapping entries)).toOption := by
  have hfields := hr.sameFields h
  have hkeys : (∀ entry ∈ others, ∃ key ∈ knownKeys, entry.1 = .name key) ↔
      ∀ entry ∈ entries, ∃ key ∈ knownKeys, entry.1 = .name key := by
    have hmap : ∀ table : RuleEntries Other,
        (∀ entry ∈ table, ∃ key ∈ knownKeys, entry.1 = .name key) ↔
          ∀ k ∈ table.map Prod.fst, ∃ key ∈ knownKeys, k = .name key := by
      intro table
      rw [List.forall_mem_map]
    rw [hmap, hmap]
    simp only [hr.keys_perm.mem_iff]
  have hoption : ∀ (x : Except LibraryError Rules) (rules : Rules),
      x.toOption = some rules ↔ x = .ok rules := by
    intro x rules
    cases x <;> simp [Except.toOption]
  ext rules
  rw [hoption, hoption, ofValue_eq_ok_iff hlaw, ofValue_eq_ok_iff hlaw, hkeys]
  exact and_congr_left fun _ => ⟨StatedBy.congr hfields.symm, StatedBy.congr hfields⟩

/-- A file whose version is an integer states that version. -/
theorem StatedBy.eq_version (hlaw : libraries.Lawful) {rules : Rules}
    (h : rules.StatedBy libraries entries) {version : Int}
    (hget : entries.get? "schema_version" = some (.integer version)) : rules.version = version := by
  obtain ⟨value, hvalue, hread⟩ := h.version
  cases hget.symm.trans hvalue
  exact Except.ok.inj (hread.symm.trans (hlaw.integer version))

/-! ### Null -/

theorem ne_null_of_takes {usual key a : String} (h : Takes .string usual key entries a) :
    entries.get? key ≠ some .null := by
  rcases h with hget | ⟨hget, -⟩
  · simp [hget]
  · simp [hget]

/-- A file that states rules has null at none of its keys. -/
theorem get?_ne_null (hlaw : libraries.Lawful) {rules : Rules}
    (h : rules.StatedBy libraries entries) {key : String} (hkey : key ∈ knownKeys) :
    entries.get? key ≠ some .null := by
  intro hnull
  simp only [knownKeys, List.mem_cons, List.not_mem_nil, or_false] at hkey
  rcases hkey with rfl | rfl | rfl | rfl | rfl
  · obtain ⟨value, hget, hread⟩ := h.version
    cases hnull.symm.trans hget
    exact hlaw.integer_null _ hread
  · cases hnull.symm.trans h.project
  · obtain ⟨own, hget, -⟩ := h.source
    cases hnull.symm.trans hget
  · obtain ⟨own, hget, -⟩ := h.output
    cases hnull.symm.trans hget
  · obtain ⟨own, hget, -⟩ := h.style
    rw [hnull] at hget
    cases hget

/-- In a file that states rules, a section has null at the names of files only. -/
theorem section_get?_ne_null {rules : Rules} (h : rules.StatedBy libraries entries)
    {name key : String} {names : List String} {own : RuleEntries Other}
    (hname : (name, names) ∈ sectionKeys) (hkey : key ∈ names) (hfile : key ∉ fileNameKeys)
    (hown : entries.get? name = some (.mapping own)) : own.get? key ≠ some .null := by
  simp only [sectionKeys, List.mem_cons, Prod.mk.injEq, List.not_mem_nil, or_false] at hname
  rcases hname with ⟨rfl, rfl⟩ | ⟨rfl, rfl⟩ | ⟨rfl, rfl⟩
  · obtain ⟨stated, hget, hsource⟩ := h.source
    cases hown.symm.trans hget
    rw [List.mem_singleton.1 hkey, hsource.tokensPath]
    simp
  · obtain ⟨stated, hget, houtput⟩ := h.output
    cases hown.symm.trans hget
    have hdirectory : key = "dir" := (List.mem_cons.1 hkey).resolve_right hfile
    rw [hdirectory, houtput.directory]
    simp
  · obtain ⟨stated, hget, hstyle⟩ := h.style
    rw [hown] at hget
    cases hget
    simp only [List.mem_cons, List.not_mem_nil, or_false] at hkey
    rcases hkey with rfl | rfl
    · exact ne_null_of_takes hstyle.radius
    · exact ne_null_of_takes hstyle.font

/-! ### Whatever is decoded -/

/-- **A rules file states its rules by its contents.**  The order of the keys, at the top or in a
section, and unknown keys in a section change nothing; an unknown key at the top is refused; each
field has the value of its key or the usual one; a version is refused that is another integer than
the one that is known; null stands for a file that is not generated and is refused anywhere else.
Whatever a text decodes to has each key once. -/
theorem ofValue_contents (hlaw : libraries.Lawful) (h : (RuleValue.mapping entries).NamesOnce) :
    (∀ others, Rearranged entries others →
      (ofValue libraries (.mapping others)).toOption =
        (ofValue libraries (.mapping entries)).toOption) ∧
    (∀ key value, (.name key, value) ∈ entries → key ∉ knownKeys →
      ∃ e, ofValue libraries (.mapping entries) = .error e) ∧
    (∀ rules : Rules, ofValue libraries (.mapping entries) = .ok rules ↔
      rules.StatedBy libraries entries ∧ ∀ entry ∈ entries, ∃ key ∈ knownKeys, entry.1 = .name key) ∧
    (∀ version : Int, entries.get? "schema_version" = some (.integer version) → version ≠ 1 →
      ∃ e, ofValue libraries (.mapping entries) = .error e) ∧
    (∀ key ∈ knownKeys, entries.get? key = some .null →
      ∃ e, ofValue libraries (.mapping entries) = .error e) ∧
    (∀ (name : String) (names : List String) (own : RuleEntries Other) (key : String),
      (name, names) ∈ sectionKeys → key ∈ names → key ∉ fileNameKeys →
      entries.get? name = some (.mapping own) → own.get? key = some .null →
        ∃ e, ofValue libraries (.mapping entries) = .error e) ∧
    ∀ text value, libraries.decode text = .ok value →
      value.NamesOnce ∧ ofText libraries text = (ofValue libraries value).mapError .invalid := by
  have hfails : (∀ rules : Rules, ¬(rules.StatedBy libraries entries ∧
      ∀ entry ∈ entries, ∃ key ∈ knownKeys, entry.1 = .name key)) →
        ∃ e, ofValue libraries (.mapping entries) = .error e := by
    intro hnone
    cases hrules : ofValue libraries (.mapping entries) with
    | error e => exact ⟨e, rfl⟩
    | ok rules => exact absurd ((ofValue_eq_ok_iff hlaw).1 hrules) (hnone rules)
  refine ⟨?_, ?_, ?_, ?_, ?_, ?_, ?_⟩
  · exact fun others hr => ofValue_toOption_eq hlaw h hr
  · intro key value hm hkey
    refine hfails fun rules hstated => ?_
    obtain ⟨known, hknown, heq⟩ := hstated.2 _ hm
    cases heq
    exact hkey hknown
  · exact fun rules => ofValue_eq_ok_iff hlaw
  · exact fun version hget hne => hfails fun rules hstated =>
      hne (hstated.1.eq_version hlaw hget ▸ hstated.1.version_eq)
  · exact fun key hkey hnull => hfails fun rules hstated => get?_ne_null hlaw hstated.1 hkey hnull
  · intro name names own key hname hkey hfile hown hnull
    exact hfails fun rules hstated =>
      section_get?_ne_null hstated.1 hname hkey hfile hown hnull
  · intro text value hdecoded
    refine ⟨hlaw.namesOnce hdecoded, ?_⟩
    rw [ofText, hdecoded]

/-- The entries of a small rules file. -/
def smallFile : RuleEntries Yaml.Value :=
  [(.name "schema_version", .string " +1.0 "),
   (.name "project_slug", .string "demo"),
   (.name "source", .mapping [(.name "tokens_path", .string "tokens.json")]),
   (.name "output", .mapping [(.name "dir", .string "out"), (.name "css_file", .null)])]

/-- The same entries from the end, with unknown keys in the sections. -/
def smallFileReversed : RuleEntries Yaml.Value :=
  [(.name "output", .mapping
     [(.other (.scalar (.bool true)), .other (.list [])), (.name "css_file", .null),
      (.name "dir", .string "out")]),
   (.name "source", .mapping [(.name "tokens_path", .string "tokens.json"), (.name "dir", .null)]),
   (.name "project_slug", .string "demo"),
   (.name "schema_version", .string " +1.0 ")]

theorem ofValue_contents_reversed :
    RuleLibraries.yaml.Lawful ∧ (RuleValue.mapping smallFile).NamesOnce ∧
      Rearranged smallFile smallFileReversed ∧
      (ofValue .yaml (.mapping smallFileReversed)).toOption =
        (ofValue .yaml (.mapping smallFile)).toOption ∧
      ofValue .yaml (.mapping smallFile) = .ok
        { project := "demo", source := ⟨"tokens.json"⟩,
          output := { directory := "out", stylesheet := none } } := by
  have hnames : (RuleValue.mapping smallFile).NamesOnce := by
    simp [smallFile, RuleValue.NamesOnce, RuleValue.EntriesNamesOnce, RuleEntries.named,
      Entries.keys]
  have hrearranged : Rearranged smallFile smallFileReversed := by
    refine ⟨smallFile.reverse, (List.reverse_perm _).symm, ?_⟩
    have houtput : ("output", ["dir", "theme_module", "theme_json", "css_file"]) ∈ sectionKeys := by
      decide
    have hsource : ("source", ["tokens_path"]) ∈ sectionKeys := by decide
    refine .cons (.rearranged houtput ?_) (.cons (.rearranged hsource ?_)
      (.cons (.same _) (.cons (.same _) .nil)))
    · exact List.Perm.swap _ _ _
    · exact List.Perm.refl _
  have hcontents := ofValue_contents RuleLibraries.yaml_lawful hnames
  exact ⟨RuleLibraries.yaml_lawful, hnames, hrearranged, hcontents.1 _ hrearranged,
    by decide +kernel⟩

end Rules

end TokenTheme
