import OrgAlign.Config.Format
import OrgAlign.Config.Schema
import OrgAlign.Json.Writer
import OrgAlign.Yaml.Writer

/-!
# Writing configuration files

Records become plain values, known fields first and the others behind them in their own order.
Fields that say nothing are left out. A file ends with a line end in either format.
-/

namespace OrgAlign.Config

/-! ### Fields -/

/-- A field of an encoded record. -/
abbrev Field := Value × Value

/-- A field that is always written. -/
def field (name : String) (v : Value) : List Field := [(.str name, v)]

/-- A list of texts, left out when it is empty. -/
def textsField (name : String) (items : List String) : List Field :=
  if items = [] then [] else field name (.texts items)

/-- A text, left out when there is none. -/
def textField? (name : String) (item : Option String) : List Field :=
  match item with
  | some s => field name (.str s)
  | none => []

/-! ### Records -/

/-- Options as a value. -/
def GlobalOptions.toValue (g : GlobalOptions) : Value :=
  .map (textsField "ignored-ous" g.ignoredOus ++
    textField? "quarantine-policy" g.quarantine ++
    textField? "baseline-policy" g.baseline ++
    textField? "suspended-ou" g.suspended ++
    textsField "scps" g.scps ++ g.extra)

/-- A unit's entry as a value. -/
def OuEntry.toValue (o : OuEntry) : Value := .map (textsField "scps" o.scps ++ o.extra)

/-- An account's entry as a value. -/
def AccountEntry.toValue (a : AccountEntry) : Value :=
  .map (field "account-name" (.str a.name) ++
    field "email" (.str a.email) ++
    field "ou" (.str a.ou) ++
    textField? "ou-path" a.ouPath ++
    textField? "landing-zone-account-type" (a.role.map LegacyRole.name) ++
    (if a.deleted then field "deleted" (.bool true) else []) ++
    textsField "scps" a.scps ++ a.extra)

/-- A map as a value. -/
def keyedValue {α : Type} (toValue : α → Value) (m : KeyedMap α) : Value :=
  .record (m.entries.map fun e => (e.1, toValue e.2))

/-- A section as a value. -/
def Section.toValue {α : Type} (toValue : α → Value) : Section α → Value
  | .load files => .record [(loadKey, .texts files)]
  | .inline entries => keyedValue toValue entries

/-- A section of the root file, left out when it is blank. -/
def sectionField {α : Type} (name : String) (toValue : α → Value) (s : Section α) : List Field :=
  if s.isBlank then [] else field name (s.toValue toValue)

/-- The root file as a value. -/
def RootFile.toValue (r : RootFile) : Value :=
  .map ((if r.options.isEmpty then [] else field optionsKey r.options.toValue) ++
    sectionField ouSectionKey OuEntry.toValue r.ous ++
    sectionField AccountSection.mandatory.key AccountEntry.toValue r.mandatory ++
    sectionField AccountSection.workload.key AccountEntry.toValue r.workload ++ r.extra)

/-! ### Texts -/

/-- A value as the text of a file. Only JSON can refuse: it has no form for some keys. -/
def render? : Format → Value → Option String
  | .yaml, v => some (Yaml.write v)
  | .json, v => (Json.write? Json.pretty v).map (· ++ "\n")

end OrgAlign.Config
