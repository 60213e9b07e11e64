import OrgAlign.Config.Format
import OrgAlign.Config.Schema
import OrgAlign.Json.Reader
import OrgAlign.Yaml.Reader

/-!
# Reading configuration files

Each record has one reader, for JSON and YAML alike. Options and the entries of split files are
read as they stand in the document. A section of the root file may take two shapes, so it is read
as a plain value first, and there a scalar is what it is written as: `true` or `17` is no text.
-/

namespace OrgAlign.Config

variable {δ : Type} [Source δ]

/-! ### Records -/

/-- Reads the options. -/
def GlobalOptions.read? (d : δ) : Option GlobalOptions := do
  let fields : Fields δ ← Source.fields? d
  let ignoredOus ← fields.withDefault "ignored-ous" [] Source.texts?
  let quarantine ← fields.optional "quarantine-policy" Source.text?
  let baseline ← fields.optional "baseline-policy" Source.text?
  let suspended ← fields.optional "suspended-ou" Source.text?
  let scps ← fields.withDefault "scps" [] Source.texts?
  let extra ← fields.others
    ["ignored-ous", "quarantine-policy", "baseline-policy", "suspended-ou", "scps"]
  some { ignoredOus, quarantine, baseline, suspended, scps, extra }

/-- Reads a unit's entry. -/
def OuEntry.read? (d : δ) : Option OuEntry := do
  let fields : Fields δ ← Source.fields? d
  let scps ← fields.withDefault "scps" [] Source.texts?
  let extra ← fields.others ["scps"]
  some { scps, extra }

/-- Reads an account's entry. -/
def AccountEntry.read? (d : δ) : Option AccountEntry := do
  let fields : Fields δ ← Source.fields? d
  let name ← fields.required "account-name" Source.text?
  let email ← fields.required "email" Source.text?
  let ou ← fields.required "ou" Source.text?
  let ouPath ← fields.optional "ou-path" Source.text?
  let role ← fields.optional "landing-zone-account-type" LegacyRole.read?
  let deleted ← fields.withDefault "deleted" false Source.flag?
  let scps ← fields.withDefault "scps" [] Source.texts?
  let extra ← fields.others
    ["account-name", "email", "ou", "ou-path", "landing-zone-account-type", "deleted", "scps"]
  some { name, email, ou, ouPath, role, deleted, scps, extra }

/-- Reads a map whose keys are texts, none twice. -/
def readKeyed? {α : Type} (read : δ → Option α) (d : δ) : Option (KeyedMap α) := do
  let entries ← Source.entries? d
  let pairs ← entries.mapM fun e => do
    let key ← Source.text? e.1
    let value ← read e.2
    some (key, value)
  KeyedMap.ofEntries? pairs

/-! ### Sections -/

/-- The files that a section lists. The list stands under its key, or under the position of that
key; other keys beside it are passed over. -/
def loadFiles? (v : Value) : Option (List String) := do
  let fields : Fields Value ← Source.fields? v
  match fields.filter fun f => f.1 = .name loadKey || f.1 = .position 0 with
  | [f] => Source.texts? f.2
  | _ => none

/-- Reads a section. What does not list files holds entries. -/
def Section.read? {α : Type} (read : Value → Option α) (v : Value) : Option (Section α) :=
  match loadFiles? v with
  | some files => some (.load files)
  | none => (readKeyed? read v).map .inline

/-- Reads the root file. -/
def RootFile.read? (d : δ) : Option RootFile := do
  let fields : Fields δ ← Source.fields? d
  let sectionOf {α : Type} (read : Value → Option α) (d : δ) : Option (Section α) :=
    (Source.value? d).bind (Section.read? read)
  let options ← fields.withDefault optionsKey {} GlobalOptions.read?
  let ous ← fields.withDefault ouSectionKey default (sectionOf OuEntry.read?)
  let mandatory ←
    fields.withDefault AccountSection.mandatory.key default (sectionOf AccountEntry.read?)
  let workload ←
    fields.withDefault AccountSection.workload.key default (sectionOf AccountEntry.read?)
  let extra ← fields.others
    [optionsKey, ouSectionKey, AccountSection.mandatory.key, AccountSection.workload.key]
  some { options, ous, mandatory, workload, extra }

/-! ### Texts -/

/-- What can be read from a document of either format. -/
class Readable (α : Type) where
  /-- Reads a document. -/
  read? : {δ : Type} → [Source δ] → δ → Option α

instance : Readable RootFile := ⟨RootFile.read?⟩

instance : Readable (KeyedMap OuEntry) := ⟨readKeyed? OuEntry.read?⟩

instance : Readable (KeyedMap AccountEntry) := ⟨readKeyed? AccountEntry.read?⟩

instance : Readable (KeyedMap Int) := ⟨readKeyed? Source.integer?⟩

/-- Why a text cannot be read. -/
inductive Unreadable
  | malformed
  | severalDocuments
deriving DecidableEq, Repr

/-- Reads a YAML text, which has to hold one document. -/
def readYaml {α : Type} [Readable α] (text : String) : Except Unreadable α :=
  match Yaml.document? text with
  | none => .error .malformed
  | some (d, more) =>
    match Readable.read? d.located with
    | none => .error .malformed
    | some a => if more then .error .severalDocuments else .ok a

/-- Reads a JSON text. -/
def readJson {α : Type} [Readable α] (text : String) : Except Unreadable α :=
  match (Json.read? text).bind Readable.read? with
  | none => .error .malformed
  | some a => .ok a

/-- Reads a text in a given format. -/
def readText {α : Type} [Readable α] : Format → String → Except Unreadable α
  | .yaml, text => readYaml text
  | .json, text => readJson text

end OrgAlign.Config
