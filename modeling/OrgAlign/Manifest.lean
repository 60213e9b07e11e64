import OrgAlign.Config.Decode

/-!
# The bootstrap manifest

The bootstrap deployment is older than the configuration. Its manifest lists units and the core
accounts under each. An account's role shows only in its parameters: it is told by the first one
whose value is the placeholder for the account's identifier.

Manifests are YAML whatever their name, and fields that are not listed here are passed over.
-/

namespace OrgAlign

/-- A parameter that the bootstrap deployment publishes. -/
structure Parameter where
  /-- Its name. -/
  name : String
  /-- Its value, or a placeholder for it. -/
  value : String
deriving DecidableEq, Repr

/-- An account of the bootstrap deployment. -/
structure CoreAccount where
  /-- Its name. -/
  name : String
  /-- Its e-mail address, if it is given. -/
  email : Option String
  /-- What is published about it. -/
  parameters : List Parameter
deriving DecidableEq, Repr

/-- A unit of the bootstrap deployment. -/
structure CoreOu where
  /-- Its name. -/
  name : String
  /-- The core accounts under it. -/
  accounts : List CoreAccount
deriving DecidableEq, Repr

/-- The manifest. -/
structure Manifest where
  /-- The units, in the order listed. -/
  ous : List CoreOu
deriving DecidableEq, Repr, Inhabited

/-- The value that stands for an account's identifier. -/
def identifierPlaceholder : String := "$[AccountId]"

/-- The role told by the account's parameters. -/
def CoreAccount.role? (a : CoreAccount) : Option LegacyRole :=
  (a.parameters.find? (·.value == identifierPlaceholder)).bind fun p =>
    LegacyRole.ofParameter? p.name

/-- The names of the units. -/
def Manifest.ouNames (m : Manifest) : List String := m.ous.map CoreOu.name

/-! ### Reading -/

section

variable {δ : Type} [Source δ]

/-- Reads a parameter. -/
def Parameter.read? (d : δ) : Option Parameter := do
  let fields : Fields δ ← Source.fields? d
  let name ← fields.required "name" Source.text?
  let value ← fields.required "value" Source.text?
  some { name, value }

/-- Reads an account. -/
def CoreAccount.read? (d : δ) : Option CoreAccount := do
  let fields : Fields δ ← Source.fields? d
  let name ← fields.required "name" Source.text?
  let email ← fields.optional "email" Source.text?
  let parameters ← fields.withDefault "ssm_parameters" [] (Source.list? Parameter.read?)
  some { name, email, parameters }

/-- Reads a unit. -/
def CoreOu.read? (d : δ) : Option CoreOu := do
  let fields : Fields δ ← Source.fields? d
  let name ← fields.required "name" Source.text?
  let accounts ← fields.withDefault "core_accounts" [] (Source.list? CoreAccount.read?)
  some { name, accounts }

/-- Reads a manifest. -/
def Manifest.read? (d : δ) : Option Manifest := do
  let fields : Fields δ ← Source.fields? d
  let ous ← fields.withDefault "organizational_units" [] (Source.list? CoreOu.read?)
  some { ous }

end

instance : Config.Readable Manifest := ⟨Manifest.read?⟩

/-- Reads the text of a manifest. -/
def Manifest.parse (text : String) : Except Config.Unreadable Manifest := Config.readYaml text

end OrgAlign
