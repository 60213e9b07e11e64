import OrgAlign.KeyedMap
import OrgAlign.LegacyRole
import OrgAlign.Text.Ascii

/-!
# The configuration schema

Only the fields that reconciliation reads have a type. Whatever else an entry carries is kept in
`extra`, so that writing a file back loses nothing that other tools put there.

A section of the root file holds its entries, or lists the files that hold them (`Section`).
`Configuration` is the merged view, in which every section is one ordered map.
-/

namespace OrgAlign.Config

/-- The fields of a record that have no type here, in document order. -/
abbrev Extra := List (Value × Value)

/-! ### Names with a meaning -/

/-- The key under which a section lists its files. -/
def loadKey : String := "__LOAD"

/-- The policy for whatever the configuration does not govern, unless another one is named. -/
def defaultQuarantinePolicy : String := "Quarantine-New-Object"

/-- The policy that enforcement never detaches, unless another one is named. -/
def defaultBaselinePolicy : String := "FullAWSAccess"

/-- The unit of suspended accounts, unless another one is named. -/
def defaultSuspendedOu : String := "Suspended"

/-! ### Entries -/

/-- The `global-options` section. Names that the operator never wrote stay unwritten. -/
structure GlobalOptions where
  /-- Top-level units that are left alone. -/
  ignoredOus : List String := []
  /-- The quarantine policy, if it is named. -/
  quarantine : Option String := none
  /-- The baseline policy, if it is named. -/
  baseline : Option String := none
  /-- The unit of suspended accounts, if it is named. -/
  suspended : Option String := none
  /-- Policies that the configuration deploys; they do not count against a target's limit. -/
  scps : List String := []
  /-- Other fields. -/
  extra : Extra := []
deriving DecidableEq, Repr, Inhabited

namespace GlobalOptions

/-- A top-level unit that is left alone. -/
def isIgnored (g : GlobalOptions) (ou : String) : Bool := g.ignoredOus.contains ou

/-- The quarantine policy's name. -/
def quarantinePolicy (g : GlobalOptions) : String := g.quarantine.getD defaultQuarantinePolicy

/-- The baseline policy's name. -/
def baselinePolicy (g : GlobalOptions) : String := g.baseline.getD defaultBaselinePolicy

/-- The path of the unit of suspended accounts. -/
def suspendedOu (g : GlobalOptions) : String := g.suspended.getD defaultSuspendedOu

/-- A policy that the configuration deploys. -/
def managesPolicy (g : GlobalOptions) (policy : String) : Bool := g.scps.contains policy

/-- Nothing is set. -/
def isEmpty (g : GlobalOptions) : Bool := g = {}

end GlobalOptions

/-- An entry of `organizational-units`. -/
structure OuEntry where
  /-- Policies attached to the unit. -/
  scps : List String := []
  /-- Other fields. -/
  extra : Extra := []
deriving DecidableEq, Repr, Inhabited

/-- An entry of one of the account sections. -/
structure AccountEntry where
  /-- The account's name. -/
  name : String
  /-- Its e-mail address, which identifies it in the organization. -/
  email : String
  /-- The top-level unit it belongs to. -/
  ou : String
  /-- The full path of its unit, if that is not just `ou`. -/
  ouPath : Option String := none
  /-- Its role in the bootstrap deployment. -/
  role : Option LegacyRole := none
  /-- The entry stays for the record only. -/
  deleted : Bool := false
  /-- Policies attached to the account. -/
  scps : List String := []
  /-- Other fields. -/
  extra : Extra := []
deriving DecidableEq, Repr, Inhabited

/-- The full path of the account's unit. -/
def AccountEntry.path (a : AccountEntry) : String := a.ouPath.getD a.ou

/-! ### The root file -/

/-- A section of the root file: the files that hold its entries, or the entries themselves. -/
inductive Section (α : Type) where
  | load (files : List String)
  | inline (entries : KeyedMap α)
deriving DecidableEq

namespace Section

variable {α : Type}

instance : Inhabited (Section α) := ⟨inline .empty⟩

/-- The files listed, none for an inline section. -/
def files : Section α → List String
  | load files => files
  | inline _ => []

/-- An inline section without entries. -/
def isBlank : Section α → Bool
  | load _ => false
  | inline entries => entries.isEmpty

end Section

/-- The two sections that declare accounts. -/
inductive AccountSection
  | mandatory
  | workload
deriving DecidableEq, Repr

namespace AccountSection

/-- The section's key in the root file. -/
def key : AccountSection → String
  | mandatory => "mandatory-account-configs"
  | workload => "workload-account-configs"

/-- Both sections, in the order in which they are read. -/
def all : List AccountSection := [mandatory, workload]

end AccountSection

/-- The key of the section that declares units. -/
def ouSectionKey : String := "organizational-units"

/-- The key of the options. -/
def optionsKey : String := "global-options"

/-- The root file. -/
structure RootFile where
  /-- Options. -/
  options : GlobalOptions := {}
  /-- The units. -/
  ous : Section OuEntry := default
  /-- The mandatory accounts. -/
  mandatory : Section AccountEntry := default
  /-- The workload accounts. -/
  workload : Section AccountEntry := default
  /-- Other fields. -/
  extra : Extra := []
deriving DecidableEq, Inhabited

/-! ### The merged view -/

/-- The configuration with the entries of all files in one place, in declaration order. -/
structure Configuration where
  /-- Options. -/
  options : GlobalOptions
  /-- The units. -/
  ous : KeyedMap OuEntry
  /-- The mandatory accounts. -/
  mandatory : KeyedMap AccountEntry
  /-- The workload accounts. -/
  workload : KeyedMap AccountEntry
deriving DecidableEq, Inhabited

/-- A declared account: its entry, its key, and the section that declares it. -/
structure Declared where
  /-- The entry's key. -/
  key : String
  /-- The entry. -/
  entry : AccountEntry
  /-- The section. -/
  origin : AccountSection
deriving DecidableEq, Repr

/-- Declared in the section of mandatory accounts. -/
def Declared.isMandatory (d : Declared) : Bool := d.origin = .mandatory

/-- The accounts that a section declares. -/
def declaredIn (origin : AccountSection) (entries : KeyedMap AccountEntry) : List Declared :=
  entries.entries.map fun e => ⟨e.1, e.2, origin⟩

namespace Configuration

/-- Every declared account, mandatory ones first, deleted ones included. -/
def allAccounts (c : Configuration) : List Declared :=
  declaredIn .mandatory c.mandatory ++ declaredIn .workload c.workload

/-- The declared accounts that are not deleted. -/
def accounts (c : Configuration) : List Declared :=
  c.allAccounts.filter fun d => !d.entry.deleted

/-- The first account with a key. -/
def account? (c : Configuration) (key : String) : Option Declared :=
  c.allAccounts.find? (·.key == key)

/-- The first account with an e-mail address, deleted ones included. -/
def accountByEmail? (c : Configuration) (email : String) : Option Declared :=
  c.allAccounts.find? fun d => Text.sameIgnoringCase d.entry.email email

/-- Adds a text unless it is there. -/
def addNew (texts : List String) (s : String) : List String :=
  if texts.contains s then texts else texts ++ [s]

/-- The unit paths that the configuration speaks of: the keys of the units, then the paths of
workload accounts, each once. -/
def declaredPaths (c : Configuration) : List String :=
  ((c.accounts.filter fun d => !d.isMandatory).map fun d => d.entry.path).foldl addNew c.ous.keys

end Configuration
end OrgAlign.Config
