import OrgAlign.Config.Decode
import OrgAlign.Org.Record
import OrgAlign.Path
import OrgAlign.Yaml.Writer

/-!
# Organization snapshots

The whole state of an organization as one record, and as a file. A unit's path follows from the
links to its parents (`Snapshot.pathOf`); a link back into the chain cannot make that run forever,
because no more steps are taken than there are units.

New units get the identifier `ou-` with the least free number of at least four digits from the
number of units on (`Snapshot.nextOuId`).
-/

namespace OrgAlign.Org

/-- The state of an organization. -/
structure Snapshot where
  /-- The root, if there is one. -/
  root : Option Root := none
  /-- The units. -/
  ous : List OuNode := []
  /-- The accounts. -/
  accounts : List LiveAccount := []
  /-- The policies. -/
  policies : List AttachedPolicy := []
deriving DecidableEq, Repr, Inhabited

namespace Snapshot

/-! ### What identifiers stand for -/

/-- The root's identifier. -/
def isRoot (s : Snapshot) (id : String) : Bool := s.root.any (·.id == id)

/-- The identifier of a unit. -/
def isOu (s : Snapshot) (id : String) : Bool := s.ous.any (·.id == id)

/-- Something that holds units and accounts. -/
def isParent (s : Snapshot) (id : String) : Bool := s.isRoot id || s.isOu id

/-- Something that policies attach to. -/
def isTarget (s : Snapshot) (id : String) : Bool := s.isParent id || s.accounts.any (·.id == id)

/-- The first unit with an identifier. -/
def ou? (s : Snapshot) (id : String) : Option OuNode := s.ous.find? (·.id == id)

/-! ### Paths -/

/-- The names met on the way up from a parent, nearest first, in at most so many steps. -/
def namesAbove (s : Snapshot) : Nat → String → List String
  | 0, _ => []
  | steps + 1, parent =>
    match s.ou? parent with
    | some up => up.name :: namesAbove s steps up.parent
    | none => []

/-- The path of a unit. -/
def pathOf (s : Snapshot) (o : OuNode) : String :=
  (o.name :: s.namesAbove s.ous.length o.parent).reverse.foldl Path.join ""

/-- A unit with its path. -/
def located (s : Snapshot) (o : OuNode) : LiveOu := ⟨o.id, o.name, o.parent, s.pathOf o⟩

/-! ### New identifiers -/

/-- How many digits an identifier has at least. -/
def idWidth : Nat := 4

/-- The identifier with a number. -/
def ouId (n : Nat) : String :=
  let digits := Nat.toDigits 10 n
  "ou-" ++ String.ofList (List.replicate (idWidth - digits.length) '0' ++ digits)

/-- The identifiers to try, in order: one more than there are units. -/
def candidateIds (s : Snapshot) : List String :=
  (List.range (s.ous.length + 1)).map fun i => ouId (s.ous.length + 1 + i)

/-- The identifier for the next unit. -/
def nextOuId (s : Snapshot) : String :=
  ((s.candidateIds.find? fun id => !s.isOu id)).getD (ouId (2 * s.ous.length + 2))

/-! ### As a file -/

/-- A record of texts as a value. -/
def texts (fields : List (String × String)) : Value :=
  .record (fields.map fun f => (f.1, .str f.2))

/-- A root as a value. -/
def rootValue (r : Root) : Value := texts [("id", r.id), ("name", r.name)]

/-- A unit as a value. -/
def ouValue (o : OuNode) : Value :=
  texts [("id", o.id), ("name", o.name), ("parent-id", o.parent)]

/-- An account as a value. -/
def accountValue (a : LiveAccount) : Value :=
  texts [("id", a.id), ("name", a.name), ("email", a.email), ("status", a.status.name),
    ("parent-id", a.parent)]

/-- A policy as a value. -/
def policyValue (p : AttachedPolicy) : Value :=
  .record [("id", .str p.id), ("name", .str p.name), ("targets", .texts p.targets)]

/-- A snapshot as a value. -/
def toValue (s : Snapshot) : Value :=
  .record ((match s.root with
    | some r => [("root", rootValue r)]
    | none => []) ++
    [("organizational-units", .seq (s.ous.map ouValue)),
      ("accounts", .seq (s.accounts.map accountValue)),
      ("policies", .seq (s.policies.map policyValue))])

/-- The text of a snapshot's file. -/
def text (s : Snapshot) : String := Yaml.write s.toValue

section

variable {δ : Type} [Source δ]

/-- Reads a root. -/
def readRoot? (d : δ) : Option Root := do
  let fields : Fields δ ← Source.fields? d
  let id ← fields.required "id" Source.text?
  let name ← fields.required "name" Source.text?
  some { id, name }

/-- Reads a unit. -/
def readOu? (d : δ) : Option OuNode := do
  let fields : Fields δ ← Source.fields? d
  let id ← fields.required "id" Source.text?
  let name ← fields.required "name" Source.text?
  let parent ← fields.required "parent-id" Source.text?
  some { id, name, parent }

/-- Reads an account; one without a status is active. -/
def readAccount? (d : δ) : Option LiveAccount := do
  let fields : Fields δ ← Source.fields? d
  let id ← fields.required "id" Source.text?
  let name ← fields.required "name" Source.text?
  let email ← fields.required "email" Source.text?
  let status ← fields.withDefault "status" .active AccountStatus.read?
  let parent ← fields.required "parent-id" Source.text?
  some { id, name, email, status, parent }

/-- Reads a policy. -/
def readPolicy? (d : δ) : Option AttachedPolicy := do
  let fields : Fields δ ← Source.fields? d
  let id ← fields.required "id" Source.text?
  let name ← fields.required "name" Source.text?
  let targets ← fields.withDefault "targets" [] Source.texts?
  some { id, name, targets }

/-- Reads a snapshot. -/
def read? (d : δ) : Option Snapshot := do
  let fields : Fields δ ← Source.fields? d
  let root ← fields.optional "root" readRoot?
  let ous ← fields.withDefault "organizational-units" [] (Source.list? readOu?)
  let accounts ← fields.withDefault "accounts" [] (Source.list? readAccount?)
  let policies ← fields.withDefault "policies" [] (Source.list? readPolicy?)
  some { root, ous, accounts, policies }

end

instance : Config.Readable Snapshot := ⟨read?⟩

/-- Reads the text of a snapshot's file. -/
def parse (text : String) : Except Config.Unreadable Snapshot := Config.readYaml text

end Snapshot
end OrgAlign.Org
