import OrgAlign.Canonical
import OrgAlign.Json.Reader
import OrgAlign.Json.Writer
import OrgAlign.Timestamp

/-!
# The published state

The canonical records of the last run, with the time and the commit they belong to. It is what the
next run compares against, so what is written has to be what is read back.

Records are written as JSON objects. A record may also be read from a list of its fields in order,
of which those at the end that have a value of their own may be missing.
-/

namespace OrgAlign

/-- The published state. -/
structure PublishedState where
  /-- When it was published. -/
  publishedAt : Timestamp
  /-- The commit of the configuration. -/
  commitId : String
  /-- The accounts. -/
  accounts : List CanonicalAccount
  /-- The units. -/
  ous : List CanonicalOu
  /-- The messages of the warnings. -/
  warnings : List String
deriving DecidableEq, Repr

namespace PublishedState

/-! ### Writing -/

/-- The state as a value. -/
def toValue (s : PublishedState) : Value :=
  .record [("publishedAt", .str s.publishedAt.text), ("commitId", .str s.commitId),
    ("accounts", .seq (s.accounts.map CanonicalAccount.toValue)),
    ("organizationalUnits", .seq (s.ous.map CanonicalOu.toValue)),
    ("warnings", .texts s.warnings)]

/-- The text of the state's file. -/
def text (s : PublishedState) : String := (Json.write? Json.pretty s.toValue).getD ""

/-! ### Reading -/

/-- The fields of a record with the given field names: by name, or by position in a list. -/
def recordFields? (names : List String) : Value → Option (Fields Value)
  | .seq items =>
    if items.length ≤ names.length then some ((names.map Label.name).zip items) else none
  | v => Source.fields? v

/-- Reads an account. -/
def readAccount? (v : Value) : Option CanonicalAccount := do
  let fields ← recordFields?
    ["key", "cloudId", "name", "email", "organizationalUnit", "organizationalUnitPath",
      "isMandatory", "legacyAccountType"] v
  let key ← fields.required "key" Source.text?
  let cloudId ← fields.optional "cloudId" Source.text?
  let name ← fields.required "name" Source.text?
  let email ← fields.required "email" Source.text?
  let ou ← fields.required "organizationalUnit" Source.text?
  let ouPath ← fields.required "organizationalUnitPath" Source.text?
  let isMandatory ← fields.required "isMandatory" Source.flag?
  let role ← fields.optional "legacyAccountType" LegacyRole.read?
  some { key, cloudId, name, email, ou, ouPath, isMandatory, role }

/-- Reads a unit. -/
def readOu? (v : Value) : Option CanonicalOu := do
  let fields ← recordFields? ["id", "name", "logicalKey", "path"] v
  let id ← fields.required "id" Source.text?
  let name ← fields.required "name" Source.text?
  let logicalKey ← fields.required "logicalKey" Source.text?
  let path ← fields.required "path" Source.text?
  some { id, name, logicalKey, path }

/-- Reads a state. -/
def ofValue? (v : Value) : Option PublishedState := do
  let fields ← recordFields?
    ["publishedAt", "commitId", "accounts", "organizationalUnits", "warnings"] v
  let publishedAt ← fields.required "publishedAt" fun d =>
    (Source.text? d).bind Timestamp.read?
  let commitId ← fields.required "commitId" Source.text?
  let accounts ← fields.required "accounts" (Source.list? readAccount?)
  let ous ← fields.required "organizationalUnits" (Source.list? readOu?)
  let warnings ← fields.withDefault "warnings" [] Source.texts?
  some { publishedAt, commitId, accounts, ous, warnings }

/-- Reads the text of a state's file. -/
def parse? (text : String) : Option PublishedState := (Json.read? text).bind ofValue?

end PublishedState
end OrgAlign
