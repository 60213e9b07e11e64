import OrgAlign.LegacyRole

/-!
# Canonical records

What a reconciliation hands on to the steps after it: one record for each account and each unit,
with the identifiers that the organization gave them.
-/

namespace OrgAlign

/-- An account as later steps see it. -/
structure CanonicalAccount where
  /-- Its key in the configuration. -/
  key : String
  /-- Its identifier, once it exists. -/
  cloudId : Option String
  /-- Its declared name. -/
  name : String
  /-- Its declared e-mail address. -/
  email : String
  /-- The top-level unit that it is declared under. -/
  ou : String
  /-- The full path of its unit. -/
  ouPath : String
  /-- It is declared as mandatory. -/
  isMandatory : Bool
  /-- Its declared role in the bootstrap deployment. -/
  role : Option LegacyRole
deriving DecidableEq, Repr

/-- A unit as later steps see it. -/
structure CanonicalOu where
  /-- Its identifier. -/
  id : String
  /-- Its name. -/
  name : String
  /-- How the configuration refers to it. -/
  logicalKey : String
  /-- Its path. -/
  path : String
deriving DecidableEq, Repr

/-- Everything that is handed on. -/
structure CanonicalOrganization where
  /-- The accounts. -/
  accounts : List CanonicalAccount := []
  /-- The units. -/
  ous : List CanonicalOu := []
  /-- The messages of all warnings. -/
  warnings : List String := []
deriving DecidableEq, Repr, Inhabited

/-! ### As values -/

/-- A field that is left out when there is nothing to write. -/
def optionalField (name : String) (item : Option String) : List (String × Value) :=
  match item with
  | some s => [(name, .str s)]
  | none => []

/-- An account as a value. -/
def CanonicalAccount.toValue (a : CanonicalAccount) : Value :=
  .record ([("key", .str a.key)] ++ optionalField "cloudId" a.cloudId ++
    [("name", .str a.name), ("email", .str a.email), ("organizationalUnit", .str a.ou),
      ("organizationalUnitPath", .str a.ouPath), ("isMandatory", .bool a.isMandatory)] ++
    optionalField "legacyAccountType" (a.role.map LegacyRole.name))

/-- A unit as a value. -/
def CanonicalOu.toValue (o : CanonicalOu) : Value :=
  .record [("id", .str o.id), ("name", .str o.name), ("logicalKey", .str o.logicalKey),
    ("path", .str o.path)]

/-- Everything as a value. -/
def CanonicalOrganization.toValue (o : CanonicalOrganization) : Value :=
  .record [("accounts", .seq (o.accounts.map CanonicalAccount.toValue)),
    ("organizationalUnits", .seq (o.ous.map CanonicalOu.toValue)),
    ("warnings", .texts o.warnings)]

end OrgAlign
