import OrgAlign.Source

/-!
# Roles of the bootstrap accounts

Before there was a configuration, a bootstrap deployment created four accounts with fixed roles.
An account's role is either declared in its configuration entry or told by the name of the
parameter that publishes its identifier.
-/

namespace OrgAlign

/-- The role of an account in the bootstrap deployment. -/
inductive LegacyRole
  | primary
  | security
  | logArchive
  | sharedServices
deriving DecidableEq, Repr, Inhabited

namespace LegacyRole

/-- All roles, in the order in which they are looked for. -/
def all : List LegacyRole := [primary, security, logArchive, sharedServices]

/-- The role's name. -/
def name : LegacyRole → String
  | primary => "primary"
  | security => "security"
  | logArchive => "log-archive"
  | sharedServices => "shared-services"

/-- The roles with their names. -/
def named : List (String × LegacyRole) := all.map fun r => (r.name, r)

/-- The parameter that publishes the identifier of the account with this role. -/
def parameter : LegacyRole → String
  | primary => "/org/primary/account_id"
  | security => "/org/member/security/account_id"
  | logArchive => "/org/member/logging/account_id"
  | sharedServices => "/org/member/sharedservices/account_id"

/-- The role whose account is published under a parameter. -/
def ofParameter? (parameter : String) : Option LegacyRole :=
  all.find? (·.parameter == parameter)

/-- Reads a role. -/
def read? {δ : Type} [Source δ] (d : δ) : Option LegacyRole :=
  (Source.choice? d).bind (Label.pick named)

theorem mem_all (r : LegacyRole) : r ∈ all := by cases r <;> decide

end LegacyRole
end OrgAlign
