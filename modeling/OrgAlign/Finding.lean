import OrgAlign.Source

/-!
# Findings

What reconciliation has to say about one subject: how the configuration and the organization
differ, and whether that stops the work.
-/

namespace OrgAlign

/-- How much a finding weighs: errors stop the work, warnings never do. -/
inductive Severity
  | error
  | warning
deriving DecidableEq, Repr

namespace Severity

/-- The severity's name. -/
def name : Severity → String
  | error => "error"
  | warning => "warning"

/-- The severities with their names. -/
def named : List (String × Severity) := [error, warning].map fun s => (s.name, s)

/-- Reads a severity. -/
def read? {δ : Type} [Source δ] (d : δ) : Option Severity :=
  (Source.choice? d).bind (Label.pick named)

end Severity

/-- The ways in which configuration and organization differ. -/
inductive FindingKind
  | renamedAccount
  | renamedOu
  | missingOu
  | unmanagedAccount
  | suspendedAccount
  | missingLegacyAccount
  | duplicateEmail
  | ambiguousOu
  | ouMembershipMismatch
  | nameMismatch
  | legacyMismatch
  | ouCountMismatch
  | unknownLegacyAccountType
  | staleAccountRecord
  | ignoredOuAccount
  | policyLimitExceeded
deriving DecidableEq, Repr

namespace FindingKind

/-- All kinds. -/
def all : List FindingKind :=
  [renamedAccount, renamedOu, missingOu, unmanagedAccount, suspendedAccount, missingLegacyAccount,
    duplicateEmail, ambiguousOu, ouMembershipMismatch, nameMismatch, legacyMismatch,
    ouCountMismatch, unknownLegacyAccountType, staleAccountRecord, ignoredOuAccount,
    policyLimitExceeded]

/-- The kind's name. -/
def name : FindingKind → String
  | renamedAccount => "renamed-account"
  | renamedOu => "renamed-ou"
  | missingOu => "missing-ou"
  | unmanagedAccount => "unmanaged-account"
  | suspendedAccount => "suspended-account"
  | missingLegacyAccount => "missing-legacy-account"
  | duplicateEmail => "duplicate-email"
  | ambiguousOu => "ambiguous-ou"
  | ouMembershipMismatch => "ou-membership-mismatch"
  | nameMismatch => "name-mismatch"
  | legacyMismatch => "legacy-mismatch"
  | ouCountMismatch => "ou-count-mismatch"
  | unknownLegacyAccountType => "unknown-legacy-account-type"
  | staleAccountRecord => "stale-account-record"
  | ignoredOuAccount => "ignored-ou-account"
  | policyLimitExceeded => "policy-limit-exceeded"

/-- The kinds with their names. -/
def named : List (String × FindingKind) := all.map fun k => (k.name, k)

/-- Reads a kind. -/
def read? {δ : Type} [Source δ] (d : δ) : Option FindingKind :=
  (Source.choice? d).bind (Label.pick named)

end FindingKind

/-- A finding. -/
structure Finding where
  /-- How things differ. -/
  kind : FindingKind
  /-- How much it weighs. -/
  severity : Severity
  /-- What it is about: a key, a path, an identifier or a role. -/
  subject : String
  /-- What to tell the operator. -/
  message : String
deriving DecidableEq, Repr

namespace Finding

/-- A finding that stops the work. -/
def fatal (kind : FindingKind) (subject message : String) : Finding :=
  ⟨kind, .error, subject, message⟩

/-- A finding that does not. -/
def warning (kind : FindingKind) (subject message : String) : Finding :=
  ⟨kind, .warning, subject, message⟩

/-- The finding stops the work. -/
def isFatal (f : Finding) : Bool := f.severity = .error

/-- The finding on one line. -/
def text (f : Finding) : String :=
  "[" ++ f.severity.name ++ "] " ++ f.kind.name ++ ": " ++ f.message

/-- The finding as a value. -/
def toValue (f : Finding) : Value :=
  .record [("kind", .str f.kind.name), ("severity", .str f.severity.name),
    ("subjectKey", .str f.subject), ("message", .str f.message)]

end Finding
end OrgAlign
