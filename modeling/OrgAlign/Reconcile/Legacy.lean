import OrgAlign.Reconcile.Pass

/-!
# Against the bootstrap manifest

With a manifest, a pass also checks that the configuration still describes what the bootstrap
deployment created: the same units in the same order, and for each core account a canonical account
of its role with the same name, e-mail address and unit.
-/

namespace OrgAlign.Reconcile

open Config Org

/-- The subject of findings about the list of units. -/
def ouListSubject : String := ouSectionKey

/-- Texts on one line. -/
def listing (names : List String) : String := String.intercalate ", " names

/-! ### The lists of units -/

/-- Warns when the organization has more or fewer units than the manifest. -/
def checkOuCount (live names : List String) (p : Pass) : Pass :=
  if live.length = names.length then p
  else
    p.report (.warning .ouCountMismatch ouListSubject
      ("There are " ++ toString live.length ++
        " organizational units in the organization while there are only " ++
        toString names.length ++ " organizational units in the Landing Zone configuration\n" ++
        "  Organizational units in organization: " ++ listing live ++ "\n" ++
        "  Organizational units in Landing Zone: " ++ listing names))

/-- The configuration has to declare the manifest's units in the manifest's order. -/
def checkOuNames (declared names : List String) (p : Pass) : Pass :=
  if declared = names then p
  else
    p.report (.fatal .legacyMismatch ouListSubject
      ("There are " ++ toString declared.length ++
        " organizational units in the configuration while there are " ++
        toString names.length ++ " organizational units in the Landing Zone configuration\n" ++
        "  Organizational units in configuration: " ++ listing declared ++ "\n" ++
        "  Organizational units in Landing Zone: " ++ listing names))

/-- The organization has to have units of the manifest's names. -/
def checkOusLive (live names : List String) (p : Pass) : Pass :=
  if names.all live.contains then p
  else
    p.report (.fatal .legacyMismatch ouListSubject
      ("There are missing OUs found in the Landing Zone configuration but not in the " ++
        "organization\n" ++
        "  Organizational units in Landing Zone: " ++ listing names ++ "\n" ++
        "  Organizational units in organization: " ++ listing live))

/-! ### Core accounts -/

/-- A finding that two sides of a bootstrap role differ. -/
def roleMismatch (role : LegacyRole) (subject intro ours theirs : String) : Finding :=
  .fatal .legacyMismatch subject
    ("The account " ++ intro ++ " for account type \"" ++ role.name ++ "\" do not match.\n\"" ++
      ours ++ "\" != \"" ++ theirs ++ "\"")

/-- Compares a core account with the canonical account of its role. -/
def compareCore (role : LegacyRole) (ou : CoreOu) (core : CoreAccount) (a : CanonicalAccount) :
    List Finding :=
  (if role ≠ .primary ∧ a.name ≠ core.name then
    [roleMismatch role core.name "name and Landing Zone account name" a.name core.name]
  else []) ++
  (match core.email with
  | some email =>
    if Text.sameIgnoringCase a.email email then []
    else [roleMismatch role core.name "email and Landing Zone account email" a.email email]
  | none => []) ++
  (if a.ou ≠ ou.name then
    [roleMismatch role core.name "OU and Landing Zone OU" a.ou ou.name]
  else [])

/-- Looks at one core account of a unit that is live. -/
def checkCore (tree : OrgTree) (ou : CoreOu) (live : LiveOu) (p : Pass) (core : CoreAccount) :
    Pass :=
  match core.role? with
  | none =>
    p.report (.fatal .unknownLegacyAccountType core.name
      ("Cannot detect Landing Zone account type for account with name \"" ++ core.name ++ "\""))
  | some role =>
    if role ≠ .primary ∧ !(tree.accountsIn live.id).any (·.name == core.name) then
      p.report (.fatal .missingLegacyAccount core.name
        ("Cannot find non-primary account with name \"" ++ core.name ++
          "\" that is used by Landing Zone"))
    else match p.accounts.find? (·.role == some role) with
      | none =>
        p.reportRole role (.fatal .missingLegacyAccount role.name
          ("Cannot find Landing Zone account of type " ++ role.name ++ " in the configuration"))
      | some a => (compareCore role ou core a).foldl Pass.report p

/-- Looks at the core accounts of one unit. -/
def checkCoreOu (tree : OrgTree) (p : Pass) (ou : CoreOu) : Pass :=
  if ou.accounts = [] then p
  else match matchOu ou.name tree.ous with
    | .found live _ => ou.accounts.foldl (checkCore tree ou live) p
    | .ambiguous candidates => p.ambiguousOu ou.name candidates
    | .notFound =>
      p.report (.fatal .legacyMismatch ou.name
        ("Cannot find organizational unit \"" ++ ou.name ++ "\" that is used by Landing Zone"))

/-- Every bootstrap role has to have a canonical account. -/
def checkRole (p : Pass) (role : LegacyRole) : Pass :=
  if p.accounts.any (·.role == some role) then p else p.missingRole role role.name

/-- Checks the configuration against a manifest. -/
def checkManifest (i : Input) (m : Manifest) (p : Pass) : Pass :=
  let live := i.tree.ous.map LiveOu.name
  let names := m.ouNames
  let p := checkOuCount live names p
  let p := checkOuNames i.config.ous.keys names p
  let p := checkOusLive live names p
  let p := m.ous.foldl (checkCoreOu i.tree) p
  LegacyRole.all.foldl checkRole p

/-- Checks the configuration against the manifest, if there is one. -/
def reconcileManifest (i : Input) (p : Pass) : Pass :=
  match i.manifest with
  | some m => checkManifest i m p
  | none => p

/-! ### The whole pass -/

/-- What a pass has collected after all its steps. -/
def collected (i : Input) : Pass :=
  let p : Pass := { findings := duplicateEmails i.config }
  reconcileManifest i (reportUnmanaged i (checkLimits i (reconcileAccounts i (reconcileOus i p))))

/-- Makes a pass. -/
def reconcile (i : Input) : Reconciliation :=
  let p := collected i
  { organization :=
      { accounts := p.accounts
        ous := p.ous
        warnings := (p.findings.filter fun f => !f.isFatal).map Finding.message }
    findings := p.findings
    statuses := p.statuses }

end OrgAlign.Reconcile
