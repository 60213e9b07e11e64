import OrgAlign.Config.Schema
import OrgAlign.Finding
import OrgAlign.Manifest
import OrgAlign.Reconcile.Match
import OrgAlign.State.Published

/-!
# A reconciliation pass

One pass walks every declared unit and account, compares it with the live hierarchy and with what
was published before, and collects findings in the order in which it meets them. It never stops at
the first problem: `Reconciliation.result` turns the fatal findings into one error at the end.

A unit reference and a bootstrap role are reported at most once, so the pass remembers which ones
it has reported.
-/

namespace OrgAlign.Reconcile

open Config Org

/-! ### What a pass collects -/

/-- How a declared account fares. -/
inductive MatchStatus
  | unvalidated
  | matched
  | missingInOrg
  | renamedDetected
  | mismatched
deriving DecidableEq, Repr, Inhabited

/-- What a pass has collected so far. -/
structure Pass where
  /-- The findings, in order. -/
  findings : List Finding := []
  /-- The unit references reported. -/
  reportedOus : List String := []
  /-- The bootstrap roles reported. -/
  reportedRoles : List LegacyRole := []
  /-- The canonical accounts. -/
  accounts : List CanonicalAccount := []
  /-- The canonical units. -/
  ous : List CanonicalOu := []
  /-- How each account fares, in order. -/
  statuses : List (String × MatchStatus) := []
deriving Inhabited

namespace Pass

/-- Adds a finding. -/
def report (p : Pass) (f : Finding) : Pass := { p with findings := p.findings ++ [f] }

/-- Says how an account fares. -/
def status (p : Pass) (key : String) (s : MatchStatus) : Pass :=
  { p with statuses := p.statuses ++ [(key, s)] }

/-- Adds a canonical account. -/
def addAccount (p : Pass) (a : CanonicalAccount) : Pass := { p with accounts := p.accounts ++ [a] }

/-- Adds a canonical unit. -/
def addOu (p : Pass) (o : CanonicalOu) : Pass := { p with ous := p.ous ++ [o] }

/-- Adds a finding about a unit reference, unless the reference was reported. -/
def reportOu (p : Pass) (reference : String) (f : Finding) : Pass :=
  if p.reportedOus.contains reference then p
  else { p.report f with reportedOus := reference :: p.reportedOus }

/-- Adds a finding about a bootstrap role, unless the role was reported. -/
def reportRole (p : Pass) (role : LegacyRole) (f : Finding) : Pass :=
  if p.reportedRoles.contains role then p
  else { p.report f with reportedRoles := role :: p.reportedRoles }

/-- A unit reference resolves to nothing. -/
def missingOu (p : Pass) (reference : String) : Pass :=
  p.reportOu reference (.fatal .missingOu reference
    ("Cannot find organizational unit \"" ++ reference ++ "\" that is used by the configuration"))

/-- A unit reference resolves to several units. -/
def ambiguousOu (p : Pass) (reference : String) (candidates : List LiveOu) : Pass :=
  p.reportOu reference (.fatal .ambiguousOu reference
    ("Organizational unit \"" ++ reference ++ "\" is ambiguous: it matches " ++
      String.intercalate ", " (candidates.map LiveOu.path)))

/-- No account has a bootstrap role. -/
def missingRole (p : Pass) (role : LegacyRole) (subject : String) : Pass :=
  p.reportRole role (.fatal .missingLegacyAccount subject
    ("Could not find Landing Zone account of type \"" ++ role.name ++ "\""))

end Pass

/-- The outcome of a pass. -/
structure Reconciliation where
  /-- The canonical records. -/
  organization : CanonicalOrganization
  /-- Errors and warnings in the order in which they were met. -/
  findings : List Finding
  /-- How each account fares. -/
  statuses : List (String × MatchStatus)
deriving Inhabited

namespace Reconciliation

/-- The findings that stop the work. -/
def errors (r : Reconciliation) : List Finding := r.findings.filter Finding.isFatal

/-- The other findings. -/
def warnings (r : Reconciliation) : List Finding := r.findings.filter fun f => !f.isFatal

/-- Some finding stops the work. -/
def hasFatal (r : Reconciliation) : Bool := r.findings.any Finding.isFatal

/-- How an account fares. -/
def status (r : Reconciliation) (key : String) : MatchStatus :=
  ((r.statuses.find? (·.1 == key)).map Prod.snd).getD .unvalidated

/-- The canonical records, or the messages of all fatal findings. -/
def result (r : Reconciliation) : Except (List String) CanonicalOrganization :=
  if r.hasFatal then .error (r.errors.map Finding.message) else .ok r.organization

end Reconciliation

/-! ### Input -/

/-- What a pass looks at. -/
structure Input where
  /-- The configuration. -/
  config : Configuration
  /-- The live hierarchy. -/
  tree : OrgTree
  /-- The bootstrap manifest, if there is one. -/
  manifest : Option Manifest := none
  /-- What was published before. -/
  previous : Option PublishedState := none
  /-- The organization, if policy limits are to be checked. -/
  policies : Option Organization := none

/-! ### E-mail addresses -/

/-- Findings for active accounts whose e-mail address an earlier one has. The accounts passed are
kept with their addresses in lower case. -/
def duplicatesFrom (seen : List (String × String)) : List Declared → List Finding
  | [] => []
  | d :: ds =>
    let email := Text.lower d.entry.email
    match seen.find? (·.1 == email) with
    | some (_, first) =>
      .fatal .duplicateEmail d.key
        ("Accounts \"" ++ first ++ "\" and \"" ++ d.key ++ "\" share the email \"" ++
          d.entry.email ++ "\"") :: duplicatesFrom seen ds
    | none => duplicatesFrom (seen ++ [(email, d.key)]) ds

/-- Findings for active accounts that share an e-mail address. -/
def duplicateEmails (c : Configuration) : List Finding := duplicatesFrom [] c.accounts

/-! ### Units -/

/-- Looks at one declared unit. -/
def reconcileOu (tree : OrgTree) (p : Pass) (reference : String) : Pass :=
  match matchOu reference tree.ous with
  | .found ou _ => p.addOu ⟨ou.id, ou.name, reference, ou.path⟩
  | .ambiguous candidates => p.ambiguousOu reference candidates
  | .notFound => p.missingOu reference

/-- Looks at every declared unit. -/
def reconcileOus (i : Input) (p : Pass) : Pass :=
  i.config.declaredPaths.foldl (reconcileOu i.tree) p

/-! ### Accounts -/

/-- The canonical record of a declared account. -/
def canonical (d : Declared) (cloudId : Option String) : CanonicalAccount :=
  { key := d.key
    cloudId
    name := d.entry.name
    email := d.entry.email
    ou := d.entry.ou
    ouPath := d.entry.path
    isMandatory := d.isMandatory
    role := d.entry.role }

/-- The account is declared as the primary one. -/
def isPrimary (d : Declared) : Bool := d.entry.role = some .primary

/-- The record of an account published before that has an identifier. -/
def recorded? (previous : Option PublishedState) (key : String) :
    Option (CanonicalAccount × String) :=
  (previous.bind fun s => s.accounts.find? (·.key == key)).bind fun a =>
    a.cloudId.map (a, ·)

/-- Looks at a declared account whose e-mail address no live account has. It was renamed, has gone,
or does not exist yet. -/
def reconcileAbsent (i : Input) (p : Pass) (d : Declared) : Pass :=
  match recorded? i.previous d.key with
  | some (before, id) =>
    let p := match i.tree.accountById? id with
      | some live =>
        (p.report (.fatal .renamedAccount d.key
          ("Account \"" ++ d.key ++ "\" (" ++ id ++ ") changed in the organization: \"" ++
            before.name ++ "\" <" ++ before.email ++ "> is now \"" ++ live.name ++ "\" <" ++
            live.email ++ ">"))).status d.key .renamedDetected
      | none =>
        (p.report (.fatal .staleAccountRecord d.key
          ("Invalid Account Configuration found for account " ++ d.key))).status d.key
          .missingInOrg
    match d.entry.role with
    | some role => p.missingRole role d.key
    | none => p
  | none =>
    let p := p.status d.key .missingInOrg
    match d.entry.role with
    | some role => p.missingRole role d.key
    | none => p.addAccount (canonical d none)

/-- Looks at a declared account whose unit and live account are known. -/
def reconcilePresent (p : Pass) (d : Declared) (ou : LiveOu) (live : LiveAccount) : Pass :=
  let accept (p : Pass) : Pass :=
    (p.status d.key .matched).addAccount (canonical d (some live.id))
  if live.isSuspended then
    accept (p.report (.warning .suspendedAccount d.key
      ("Account \"" ++ d.key ++ "\" (" ++ live.id ++ ") is suspended in the organization")))
  else if live.parent ≠ ou.id then
    (p.report (.fatal .ouMembershipMismatch d.key
      ("The account with name \"" ++ d.entry.name ++ "\" is not in OU \"" ++ d.entry.path ++
        "\"."))).status d.key .mismatched
  else if !isPrimary d && live.name ≠ d.entry.name then
    (p.report (.fatal .nameMismatch d.key
      ("The account name for account with email \"" ++ d.entry.email ++
        "\" does not match the name in the configuration.\n\"" ++ live.name ++ "\" != \"" ++
        d.entry.name ++ "\""))).status d.key .mismatched
  else accept p

/-- Looks at one declared account. -/
def reconcileAccount (i : Input) (p : Pass) (d : Declared) : Pass :=
  let path := d.entry.path
  if i.config.options.isIgnored (Path.topLevel path) then
    (p.report (.fatal .ignoredOuAccount d.key
      ("Account \"" ++ d.key ++ "\" is declared in ignored organizational unit \"" ++ path ++
        "\""))).status d.key .mismatched
  else match matchOu path i.tree.ous with
    | .ambiguous candidates => (p.ambiguousOu path candidates).status d.key .mismatched
    | .notFound => (p.missingOu path).status d.key .mismatched
    | .found ou _ =>
      match matchAccount? d.entry.email i.tree.accounts with
      | none => reconcileAbsent i p d
      | some live => reconcilePresent p d ou live

/-- Looks at every active account. -/
def reconcileAccounts (i : Input) (p : Pass) : Pass :=
  i.config.accounts.foldl (reconcileAccount i) p

/-! ### Policy limits -/

/-- How many policies the organization allows on one target. -/
def policyLimit : Nat := 5

/-- A target whose policies are counted. -/
structure LimitTarget where
  /-- What it is called in a message. -/
  label : String
  /-- Its key in the configuration. -/
  key : String
  /-- Its identifier. -/
  id : String
  /-- The policies declared for it. -/
  scps : List String

/-- The declared units and accounts that were found. -/
def limitTargets (c : Configuration) (p : Pass) : List LimitTarget :=
  let ous := c.ous.entries.filterMap fun e =>
    (p.ous.find? (·.logicalKey == e.1)).map fun o => ⟨"OU", e.1, o.id, e.2.scps⟩
  let accounts := c.accounts.filterMap fun d =>
    ((p.accounts.find? (·.key == d.key)).bind CanonicalAccount.cloudId).map fun id =>
      ⟨"Account", d.key, id, d.entry.scps⟩
  ous ++ accounts

/-- A policy that counts against the limit. The quarantine policy does not: it never stays on a
declared target. -/
def countsAgainstLimit (g : GlobalOptions) (policy : Policy) : Bool :=
  !g.managesPolicy policy.name && policy.name ≠ g.quarantinePolicy

/-- Counts the policies of one target. A target whose policies cannot be listed is passed over. -/
def checkLimit (g : GlobalOptions) (o : Organization) (p : Pass) (t : LimitTarget) : Pass :=
  match o.policiesFor t.id with
  | .error _ => p
  | .ok attached =>
    let unmanaged := (attached.filter (countsAgainstLimit g)).length
    if policyLimit < unmanaged + t.scps.length then
      p.report (.fatal .policyLimitExceeded t.key
        ("Max Allowed SCPs for " ++ t.label ++ " \"" ++ t.key ++ "\" is " ++
          toString policyLimit ++ ", found already attached scps count " ++
          toString unmanaged ++ " and configured scps " ++ toString t.scps.length ++ " => " ++
          String.intercalate ", " t.scps))
    else p

/-- Counts the policies of every declared target. -/
def checkLimits (i : Input) (p : Pass) : Pass :=
  match i.policies with
  | some o => (limitTargets i.config p).foldl (checkLimit i.config.options o) p
  | none => p

/-! ### Accounts that nobody declared -/

/-- A unit whose accounts nobody has to declare: it is ignored, or the one of suspended
accounts. -/
def isExempt (g : GlobalOptions) (path : String) : Bool :=
  let top := Path.topLevel path
  g.isIgnored top || top = g.suspendedOu

/-- The warning about a live account that nobody declared, unless it is suspended or exempt. -/
def unmanaged? (c : Configuration) (t : OrgTree) (a : LiveAccount) : Option Finding :=
  let location := t.parentPath? a
  if a.isSuspended || (c.accountByEmail? a.email).isSome || location.any (isExempt c.options) then
    none
  else
    some (.warning .unmanagedAccount a.id
      ("Account \"" ++ a.name ++ "\" <" ++ a.email ++ "> under \"" ++ location.getD "root" ++
        "\" is not described by the configuration"))

/-- Warns about every live account that nobody declared. -/
def reportUnmanaged (i : Input) (p : Pass) : Pass :=
  (i.tree.accounts.filterMap (unmanaged? i.config i.tree)).foldl Pass.report p

end OrgAlign.Reconcile
