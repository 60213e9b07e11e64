import OrgAlign.Drift.Converge
import OrgAlign.Drift.Detect
import OrgAlign.Guard.Enforce
import OrgAlign.Pipeline.Publish
import OrgAlign.Reconcile.Legacy

/-!
# A run

`validate` loads everything and makes one pass. `run` does the work in two halves:

* `prepare` decides without touching anything: no two accounts share an e-mail address, the
  configuration follows the organization without a conflict, every fatal finding is one that
  convergence puts right, and the quarantine policy exists.
* `carryOut` changes the organization, looks at it afresh, and only then commits the configuration
  and publishes the records.

Whatever a run changed before it failed stays changed, so its answer always holds the world that it
leaves behind.
-/

namespace OrgAlign.Pipeline

open Config Drift Files Guard Org Reconcile

/-- What a run did. -/
structure Report where
  /-- The canonical records. -/
  organization : CanonicalOrganization := {}
  /-- What was amended in the configuration and put right in the organization. -/
  drift : List Finding := []
  /-- The warnings of the last pass. -/
  warnings : List Finding := []
  /-- What convergence did. -/
  corrections : Corrections := {}
  /-- The guard plan. -/
  plan : Plan := {}
  /-- What enforcing it did. -/
  guard : Guard.Report := {}
  /-- The changes to configuration files. -/
  changes : List FileChange := []
  /-- What became of the configuration, if it was committed. -/
  outcome : Option Outcome := none
  /-- The state, if it was published. -/
  published : Option PublishedState := none

/-- How many changes were made to the organization. -/
def Report.mutations (r : Report) : Nat :=
  r.corrections.created.length + r.corrections.moved.length + r.guard.mutations

/-! ### Passes -/

/-- Makes a pass that checks policy limits, too. -/
def pass (config : Configuration) (tree : OrgTree) (manifest : Option Manifest)
    (previous : Option PublishedState) (org : Organization) : Reconciliation :=
  reconcile { config, tree, manifest, previous, policies := some org }

/-- Loads everything and makes a pass. -/
def validate (s : Site) (o : Options) (w : World) : Except Failure Reconciliation :=
  (load s o w).map fun l => pass l.workspace.merged l.tree l.manifest l.previous w.org

/-! ### Deciding -/

/-- Convergence puts a finding right: it creates missing units, and it moves the primary account
out of the root. -/
def isCorrectable (rootPrimary : Option String) (f : Finding) : Bool :=
  match f.kind with
  | .missingOu => true
  | .ouMembershipMismatch => rootPrimary = some f.subject
  | _ => false

/-- The fatal findings of a pass that convergence cannot put right. -/
def blocking (config : Configuration) (tree : OrgTree) (first : Reconciliation) : List Finding :=
  first.errors.filter fun f =>
    !isCorrectable ((Convergence.rootPrimary? config tree).map Prod.fst) f

/-- Findings stop a run. -/
def refuse (findings : List Finding) : Except Failure Unit :=
  if findings = [] then .ok () else .error (.validation (findings.map Finding.message))

/-- What a run decided upon. -/
structure Prepared where
  /-- The amended configuration. -/
  workspace : Workspace
  /-- The live hierarchy before any change. -/
  tree : OrgTree
  /-- The bootstrap manifest. -/
  manifest : Option Manifest
  /-- The state published last. -/
  previous : Option PublishedState
  /-- What was amended in the configuration. -/
  drift : List Finding
  /-- The quarantine policy. -/
  quarantine : Policy

/-- The merged view of the amended configuration. -/
def Prepared.config (p : Prepared) : Configuration := p.workspace.merged

/-- Amends the configuration after the organization. -/
def followDrift (l : Loaded) : Except Failure Amendment :=
  match detect l.tree l.previous l.workspace with
  | (none, r) => .ok r
  | (some e, _) => .error (.config e)

/-- Loads everything and decides whether the run goes ahead. -/
def prepare (s : Site) (o : Options) (w : World) : Except Failure Prepared := do
  let l ← load s o w
  refuse (duplicateEmails l.workspace.merged)
  let r ← followDrift l
  let config := r.workspace.merged
  refuse (blocking config l.tree (pass config l.tree l.manifest l.previous w.org))
  let quarantine ← (quarantinePolicy config w.org).mapError Failure.ofObstacle
  pure
    { workspace := r.workspace, tree := l.tree, manifest := l.manifest, previous := l.previous
      drift := r.findings, quarantine }

/-! ### Carrying out -/

/-- What the second look at the organization gives. -/
structure Settled where
  /-- The hierarchy after convergence. -/
  tree : OrgTree
  /-- The warnings. -/
  warnings : List Finding
  /-- The canonical records. -/
  organization : CanonicalOrganization

/-- Looks at the organization again after convergence. -/
def settle (p : Prepared) (org : Organization) : Except Failure Settled := do
  let tree ← (OrgTree.read org).mapError Failure.ofReadError
  let second := pass p.config tree p.manifest p.previous org
  let organization ← second.result.mapError Failure.validation
  pure { tree, warnings := second.warnings, organization }

/-- Commits the configuration and publishes the records. -/
def conclude (s : Site) (o : Options) (r : Report) (w : World) : Except Failure Report × World :=
  match commit s o r.changes w.disk with
  | (.error e, disk) => (.error e, { w with disk })
  | (.ok outcome, disk) =>
    let state := stateOf r.organization outcome.commitId o.now
    match publish s state disk with
    | (.error e, disk) => (.error e, { w with disk })
    | (.ok _, disk) =>
      (.ok { r with outcome := some outcome, published := some state }, { w with disk })

/-- Brings the organization in line, enforces the guard plan, and concludes unless the run is a dry
one. -/
def carryOut (s : Site) (o : Options) (p : Prepared) (w : World) : Except Failure Report × World :=
  let c := converge p.config w.org p.tree
  let w := { w with org := c.org }
  match settle p w.org with
  | .error e => (.error e, w)
  | .ok settled =>
    let plan := Plan.compute p.config settled.tree
    match enforceWith p.config p.quarantine plan w.org with
    | .error e => (.error (.ofObstacle e), w)
    | .ok enforcement =>
      let w := { w with org := enforcement.org }
      match p.workspace.changes with
      | .error e => (.error (.config e), w)
      | .ok changes =>
        let report : Report :=
          { organization := settled.organization
            drift := p.drift ++ c.report.findings
            warnings := settled.warnings
            corrections := c.report
            plan
            guard := enforcement.report
            changes }
        if o.dryRun then (.ok report, w) else conclude s o report w

/-- Makes a run. -/
def run (s : Site) (o : Options) (w : World) : Except Failure Report × World :=
  match prepare s o w with
  | .error e => (.error e, w)
  | .ok p => carryOut s o p w

end OrgAlign.Pipeline
