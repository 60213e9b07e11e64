import OrgAlign.Proofs.Drift.InPlace
import OrgAlign.Proofs.Drift.Records
import OrgAlign.Proofs.Guard.Outcome
import OrgAlign.Proofs.Pipeline.StageOrder

/-!
# A run with nothing to do

An organization is at rest with a configuration and the records published last when no stage of a
run finds anything to do: nothing to amend, to create, to move, to attach or to detach. Main
statements:

* `AtRest`: what there is to rest;
* `AtRest.prepare`, `AtRest.carryOut`: the two halves of a run;
* `AtRest.run`: a run calls nothing, commits nothing and publishes the same records.
-/

namespace OrgAlign.Pipeline

open Config Drift Files Guard Org Reconcile Convergence

/-- Nothing is to be done in an organization: its hierarchy is as the configuration declares it,
the records published last are those of a clean pass, and every target carries what it is due. -/
structure AtRest (i : Input) (state : PublishedState) (quarantine : Policy) (o : Organization) :
    Prop where
  /-- The units form a hierarchy. -/
  rooted : o.snapshot.Rooted
  /-- The accounts are in it. -/
  housed : o.snapshot.Housed
  /-- The pass looks at the hierarchy that is read. -/
  read : OrgTree.read o = .ok i.tree
  /-- The hierarchy is in step. -/
  inStep : InStep o.snapshot i.tree
  /-- The pass looks at the records and the policies. -/
  previous : i.previous = some state
  /-- It counts the organization's policies. -/
  policies : i.policies = some o
  /-- It finds nothing fatal. -/
  clean : Admissible nothing i
  /-- The records are its accounts. -/
  accounts : state.accounts = accountRecords i
  /-- The records are its units. -/
  ous : state.ous = unitRecords i
  /-- Suspended accounts are in their unit. -/
  placed : outOfPlace i.tree i.config.options.suspendedOu = []
  /-- The primary account is not under the root. -/
  primary : rootPrimary? i.config i.tree = none
  /-- Policies have identifiers of their own. -/
  policyIds : (o.snapshot.policies.map AttachedPolicy.id).Nodup
  /-- The quarantine policy is found. -/
  found : quarantinePolicy i.config o = .ok quarantine
  /-- Every target carries what it is due. -/
  settled : ∀ x ∈ (Plan.compute i.config i.tree).targets,
    Guard.Settled quarantine i.config.options.baselinePolicy o.snapshot x
  /-- Nothing is made to fail. -/
  failing : o.failing = []

namespace AtRest

variable {i : Input} {state : PublishedState} {quarantine : Policy} {s : Site} {o : Options}
  {w : World} {ws : Workspace}

/-- What a run at rest decides upon: to change nothing. -/
def decided (i : Input) (state : PublishedState) (quarantine : Policy) (ws : Workspace) :
    Prepared where
  workspace := ws
  tree := i.tree
  manifest := i.manifest
  previous := some state
  drift := []
  quarantine := quarantine

/-- The pass that a run at rest makes is the clean one. -/
theorem pass_eq (h : AtRest i state quarantine w.org) :
    pass i.config i.tree i.manifest (some state) w.org = reconcile i := by
  obtain ⟨config, tree, manifest, previous, policies⟩ := i
  obtain rfl := h.previous
  obtain rfl := h.policies
  rfl

/-- A run at rest amends nothing. -/
theorem prepare (h : AtRest i state quarantine w.org)
    (hload : load s o w = .ok ⟨ws, i.manifest, i.tree, some state⟩) (hconfig : ws.merged = i.config)
    (hmarked : ∀ a ∈ i.tree.accounts, a.isSuspended = true → ∀ d,
      i.config.accountByEmail? a.email = some d → Marked ws d.key a) :
    Pipeline.prepare s o w = .ok (decided i state quarantine ws) := by
  have hemails : duplicateEmails ws.merged = [] := by
    rw [hconfig]
    refine List.eq_nil_iff_forall_not_mem.2 fun f hf => h.clean.emails f hf
  have hdetect : detect i.tree (some state) ws = (none, ⟨ws, []⟩) :=
    detect_records h.inStep h.rooted h.housed h.accounts h.ous (by rw [hconfig]; exact hmarked)
  have hclean : (reconcile i).hasFatal = false := (hasFatal_eq_false_iff i).2 h.clean
  have hblocking : blocking i.config i.tree (reconcile i) = [] := by
    refine List.eq_nil_iff_forall_not_mem.2 fun f hf => ?_
    obtain ⟨hin, hfatal⟩ := List.mem_filter.1 (List.mem_of_mem_filter hf)
    exact absurd hfatal (List.any_eq_false.1 hclean f hin)
  unfold Pipeline.prepare
  rw [hload]
  change (refuse (duplicateEmails ws.merged)).bind _ = _
  rw [refuse_eq_ok.2 hemails]
  change (followDrift ⟨ws, i.manifest, i.tree, some state⟩).bind _ = _
  have hfollow : followDrift ⟨ws, i.manifest, i.tree, some state⟩ = .ok ⟨ws, []⟩ := by
    unfold followDrift
    simp only [hdetect]
  rw [hfollow]
  change (refuse (blocking ws.merged i.tree
    (pass ws.merged i.tree i.manifest (some state) w.org))).bind _ = _
  rw [hconfig, h.pass_eq, refuse_eq_ok.2 hblocking]
  change ((quarantinePolicy i.config w.org).mapError Failure.ofObstacle).bind _ = _
  rw [h.found]
  rfl

/-- The second look of a run at rest finds what the records say. -/
theorem settle (h : AtRest i state quarantine w.org) (hconfig : ws.merged = i.config) :
    Pipeline.settle (decided i state quarantine ws) w.org =
      .ok ⟨i.tree, (reconcile i).warnings, (reconcile i).organization⟩ := by
  have hclean : (reconcile i).hasFatal = false := (hasFatal_eq_false_iff i).2 h.clean
  have hpass : pass (decided i state quarantine ws).config i.tree
      (decided i state quarantine ws).manifest (decided i state quarantine ws).previous w.org =
        reconcile i := by
    change pass ws.merged i.tree i.manifest (some state) w.org = reconcile i
    rw [hconfig, h.pass_eq]
  rw [settle_of_read h.read, hpass]
  exact if_neg (Bool.not_eq_true _ ▸ hclean)

/-- Convergence at rest changes nothing. -/
theorem converge (h : AtRest i state quarantine w.org) :
    Drift.converge i.config w.org i.tree = ⟨w.org, i.tree, {}⟩ := by
  refine converge_silent (fun r hr => ?_) h.placed h.primary
  obtain ⟨ou, hou⟩ := unitAdmits_nothing.1 (h.clean.units r hr)
  intro hnot
  rw [hnot] at hou
  cases hou

/-- Enforcement at rest changes nothing. -/
theorem enforceWith (h : AtRest i state quarantine w.org) :
    Guard.enforceWith i.config quarantine (Plan.compute i.config i.tree) w.org =
      .ok ⟨w.org, {}⟩ :=
  enforceWith_silent h.policyIds (quarantinePolicy_eq_ok h.found).1 h.failing h.settled

/-- Carrying out at rest changes nothing but the time and the head of the published state. -/
theorem carryOut (h : AtRest i state quarantine w.org) (hconfig : ws.merged = i.config)
    (hchanges : ws.changes = .ok []) (hdry : o.dryRun = false) {disk : Disk}
    (hpublish : publish s (stateOf (reconcile i).organization o.commit o.now) w.disk =
      (.ok (), disk)) :
    Pipeline.carryOut s o (decided i state quarantine ws) w =
      (.ok
        { organization := (reconcile i).organization
          warnings := (reconcile i).warnings
          plan := Plan.compute i.config i.tree
          outcome := some (.unchanged o.commit)
          published := some (stateOf (reconcile i).organization o.commit o.now) },
        { w with disk }) := by
  have hconverge : Drift.converge (decided i state quarantine ws).config w.org
      (decided i state quarantine ws).tree = ⟨w.org, i.tree, {}⟩ := by
    change Drift.converge ws.merged w.org i.tree = _
    rw [hconfig, h.converge]
  have henforce : Guard.enforceWith (decided i state quarantine ws).config
      (decided i state quarantine ws).quarantine
      (Plan.compute (decided i state quarantine ws).config i.tree) w.org = .ok ⟨w.org, {}⟩ := by
    change Guard.enforceWith ws.merged quarantine (Plan.compute ws.merged i.tree) w.org = _
    rw [hconfig, h.enforceWith]
  have hnothing : (decided i state quarantine ws).workspace.changes = .ok [] := hchanges
  have hplan : Plan.compute (decided i state quarantine ws).config i.tree =
      Plan.compute i.config i.tree := congrArg (Plan.compute · i.tree) hconfig
  unfold Pipeline.carryOut
  simp only [hconverge, h.settle hconfig, henforce, hnothing, hdry, Bool.false_eq_true, if_false]
  unfold conclude commit
  simp only [if_true, hpublish, Outcome.commitId, hplan]
  rfl

/-- **A run at rest calls nothing, amends nothing, commits nothing and publishes the same records.**
All that is new is when they were published, and upon which head. -/
theorem run (h : AtRest i state quarantine w.org)
    (hload : load s o w = .ok ⟨ws, i.manifest, i.tree, some state⟩) (hconfig : ws.merged = i.config)
    (hmarked : ∀ a ∈ i.tree.accounts, a.isSuspended = true → ∀ d,
      i.config.accountByEmail? a.email = some d → Marked ws d.key a)
    (hchanges : ws.changes = .ok []) (hdry : o.dryRun = false) {disk : Disk}
    (hpublish : publish s (stateOf (reconcile i).organization o.commit o.now) w.disk =
      (.ok (), disk)) :
    ∃ r, Pipeline.run s o w = (.ok r, { w with disk }) ∧ r.drift = [] ∧ r.changes = [] ∧
      r.outcome = some (.unchanged o.commit) ∧
      ∃ next, r.published = some next ∧ next.accounts = state.accounts ∧ next.ous = state.ous := by
  unfold Pipeline.run
  rw [h.prepare hload hconfig hmarked]
  refine ⟨_, h.carryOut hconfig hchanges hdry hpublish, rfl, rfl, rfl, _, rfl, ?_, ?_⟩
  · rw [h.accounts]
    exact reconcile_accounts i
  · rw [h.ous]
    exact reconcile_ous i

end AtRest

end OrgAlign.Pipeline
