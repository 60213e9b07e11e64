import OrgAlign.Pipeline.Run
import OrgAlign.Proofs.Drift.Steps
import OrgAlign.Proofs.Guard.Steps

/-!
# The stages of a run

What it takes to get past each stage of a run. Main statements:

* `prepare_eq_ok`: what holds when a run was decided upon;
* `settle_of_read`, `settle_eq_ok`: how the second look at the organization ends, and what holds
  when it was clean;
* `carryOut_cases`: how far a run gets after that, and what it leaves behind there;
* `run_eq_ok`: what holds when a run got through.
-/

namespace OrgAlign.Pipeline

open Config Drift Files Guard Org Reconcile

variable {s : Site} {o : Options} {w : World} {p : Prepared}

/-! ### Deciding -/

theorem refuse_eq_ok {findings : List Finding} : refuse findings = .ok () ↔ findings = [] := by
  unfold refuse
  split
  · rename_i h
    simp [h]
  · rename_i h
    simp [h]

/-- Loading is to load the configuration, the manifest, the hierarchy and the state. -/
theorem load_eq_ok {l : Loaded} (h : load s o w = .ok l) :
    Workspace.load (fetch s o w.disk) o.rootPath = .ok l.workspace ∧
      o.manifestPath.mapM (loadManifest (fetch s o w.disk)) = .ok l.manifest ∧
      OrgTree.read w.org = .ok l.tree ∧ s.store.load w.disk = .ok l.previous := by
  unfold load at h
  obtain ⟨ws, hws, h⟩ := bind_eq_ok.1 h
  obtain ⟨manifest, hmanifest, h⟩ := bind_eq_ok.1 h
  obtain ⟨tree, htree, h⟩ := bind_eq_ok.1 h
  obtain ⟨previous, hprevious, h⟩ := bind_eq_ok.1 h
  cases h
  exact ⟨mapError_eq_ok.1 hws, mapError_eq_ok.1 hmanifest, mapError_eq_ok.1 htree,
    mapError_eq_ok.1 hprevious⟩

/-- A run goes ahead only past every check. -/
theorem prepare_eq_ok (h : prepare s o w = .ok p) :
    ∃ l r, load s o w = .ok l ∧ duplicateEmails l.workspace.merged = [] ∧ followDrift l = .ok r ∧
      blocking r.workspace.merged l.tree
        (pass r.workspace.merged l.tree l.manifest l.previous w.org) = [] ∧
      quarantinePolicy r.workspace.merged w.org = .ok p.quarantine ∧
      p.workspace = r.workspace ∧ p.tree = l.tree ∧ p.manifest = l.manifest ∧
      p.previous = l.previous ∧ p.drift = r.findings := by
  unfold prepare at h
  obtain ⟨l, hl, h⟩ := bind_eq_ok.1 h
  obtain ⟨⟨⟩, hemails, h⟩ := bind_eq_ok.1 h
  obtain ⟨r, hr, h⟩ := bind_eq_ok.1 h
  obtain ⟨⟨⟩, hblocking, h⟩ := bind_eq_ok.1 h
  obtain ⟨q, hq, h⟩ := bind_eq_ok.1 h
  cases h
  exact ⟨l, r, hl, refuse_eq_ok.1 hemails, hr, refuse_eq_ok.1 hblocking, mapError_eq_ok.1 hq,
    rfl, rfl, rfl, rfl, rfl⟩

/-! ### Carrying out -/

/-- A run that was decided upon is carried out. -/
theorem run_of_prepare (hp : prepare s o w = .ok p) : run s o w = carryOut s o p w := by
  unfold run
  rw [hp]

/-- The organization after convergence. -/
def converged (p : Prepared) (w : World) : Organization := (converge p.config w.org p.tree).org

/-- The second pass, over a hierarchy read after convergence. -/
def secondPass (p : Prepared) (w : World) (t : OrgTree) : Reconciliation :=
  pass p.config t p.manifest p.previous (converged p w)

/-- Where the organization can be read, the second look ends with what the pass over it found. -/
theorem settle_of_read {org : Organization} {t : OrgTree} (h : OrgTree.read org = .ok t) :
    settle p org =
      if (pass p.config t p.manifest p.previous org).hasFatal then
        .error
          (.validation ((pass p.config t p.manifest p.previous org).errors.map Finding.message))
      else
        .ok ⟨t, (pass p.config t p.manifest p.previous org).warnings,
          (pass p.config t p.manifest p.previous org).organization⟩ := by
  unfold settle
  rw [h]
  change (Except.mapError _ (pass p.config t p.manifest p.previous org).result).bind _ = _
  unfold Reconciliation.result
  split <;> rfl

/-- The second look is clean only if the organization can be read and the second pass finds nothing
fatal. -/
theorem settle_eq_ok {settled : Settled} (h : settle p (converged p w) = .ok settled) :
    OrgTree.read (converged p w) = .ok settled.tree ∧
      (secondPass p w settled.tree).hasFatal = false ∧
      settled.warnings = (secondPass p w settled.tree).warnings ∧
      settled.organization = (secondPass p w settled.tree).organization := by
  unfold settle at h
  obtain ⟨tree, htree, h⟩ := bind_eq_ok.1 h
  obtain ⟨organization, horg, h⟩ := bind_eq_ok.1 h
  cases h
  have hresult := mapError_eq_ok.1 horg
  unfold Reconciliation.result at hresult
  split at hresult
  · cases hresult
  · rename_i hfatal
    cases hresult
    exact ⟨mapError_eq_ok.1 htree, Bool.not_eq_true _ ▸ hfatal, rfl, rfl⟩

/-- What a run reports that got through enforcement. -/
def reportOf (p : Prepared) (w : World) (settled : Settled) (e : Enforcement)
    (changes : List FileChange) : Report :=
  let corrections := (converge p.config w.org p.tree).report
  { organization := settled.organization
    drift := p.drift ++ corrections.findings
    warnings := settled.warnings
    corrections
    plan := Plan.compute p.config settled.tree
    guard := e.report
    changes }

/-- Carrying out stops after convergence, at the start of enforcement or after it, or gets through.
The disk is touched in no case but the last, and there only unless the run is a dry one. -/
theorem carryOut_cases (s : Site) (o : Options) (p : Prepared) (w : World) :
    (∃ e, carryOut s o p w = (.error e, { w with org := converged p w })) ∨
    ∃ settled e, settle p (converged p w) = .ok settled ∧
      enforceWith p.config p.quarantine (Plan.compute p.config settled.tree) (converged p w) =
        .ok e ∧
      ((∃ error, carryOut s o p w = (.error error, { w with org := e.org })) ∨
      ∃ changes, p.workspace.changes = .ok changes ∧
        carryOut s o p w =
          (let report := reportOf p w settled e changes
          let w := { w with org := e.org }
          if o.dryRun then (.ok report, w) else conclude s o report w)) := by
  have hconverged : (converge p.config w.org p.tree).org = converged p w := rfl
  cases hsettle : settle p (converged p w) with
  | error e => exact .inl ⟨e, by simp only [carryOut, hconverged, hsettle]⟩
  | ok settled =>
    cases henforce : enforceWith p.config p.quarantine (Plan.compute p.config settled.tree)
        (converged p w) with
    | error e =>
      exact .inl ⟨.ofObstacle e, by simp only [carryOut, hconverged, hsettle, henforce]⟩
    | ok e =>
      refine .inr ⟨settled, e, rfl, henforce, ?_⟩
      cases hchanges : p.workspace.changes with
      | error error =>
        refine .inl ⟨.config error, ?_⟩
        simp only [carryOut, hconverged, hsettle, henforce, hchanges]
      | ok changes =>
        refine .inr ⟨changes, rfl, ?_⟩
        simp only [carryOut, hconverged, hsettle, henforce, hchanges]
        rfl

/-! ### Concluding -/

/-- Concluding leaves the disk as the commit step left it, or publishes upon that, the commit step
having had an outcome. -/
theorem conclude_cases (s : Site) (o : Options) (r : Report) (w : World) :
    (∃ e, (commit s o r.changes w.disk).1 = .error e ∧
      conclude s o r w = (.error e, { w with disk := (commit s o r.changes w.disk).2 })) ∨
    ∃ outcome, (commit s o r.changes w.disk).1 = .ok outcome ∧
      let published := publish s (stateOf r.organization outcome.commitId o.now)
        (commit s o r.changes w.disk).2
      ((∃ e, published.1 = .error e ∧
        conclude s o r w = (.error e, { w with disk := published.2 })) ∨
      (published.1 = .ok () ∧ conclude s o r w =
        (.ok { r with
          outcome := some outcome
          published := some (stateOf r.organization outcome.commitId o.now) },
          { w with disk := published.2 }))) := by
  rcases hcommit : commit s o r.changes w.disk with ⟨e | outcome, disk⟩
  · exact .inl ⟨e, rfl, by simp only [conclude, hcommit]⟩
  · refine .inr ⟨outcome, rfl, ?_⟩
    rcases hpublish : publish s (stateOf r.organization outcome.commitId o.now) disk with
      ⟨e | ⟨⟩, disk'⟩
    · exact .inl ⟨e, rfl, by simp only [conclude, hcommit, hpublish]⟩
    · exact .inr ⟨rfl, by simp only [conclude, hcommit, hpublish]⟩

/-- Publishing records succeeds iff the store takes the state. -/
theorem publish_eq_ok {state : PublishedState} {d d' : Disk} :
    publish s state d = (.ok (), d') ↔ s.store.publish d state = (.ok (), d') := by
  unfold publish
  rcases s.store.publish d state with ⟨_ | _, d''⟩ <;> simp

/-- A run that is no dry one gets through only past every stage. -/
theorem run_eq_ok {r : Report} {w' : World} (h : run s o w = (.ok r, w'))
    (hdry : o.dryRun = false) :
    ∃ p settled e changes outcome disk, prepare s o w = .ok p ∧
      settle p (converged p w) = .ok settled ∧
      enforceWith p.config p.quarantine (Plan.compute p.config settled.tree) (converged p w) =
        .ok e ∧
      p.workspace.changes = .ok changes ∧ commit s o changes w.disk = (.ok outcome, disk) ∧
      publish s (stateOf settled.organization outcome.commitId o.now) disk = (.ok (), w'.disk) ∧
      w'.org = e.org ∧
      r = { reportOf p w settled e changes with
        outcome := some outcome
        published := some (stateOf settled.organization outcome.commitId o.now) } := by
  unfold run at h
  split at h
  · cases h
  · rename_i p hp
    rcases carryOut_cases s o p w with
      ⟨e, hc⟩ | ⟨settled, e, hsettle, henforce, ⟨error, hc⟩ | ⟨changes, hchanges, hc⟩⟩
    · rw [hc] at h
      cases h
    · rw [hc] at h
      cases h
    · rw [hc] at h
      simp only [hdry, Bool.false_eq_true, if_false] at h
      refine ⟨p, settled, e, changes, ?_⟩
      rcases conclude_cases s o (reportOf p w settled e changes) { w with org := e.org } with
        ⟨error, -, hd⟩ | ⟨outcome, hcommit, ⟨error, -, hd⟩ | ⟨hpublish, hd⟩⟩
      · rw [hd] at h
        cases h
      · rw [hd] at h
        cases h
      · rw [hd] at h
        cases h
        refine ⟨outcome, (commit s o changes w.disk).2, hp, hsettle, henforce, hchanges,
          Prod.ext hcommit rfl, ?_, rfl, rfl⟩
        dsimp only [reportOf] at hpublish ⊢
        rw [← hpublish]

/-- Concluding leaves the organization alone. -/
theorem conclude_org (s : Site) (o : Options) (r : Report) (w : World) :
    (conclude s o r w).2.org = w.org := by
  rcases conclude_cases s o r w with ⟨e, -, h⟩ | ⟨outcome, -, ⟨e, -, h⟩ | ⟨-, h⟩⟩ <;> rw [h]

/-- A commit step has an outcome iff there was nothing to commit, the commit succeeded, or it turned
out to change nothing. -/
theorem commit_eq_ok {changes : List FileChange} {d : Disk} {outcome : Outcome}
    (h : (commit s o changes d).1 = .ok outcome) :
    changes = [] ∨
    (∃ id, (s.repository.commit d o.repository (commitRequest o.commit changes)).1 = .ok id) ∨
    ∃ e, (s.repository.commit d o.repository (commitRequest o.commit changes)).1 = .error e ∧
      e.isNoOp = true := by
  by_cases hnone : changes = []
  · exact .inl hnone
  · refine .inr ?_
    rcases hcommit : s.repository.commit d o.repository (commitRequest o.commit changes) with
      ⟨e | id, disk⟩
    · simp only [commit, hnone, if_false, hcommit] at h
      split at h
      · rename_i hnoop
        exact .inr ⟨e, rfl, hnoop⟩
      · cases h
    · exact .inl ⟨id, rfl⟩

end OrgAlign.Pipeline
