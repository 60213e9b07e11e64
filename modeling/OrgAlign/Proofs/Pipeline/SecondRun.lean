import OrgAlign.Proofs.Guard.Limits
import OrgAlign.Proofs.Guard.Plan
import OrgAlign.Proofs.Pipeline.AtRest
import OrgAlign.Proofs.Pipeline.SecondPass
import OrgAlign.Proofs.Reconcile.Repeated
import OrgAlign.Proofs.State.Store

/-!
# What a run leaves is at rest

A run that gets through without a failure leaves the organization at rest, so that a second run
upon the files it committed has nothing to do. Main statements:

* `Reread.placed`: the suspended accounts are in their unit, the primary account is not in the root;
* `atRest_of_run`: the organization is at rest afterwards;
* `Reloads`, `AllMarked`: what has to be found in the files again;
* `run_idempotent`: exactly then the second run is `Silent`: it calls nothing and publishes the same
  records.
-/

namespace OrgAlign.Pipeline

open Config Drift Files Guard Org Reconcile Convergence

variable {s : Site} {o : Options} {w : World} {p : Prepared} {t : OrgTree}

namespace Reread

/-- The hierarchy that was read is in step with the organization that convergence left. -/
theorem tracks (h : Reread p w t) : (⟨converged p w, t, {}⟩ : Convergence).Tracks :=
  ⟨h.after.rooted, h.after.housed, h.inStep⟩

/-- No account has the identifier of a unit, not even of one that convergence created. -/
theorem accounts_apart (h : Reread p w t) (hw : w.org.snapshot.WellFormed) :
    ∀ a ∈ (converged p w).snapshot.accounts, ∀ ou ∈ t.ous, a.id ≠ ou.id := by
  intro a ha ou hou heq
  obtain ⟨b, hb, hmoved⟩ := h.frame.exists_before ha
  have hid : b.id = ou.id := hmoved.same.1.symm.trans heq
  rw [h.ous_eq] at hou
  rcases h.frame.generated ou hou with hold | ⟨n, hn⟩
  · rw [h.before.inStep.ous] at hold
    obtain ⟨node, hnode, rfl⟩ := List.mem_map.1 hold
    have hapart := (List.nodup_append.1 hw.targets).2.2
    exact hapart node.id (List.mem_append_right _ (List.mem_map_of_mem hnode)) b.id
      (List.mem_map_of_mem hb) hid.symm
  · exact hw.accountsApart b hb n (hid.trans hn)

/-- The root is the one that convergence worked with. -/
theorem rootId_eq (h : Reread p w t) :
    t.rootId = (converge p.config w.org p.tree).tree.rootId :=
  Option.some.inj (h.inStep.root.symm.trans h.after.inStep.root)

/-- After convergence without a failure, the suspended accounts are in their unit, and the primary
account is not under the root. -/
theorem placed (h : Reread p w t) (hemails : w.org.snapshot.DistinctEmails)
    (hkeys : KeysApart p.config) (hproper : Path.Proper p.config.options.suspendedOu)
    (hnone : (converge p.config w.org p.tree).report.failures = []) :
    outOfPlace t p.config.options.suspendedOu = [] ∧ rootPrimary? p.config t = none := by
  obtain ⟨hplaced, hprimary⟩ := converge_inPlace h.before hemails hproper
    (fun d hd => hkeys.account? (List.mem_filter.1 (List.mem_of_find?_eq_some hd)).1) hnone
  constructor
  · refine List.eq_nil_iff_forall_not_mem.2 fun a ha => ?_
    obtain ⟨hin, hsuspended, hnot⟩ := h.tracks.mem_outOfPlace.1 ha
    obtain ⟨ou, hou, hunit⟩ := hplaced a hin hsuspended
    exact hnot ⟨ou, h.ous_eq ▸ hou, hunit⟩
  · refine Option.eq_none_iff_forall_not_mem.2 ?_
    rintro ⟨key, live⟩ hlive
    have hafter := (rootPrimary?_eq_some_iff h.tracks (h.distinctEmails hemails)).1 hlive
    have hbefore : rootPrimary? p.config (converge p.config w.org p.tree).tree = some (key, live) :=
      (rootPrimary?_eq_some_iff h.after (h.distinctEmails hemails)).2 (h.rootId_eq ▸ hafter)
    rw [hprimary] at hbefore
    cases hbefore

/-- Policies keep identifiers of their own. -/
theorem policyIds (h : Reread p w t) (hw : w.org.snapshot.WellFormed) :
    ((converged p w).snapshot.policies.map AttachedPolicy.id).Nodup := by
  have hpolicies : (converged p w).snapshot.policies = w.org.snapshot.policies := h.frame.policies
  rw [hpolicies]
  exact hw.policyIds

/-- The quarantine policy is found after convergence, too. -/
theorem quarantinePolicy (h : Reread p w t) (hp : prepare s o w = .ok p) :
    Guard.quarantinePolicy p.config (converged p w) = .ok p.quarantine := by
  obtain ⟨l, r, -, -, -, -, hquarantine, hwork, -⟩ := prepare_eq_ok hp
  have hcatalog : (converged p w).snapshot.catalog = w.org.snapshot.catalog :=
    congrArg (List.map AttachedPolicy.policy) h.frame.policies
  unfold Prepared.config
  rw [hwork, quarantinePolicy_congr hcatalog]
  exact hquarantine

/-- The targets of the plan are there, each once. -/
theorem plan_targets (h : Reread p w t) (hw : w.org.snapshot.WellFormed) :
    (∀ x ∈ (Plan.compute p.config t).targets, (converged p w).snapshot.isTarget x.id = true) ∧
      ((Plan.compute p.config t).targets.map Target.id).Nodup :=
  ⟨fun _ hx => Plan.isTarget_of_mem h.inStep hx,
    Plan.nodup_targets h.inStep h.after.rooted.ids (h.accounts_apart hw)⟩

end Reread

/-! ### At rest -/

/-- **A run that gets through leaves the organization at rest**, if no correction failed, nothing is
made to fail, and the path of the unit of suspended accounts is a proper one. -/
theorem atRest_of_run {settled : Pipeline.Settled} {e : Enforcement} {state : PublishedState}
    {after : Organization} (hp : prepare s o w = .ok p) (hw : w.org.snapshot.WellFormed)
    (hemails : w.org.snapshot.DistinctEmails) (hfailing : w.org.failing = [])
    (hkeys : KeysApart p.config) (hproper : Path.Proper p.config.options.suspendedOu)
    (hnone : (converge p.config w.org p.tree).report.failures = [])
    (hsettle : settle p (converged p w) = .ok settled)
    (henforce : enforceWith p.config p.quarantine (Plan.compute p.config settled.tree)
      (converged p w) = .ok e)
    (haccounts : state.accounts = settled.organization.accounts)
    (hous : state.ous = settled.organization.ous) (hsame : after.snapshot = e.org.snapshot)
    (hstill : after.failing = []) :
    AtRest ((secondInput p w settled.tree).after state after) state p.quarantine after := by
  obtain ⟨hread, hclean, -, horganization⟩ := settle_eq_ok hsettle
  obtain ⟨t, hagain, h⟩ := exists_reread hp hw
  obtain rfl : t = settled.tree := Except.ok.inj (hagain.symm.trans hread)
  have hfailing₁ : (converged p w).failing = [] :=
    ((issued_converge p.config w.org p.tree).failing_eq).trans hfailing
  have hids := h.policyIds hw
  have hfound := h.quarantinePolicy hp
  have hpresent := (quarantinePolicy_eq_ok hfound).1
  obtain ⟨htargets, honce⟩ := h.plan_targets hw
  obtain ⟨harranged, -⟩ := enforceWith_carries henforce hids hpresent htargets honce
  rw [← hsame] at harranged
  have hfirst : Admissible nothing (secondInput p w settled.tree) :=
    (hasFatal_eq_false_iff (secondInput p w settled.tree)).1 hclean
  have hnodup : (p.config.accounts.map Declared.key).Nodup :=
    hkeys.nodup_keys.sublist (List.filter_sublist.map Declared.key)
  have hrecords : state.accounts = accountRecords (secondInput p w settled.tree) := by
    rw [haccounts, horganization]
    exact reconcile_accounts (secondInput p w settled.tree)
  have hunits : state.ous = unitRecords (secondInput p w settled.tree) := by
    rw [hous, horganization]
    exact reconcile_ous (secondInput p w settled.tree)
  obtain ⟨hplaced, hprimary⟩ := h.placed hemails hkeys hproper hnone
  have hlimits : ∀ id scps, WithinLimit p.config.options (converged p w) id scps →
      WithinLimit p.config.options after id scps := by
    intro id scps hbefore
    have henforced : e.org.failing = [] := (issued_enforceWith henforce).failing_eq.trans hfailing₁
    apply (withinLimit_congr (congrArg Snapshot.policies hsame) (hstill.trans henforced.symm)).2
    exact withinLimit_of_enforceWith henforce hfound hids htargets honce hbefore
  exact
    { rooted := harranged.rooted h.after.rooted
      housed := harranged.housed h.after.housed
      read := (read_rearranged harranged).trans hread
      inStep := harranged.inStep h.inStep
      previous := rfl
      policies := rfl
      clean := hfirst.after hnodup hrecords rfl hlimits
      accounts := hrecords.trans (accountRecords_after hfirst hnodup hrecords).symm
      ous := hunits
      placed := hplaced
      primary := hprimary
      policyIds := harranged.policyIds hids
      found := (quarantinePolicy_congr harranged.catalog).trans hfound
      settled := by
        rw [hsame]
        exact enforceWith_settles henforce hids hpresent htargets honce hfailing₁
      failing := hstill }

/-! ### The files -/

/-- Following the organization goes through if there is no conflict. -/
theorem followDrift_eq_ok {l : Loaded} {r : Amendment} (h : followDrift l = .ok r) :
    detect l.tree l.previous l.workspace = (none, r) := by
  unfold followDrift at h
  split at h
  · rename_i hdetect
    cases h
    exact hdetect
  · cases h

/-- What a run goes ahead with declares no key in both account sections if that is so for what was
loaded, and has the same options. -/
theorem loaded_of_prepare {l : Loaded} (hl : load s o w = .ok l) (hp : prepare s o w = .ok p)
    (hkeys : KeysApart l.workspace.merged) :
    KeysApart p.config ∧ p.config.options = l.workspace.merged.options := by
  obtain ⟨l', r, hl', -, hr, -, -, hwork, -⟩ := prepare_eq_ok hp
  obtain rfl : l' = l := Except.ok.inj (hl'.symm.trans hl)
  unfold Prepared.config
  rw [hwork]
  exact ⟨(detect_keys (followDrift_eq_ok hr)).keysApart hkeys,
    detect_options (followDrift_eq_ok hr)⟩

/-- The configuration that a run commits has every suspended account marked. -/
theorem Reread.marked {l : Loaded} (h : Reread p w t) (hl : load s o w = .ok l)
    (hp : prepare s o w = .ok p) (hemails : w.org.snapshot.DistinctEmails)
    (hkeys : KeysApart l.workspace.merged) {a : LiveAccount} (ha : a ∈ t.accounts)
    (hsuspended : a.isSuspended = true) {d : Declared}
    (hd : p.config.accountByEmail? a.email = some d) : Marked p.workspace d.key a := by
  obtain ⟨l', r, hl', -, hr, -, -, hwork, htree, -⟩ := prepare_eq_ok hp
  obtain rfl : l' = l := Except.ok.inj (hl'.symm.trans hl)
  obtain ⟨b, hb, hmoved⟩ := h.frame.exists_before (h.inStep.mem_accounts.1 ha)
  obtain ⟨-, hname, hemail, hstate⟩ := hmoved.same
  have hin : b ∈ p.tree.accounts := h.before.inStep.mem_accounts.2 hb
  unfold Prepared.config at hd
  rw [hemail, hwork] at hd
  rw [htree] at hin
  have hmarked : Marked r.workspace d.key b := by
    refine detect_marks (followDrift_eq_ok hr) hkeys (fun x hx y hy hsame => ?_) hin
      (hstate.symm.trans hsuspended) hd
    rw [← htree] at hx hy
    exact hemails.eq (h.before.inStep.mem_accounts.1 hx) (h.before.inStep.mem_accounts.1 hy) hsame
  unfold Marked at hmarked ⊢
  rw [hwork, hname, hemail]
  exact hmarked

/-- What is to be found in the files again: the same merged configuration, and the same manifest. -/
structure Reloads (s : Site) (o : Options) (d : Disk) (p : Prepared) (ws : Workspace) : Prop where
  /-- The files can be read. -/
  loaded : Workspace.load (fetch s o d) o.rootPath = .ok ws
  /-- The merged configuration is the one that the run had. -/
  merged : ws.merged = p.config
  /-- The manifest is the one that the run had. -/
  manifest : o.manifestPath.mapM (loadManifest (fetch s o d)) = .ok p.manifest

/-- Every entry that stands for a suspended account is marked, in every file that has one. -/
def AllMarked (c : Configuration) (ws : Workspace) (o : Organization) : Prop :=
  ∀ a ∈ o.snapshot.accounts, a.isSuspended = true →
    ∀ d, c.accountByEmail? a.email = some d → Marked ws d.key a

/-- A run that calls nothing, not even in vain, reports no drift and no changes, leaves the
configuration at its head and publishes the records published last. -/
def Silent (s : Site) (o : Options) (w : World) (state : PublishedState) : Prop :=
  ∃ r disk, run s o w = (.ok r, { w with disk }) ∧ w.org.calls = [] ∧ r.drift = [] ∧
    r.changes = [] ∧ r.outcome = some (.unchanged o.commit) ∧
    ∃ next, r.published = some next ∧ next.accounts = state.accounts ∧ next.ous = state.ous

/-- What a silent run loaded had every suspended account marked. -/
theorem Silent.marked {state : PublishedState} {ws : Workspace} (h : Silent s o w state)
    (hdry : o.dryRun = false) (hws : Workspace.load (fetch s o w.disk) o.rootPath = .ok ws)
    (ht : OrgTree.read w.org = .ok t) {a : LiveAccount} (ha : a ∈ t.accounts)
    (hsuspended : a.isSuspended = true) {d : Declared}
    (hd : ws.merged.accountByEmail? a.email = some d) : Marked ws d.key a := by
  obtain ⟨r, disk, hrun, -, hdrift, -⟩ := h
  obtain ⟨p, settled, e, changes, outcome, disk', hp, -, -, -, -, -, -, rfl⟩ := run_eq_ok hrun hdry
  obtain ⟨l, q, hl, -, hq, -, -, -, -, -, -, hfindings⟩ := prepare_eq_ok hp
  obtain ⟨hloaded, -, hread, -⟩ := load_eq_ok hl
  obtain rfl : l.workspace = ws := Except.ok.inj (hloaded.symm.trans hws)
  obtain rfl : l.tree = t := Except.ok.inj (hread.symm.trans ht)
  have hnone : p.drift = [] := (List.append_eq_nil_iff.1 hdrift).1
  exact detect_marked (followDrift_eq_ok hq) (hfindings.symm.trans hnone) ha hsuspended hd

/-- **A full run is idempotent.** A run that is no dry one gets through without a failed correction
in a well-formed organization, and the files that it leaves hold the merged configuration and the
manifest that it had. A second run upon them is silent iff all entries for suspended accounts are
still marked there, and they are if no file has an entry that the run did not have. -/
theorem run_idempotent (s : Site) (o o' : Options) (w w' : World) (l : Loaded) (p : Prepared)
    (r : Report) (ws : Workspace) (hl : load s o w = .ok l) (hp : prepare s o w = .ok p)
    (hrun : run s o w = (.ok r, w')) (hdry : o.dryRun = false)
    (hfailures : r.corrections.failures = []) (hw : w.org.snapshot.WellFormed)
    (hemails : w.org.snapshot.DistinctEmails) (hfailing : w.org.failing = [])
    (hkeys : KeysApart l.workspace.merged)
    (hproper : Path.Proper l.workspace.merged.options.suspendedOu)
    (htime : o.now.Valid) (hreload : Reloads s o' w'.disk p ws) (hdry' : o'.dryRun = false) :
    ∃ state, r.published = some state ∧
      (Silent s o' { w' with org := w'.org.clearCalls } state ↔ AllMarked p.config ws w'.org) ∧
      ((∀ part key, ∀ a ∈ ws.entriesAt part key, a ∈ p.workspace.entriesAt part key) →
        AllMarked p.config ws w'.org) := by
  obtain ⟨p', settled, e, changes, outcome, disk, hp', hsettle, henforce, -, -, hpublish, horg,
    hr⟩ := run_eq_ok hrun hdry
  obtain rfl : p = p' := Except.ok.inj (hp.symm.trans hp')
  subst hr
  obtain ⟨hkeys', hoptions⟩ := loaded_of_prepare hl hp hkeys
  obtain ⟨hread, -⟩ := settle_eq_ok hsettle
  obtain ⟨t, hagain, h⟩ := exists_reread hp hw
  obtain rfl : t = settled.tree := Except.ok.inj (hagain.symm.trans hread)
  let state : PublishedState := stateOf settled.organization outcome.commitId o.now
  let i : Input := (secondInput p w settled.tree).after state w'.org.clearCalls
  have hstill : w'.org.clearCalls.failing = [] := by
    have hissued : w'.org.failing = (converged p w).failing :=
      horg ▸ (issued_enforceWith henforce).failing_eq
    exact (hissued.trans (issued_converge p.config w.org p.tree).failing_eq).trans hfailing
  have hsame : w'.org.clearCalls.snapshot = e.org.snapshot := by
    rw [← horg]
    rfl
  have hrest : AtRest i state p.quarantine w'.org.clearCalls :=
    atRest_of_run hp hw hemails hfailing hkeys' (hoptions.symm ▸ hproper) hfailures hsettle
      henforce rfl rfl hsame hstill
  have haccounts : ∀ a, a ∈ settled.tree.accounts ↔ a ∈ w'.org.snapshot.accounts :=
    fun a => hrest.inStep.mem_accounts
  -- everything that the second run loads is what the first one left
  have hprevious : s.store.load w'.disk = .ok (some state) :=
    StateStore.load_of_publish (publish_eq_ok.1 hpublish) htime
  have hload : load s o' { w' with org := w'.org.clearCalls } =
      .ok ⟨ws, i.manifest, i.tree, some state⟩ := by
    unfold load
    simp only [hreload.loaded, hreload.manifest, hrest.read, hprevious]
    rfl
  refine ⟨state, rfl, ⟨fun hsilent a ha hsuspended d hd => ?_, fun hmarked => ?_⟩,
    fun hentries a ha hsuspended d hd part x hx => ?_⟩
  · refine hsilent.marked hdry' hreload.loaded hrest.read ((haccounts a).2 ha) hsuspended ?_
    rw [hreload.merged]
    exact hd
  · obtain ⟨disk', hpublished⟩ := StateStore.publish_again (publish_eq_ok.1 hpublish)
      (stateOf (reconcile i).organization o'.commit o'.now)
    obtain ⟨r', hrun', hrest'⟩ :=
      hrest.run (w := { w' with org := w'.org.clearCalls }) hload hreload.merged
        (fun a ha hsuspended d hd => hmarked a ((haccounts a).1 ha) hsuspended d hd)
        (Workspace.changes_of_load hreload.loaded) hdry' (publish_eq_ok.2 hpublished)
    exact ⟨r', disk', hrun', rfl, hrest'⟩
  · exact h.marked hl hp hemails hkeys ((haccounts a).2 ha) hsuspended hd part x
      (hentries part d.key x hx)

/-! ### Small worlds -/

/-- A run of a small world, and the configuration that it leaves. -/
def runAndReload? (w : World) : Option (Prepared × Report × World × Workspace) :=
  match prepare smallSite (smallOptions w) w with
  | .error _ => none
  | .ok p =>
    match carryOut smallSite (smallOptions w) p w with
    | (.error _, _) => none
    | (.ok r, w') =>
      match Workspace.load (fetch smallSite (smallOptions w') w'.disk) "c.json" with
      | .error _ => none
      | .ok ws => some (p, r, w', ws)

/-- No correction and no guard failed, no account key is in both sections, the unit of suspended
accounts has a proper path, and the files hold the merged configuration again. -/
def isRegular (p : Prepared) (r : Report) (ws : Workspace) : Bool :=
  decide (r.corrections.failures = [] ∧ r.guard.failures = [] ∧ KeysApart p.config ∧
    Path.Proper p.config.options.suspendedOu ∧ ws.merged = p.config)

/-- A run of a small world gets through, and its files hold the merged configuration again. -/
structure Regular (w : World) (l : Loaded) (p : Prepared) (r : Report) (w' : World)
    (ws : Workspace) : Prop where
  /-- The run loads the configuration. -/
  load : Pipeline.load smallSite (smallOptions w) w = .ok l
  /-- The run goes ahead. -/
  prepare : Pipeline.prepare smallSite (smallOptions w) w = .ok p
  /-- The run gets through. -/
  run : Pipeline.run smallSite (smallOptions w) w = (.ok r, w')
  /-- No correction failed. -/
  corrections : r.corrections.failures = []
  /-- No policy failed to be attached or detached. -/
  guard : r.guard.failures = []
  /-- No account key is in both sections. -/
  keys : KeysApart l.workspace.merged
  /-- The unit of suspended accounts has a proper path. -/
  proper : Path.Proper l.workspace.merged.options.suspendedOu
  /-- The files hold the merged configuration again. -/
  reloads : Reloads smallSite (smallOptions w') w'.disk p ws

theorem regular_of_isRegular {r : Report} {w' : World} {ws : Workspace}
    (h : runAndReload? w = some (p, r, w', ws)) (hregular : isRegular p r ws = true) :
    ∃ l, Regular w l p r w' ws := by
  obtain ⟨hcorrections, hguard, hkeys, hproper, hmerged⟩ := of_decide_eq_true hregular
  unfold runAndReload? at h
  split at h
  · cases h
  rename_i hp
  split at h
  · cases h
  rename_i hcarry
  split at h
  · cases h
  rename_i hagain
  cases h
  obtain ⟨l, q, hl, -, hq, -, -, hwork, -, hmanifest, -⟩ := prepare_eq_ok hp
  have hapart : KeysApart l.workspace.merged := by
    unfold Prepared.config at hkeys
    rw [hwork] at hkeys
    exact SameKeys.keysApart (fun s => (detect_keys (followDrift_eq_ok hq) s).symm) hkeys
  obtain ⟨-, hoptions⟩ := loaded_of_prepare hl hp hapart
  obtain ⟨-, hnone, -⟩ := load_eq_ok hl
  refine ⟨l, hl, hp, (run_of_prepare hp).trans hcarry, hcorrections, hguard, hapart,
    hoptions ▸ hproper, hagain, hmerged, ?_⟩
  rw [hmanifest]
  exact hnone

/-- A run creates a unit and moves the primary account there, and the run after it is silent. -/
theorem run_idempotent_fresh_unit :
    freshUnit.org.snapshot.WellFormed ∧ freshUnit.org.snapshot.DistinctEmails ∧
      ∃ l p r w' ws state, Regular freshUnit l p r w' ws ∧ r.published = some state ∧
        Silent smallSite (smallOptions w') { w' with org := w'.org.clearCalls } state := by
  have hflat : freshUnit.org.snapshot.Flat ⟨"r-1", "Root"⟩ := by decide +kernel
  have hemails : freshUnit.org.snapshot.DistinctEmails := List.nodup_singleton _
  have hall : (runAndReload? freshUnit).any (fun (p, r, _, ws) => isRegular p r ws &&
      decide (ws.mandatory = p.workspace.mandatory ∧
        ws.workload = p.workspace.workload)) = true := by decide +kernel
  obtain ⟨⟨p, r, w', ws⟩, hrun, hchecks⟩ := (Option.any_eq_true _ _).1 hall
  obtain ⟨hregular, hsections⟩ := Bool.and_eq_true_iff.1 hchecks
  obtain ⟨hmandatory, hworkload⟩ := of_decide_eq_true hsections
  obtain ⟨l, h⟩ := regular_of_isRegular hrun hregular
  obtain ⟨state, hstate, hsilent, hmarked⟩ := run_idempotent smallSite (smallOptions freshUnit)
    (smallOptions w') freshUnit w' l p r ws h.load h.prepare h.run rfl h.corrections
    hflat.wellFormed hemails rfl h.keys h.proper ⟨by decide, by decide, by decide⟩ h.reloads rfl
  refine ⟨hflat.wellFormed, hemails, l, p, r, w', ws, state, h, hstate,
    hsilent.2 (hmarked fun part key a ha => ?_)⟩
  cases part with
  | mandatory =>
    unfold Workspace.entriesAt Workspace.accounts at ha ⊢
    exact hmandatory ▸ ha
  | workload =>
    unfold Workspace.entriesAt Workspace.accounts at ha ⊢
    exact hworkload ▸ ha

/-- A file that is listed for units and for accounts, and another one before and after it whose
entries hide those of the first. The unit `A` is called `B` by now. -/
def sharedFile : World where
  org :=
    { snapshot :=
        { root := some ⟨"r-1", "Root"⟩
          ous := [⟨"ou-1", "B", "r-1"⟩, ⟨"ou-s", "Suspended", "r-1"⟩]
          accounts := [⟨"1", "N", "a@x", .active, "ou-1"⟩, ⟨"2", "M", "b@x", .suspended, "ou-s"⟩]
          policies := [⟨"p-q", "Quarantine-New-Object", ["ou-s"]⟩] } }
  disk :=
    { nodes := [(["r"], .folder),
        (["r", "c.json"], .file
          ("\x7b\"organizational-units\":\x7b\"__LOAD\":[\"b.json\"]\x7d," ++
            "\"mandatory-account-configs\":" ++
              "\x7b\"__LOAD\":[\"a.json\",\"b.json\",\"a.json\"]\x7d\x7d")),
        (["r", "a.json"], .file
          ("\x7b\"A\":\x7b\"account-name\":\"N\",\"email\":\"a@x\",\"ou\":\"B\"\x7d," ++
            "\"B\":\x7b\"account-name\":\"M\",\"email\":\"b@x\",\"ou\":\"B\"," ++
              "\"deleted\":true\x7d\x7d")),
        (["r", "b.json"], .file
          "\x7b\"A\":\x7b\"account-name\":\"N\",\"email\":\"a@x\",\"ou\":\"B\"\x7d\x7d"),
        (["h"], .folder), (["h", ".orgsync"], .folder), (["h", ".orgsync", "state"], .folder),
        (["h", ".orgsync", "state", "acme.json"], .file
          ("\x7b\"publishedAt\":\"2024-01-01T00:00:00Z\",\"commitId\":\"c0\"," ++
            "\"accounts\":[],\"organizationalUnits\":[\x7b\"id\":\"ou-1\",\"name\":\"A\"," ++
              "\"logicalKey\":\"A\",\"path\":\"A\"\x7d],\"warnings\":[]\x7d"))] }

/-- An entry that stands for a suspended account is not marked in some file. -/
def hasUnmarked (ws : Workspace) (org : Organization) : Bool :=
  (OrgTree.read org).toOption.any fun t => t.accounts.any fun a => a.isSuspended &&
    (ws.merged.accountByEmail? a.email).any fun d =>
      (ws.entriesAt .mandatory d.key).any fun x => !x.deleted

/-- The run writes the file as it is for units, with the key `B`, and so puts an entry under the key
of the suspended account into a file that had none. The other file hides it, so that the merged
configuration is what it was; but the next run marks it. -/
theorem second_run_not_silent :
    sharedFile.org.snapshot.WellFormed ∧ sharedFile.org.snapshot.DistinctEmails ∧
      ∃ l p r w' ws, Regular sharedFile l p r w' ws ∧
        ∀ state,
          ¬ Silent smallSite (smallOptions w') { w' with org := w'.org.clearCalls } state := by
  have hflat : sharedFile.org.snapshot.Flat ⟨"r-1", "Root"⟩ := by decide +kernel
  have hemails : sharedFile.org.snapshot.DistinctEmails := by
    unfold Snapshot.DistinctEmails
    decide
  have hall : (runAndReload? sharedFile).any (fun (p, r, w', ws) => isRegular p r ws &&
      hasUnmarked ws w'.org.clearCalls) = true := by decide +kernel
  obtain ⟨⟨p, r, w', ws⟩, hrun, hchecks⟩ := (Option.any_eq_true _ _).1 hall
  obtain ⟨hregular, hunmarked⟩ := Bool.and_eq_true_iff.1 hchecks
  obtain ⟨l, h⟩ := regular_of_isRegular hrun hregular
  refine ⟨hflat.wellFormed, hemails, l, p, r, w', ws, h, fun state hsilent => ?_⟩
  obtain ⟨t, hread, hunmarked⟩ := (Option.any_eq_true _ _).1 hunmarked
  obtain ⟨a, ha, hunmarked⟩ := List.any_eq_true.1 hunmarked
  obtain ⟨hsuspended, hunmarked⟩ := Bool.and_eq_true_iff.1 hunmarked
  obtain ⟨d, hd, hunmarked⟩ := (Option.any_eq_true _ _).1 hunmarked
  obtain ⟨x, hx, hdeleted⟩ := List.any_eq_true.1 hunmarked
  have ht : OrgTree.read w'.org.clearCalls = .ok t := by
    cases hcase : OrgTree.read w'.org.clearCalls with
    | error e =>
      rw [hcase] at hread
      cases hread
    | ok t' =>
      rw [hcase] at hread
      cases hread
      rfl
  have hmarked := hsilent.marked rfl h.reloads.loaded ht ha hsuspended hd .mandatory x hx
  rw [hmarked.2.2] at hdeleted
  cases hdeleted

end OrgAlign.Pipeline
