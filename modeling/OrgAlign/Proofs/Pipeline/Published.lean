import OrgAlign.Proofs.Config.Layers
import OrgAlign.Proofs.Files.Head
import OrgAlign.Proofs.Guard.Outcome
import OrgAlign.Proofs.Org.Reading
import OrgAlign.Proofs.Pipeline.SecondPass
import OrgAlign.Proofs.Reconcile.CleanPass

/-!
# What a run publishes is there

The published records come from the second pass, which looks at the organization after convergence,
and the published head from the commit step. Neither the enforcement of the guard plan nor the
publication itself changes what they tell of. Main statements:

* `head?_of_load`, `commit_head`: the head before and after the commit step;
* `unitLive_of_reconcile`, `accountLive_of_reconcile`: what a pass over a reading hands on tells of
  the organization that was read;
* `run_publishes_what_is_there`: the stored state has the head after the run, and its records are
  those of live units and accounts.
-/

namespace OrgAlign.Pipeline

open Config Drift Files Guard Org Reconcile

variable {s : Site} {o : Options} {w : World}

/-! ### The head -/

/-- What was fetched is a file of the repository's head. -/
theorem fetch_eq_ok {d : Disk} {path text : String} (h : fetch s o d path = .ok text) :
    s.repository.head? d = some o.commit ∧ d.read? (s.repository.pathOf path) = some text := by
  unfold fetch at h
  split at h
  · rename_i hget
    cases h
    exact Repository.getFile_eq_ok hget
  · cases h

/-- A run that loads its configuration works on the head, and the repository's folder is there
unless the root file is somewhere else. -/
theorem head?_of_load {l : Loaded} (h : load s o w = .ok l) :
    s.repository.head? w.disk = some o.commit ∧
      (s.repository.folder = "" ∨ isAbsolute o.rootPath = true ∨
        w.disk.isThere s.repository.folder = true) := by
  obtain ⟨hconfig, -⟩ := load_eq_ok h
  obtain ⟨text, root, ous, mandatory, workload, htext, -⟩ := Workspace.load_eq_ok.1 hconfig
  obtain ⟨hhead, hread⟩ := fetch_eq_ok htext
  refine ⟨hhead, ?_⟩
  by_cases hfolder : s.repository.folder = ""
  · exact .inl hfolder
  · cases habsolute : isAbsolute o.rootPath with
    | true => exact .inr (.inl rfl)
    | false => exact .inr (.inr (Disk.isThere_of_read?_under habsolute hfolder hread))

/-- The outcome of the commit step names the head after it. -/
theorem commit_head {d d' : Disk} {changes : List FileChange} {outcome : Outcome}
    (hhead : s.repository.head? d = some o.commit)
    (h : commit s o changes d = (.ok outcome, d')) :
    Disk.Extends d d' ∧ s.repository.head? d' = some outcome.commitId := by
  unfold commit at h
  split at h
  · cases h
    exact ⟨Disk.Extends.refl d, hhead⟩
  split at h
  · rename_i hcommit
    cases h
    exact Repository.commit_eq_ok hcommit
  · rename_i hcommit
    split at h
    · rename_i hnoop
      obtain rfl := Repository.commit_eq_noOp hcommit hnoop
      cases h
      exact ⟨Disk.Extends.refl _, hhead⟩
    · cases h

/-! ### Records -/

/-- The unit of a record is there, with the record's name and path, and it is the only one with the
record's identifier. -/
def UnitLive (x : Snapshot) (u : CanonicalOu) : Prop :=
  ∃ node ∈ x.ous, x.located node = ⟨u.id, u.name, node.parent, u.path⟩ ∧
    ∀ other ∈ x.ous, other.id = u.id → other = node

/-- The account of a record is there, with the record's e-mail address, and it is the only one with
the identifier; it is suspended, or right in the unit that the record's path resolves to. -/
def AccountLive (x : Snapshot) (t : OrgTree) (a : CanonicalAccount) (id : String) : Prop :=
  ∃ live ∈ x.accounts, live.id = id ∧ (∀ other ∈ x.accounts, other.id = id → other = live) ∧
    Text.sameIgnoringCase live.email a.email = true ∧
    (live.isSuspended = true ∨
      ∃ ou strategy, matchOu a.ouPath t.ous = .found ou strategy ∧ live.parent = ou.id)

/-- The units that a pass over a reading hands on are there. -/
theorem unitLive_of_reconcile {org : Organization} {i : Input} (hids : Identified org.snapshot)
    (hread : OrgTree.read org = .ok i.tree) {u : CanonicalOu}
    (hu : u ∈ (reconcile i).organization.ous) : UnitLive org.snapshot u := by
  rw [reconcile_ous] at hu
  obtain ⟨reference, -, hrecord⟩ := List.mem_filterMap.1 hu
  obtain ⟨ou, strategy, -, hstands, rfl⟩ := unitRecord?_stands hrecord
  obtain ⟨node, hnode, rfl⟩ := exists_located_of_read hread hstands.mem
  refine ⟨node, hnode, rfl, fun other hother hsame => ?_⟩
  exact List.inj_on_of_nodup_map hids.ous hother hnode hsame

/-- The accounts that a pass over a reading hands on are there. -/
theorem accountLive_of_reconcile {org : Organization} {i : Input} (hids : Identified org.snapshot)
    (hread : OrgTree.read org = .ok i.tree) {a : CanonicalAccount}
    (ha : a ∈ (reconcile i).organization.accounts) {id : String} (hid : a.cloudId = some id) :
    AccountLive org.snapshot i.tree a id := by
  rw [reconcile_accounts] at ha
  obtain ⟨d, -, hrecord⟩ := List.mem_filterMap.1 ha
  have hstands := accountRecord?_stands hrecord
  obtain ⟨live, hlive, rfl, hemail, hplace⟩ := hstands.live id hid
  have hthere := mem_accounts_of_read hread hlive
  refine ⟨live, hthere, rfl, fun other hother hsame => ?_, ?_, ?_⟩
  · exact List.inj_on_of_nodup_map hids.accounts hother hthere hsame
  · rw [hstands.declared]
    exact hemail
  · refine hplace.imp_right ?_
    rintro ⟨ou, strategy, hmatch, hparent, -⟩
    refine ⟨ou, strategy, ?_, hparent⟩
    rw [hstands.declared]
    exact hmatch

/-- Whether records are live does not depend on what policies are attached to. -/
theorem UnitLive.rearranged {x y : Snapshot} (h : Snapshot.Rearranged x y) {u : CanonicalOu}
    (hu : UnitLive x u) : UnitLive y u := by
  unfold UnitLive at hu ⊢
  rw [h.ous, Snapshot.located_congr h.ous]
  exact hu

/-- Nor does it for accounts. -/
theorem AccountLive.rearranged {x y : Snapshot} (h : Snapshot.Rearranged x y) {t : OrgTree}
    {a : CanonicalAccount} {id : String} (ha : AccountLive x t a id) : AccountLive y t a id := by
  unfold AccountLive at ha ⊢
  rw [h.accounts]
  exact ha

/-! ### Whole runs -/

/-- **What a run publishes is there.** The state's file holds the state that the run reports, with
the head that the repository has after the run. Every published unit is live under its identifier
and path, and every published account with an identifier is live with its e-mail address, and is
suspended or right in the unit that its path resolves to in the organization as the run leaves it.

The state's file is outside the repository's folder. A root file that is read by an absolute path
says nothing about that folder, so there it has to exist: one that comes to be while the state is
published would have another head afterwards. -/
theorem run_publishes_what_is_there (s : Site) (o : Options) (w w' : World) (r : Report)
    (hids : Identified w.org.snapshot)
    (hout : ¬ w.disk.leads s.repository.folder <+: w.disk.leads s.store.path)
    (hroot : isAbsolute o.rootPath = true → w.disk.isThere s.repository.folder = true)
    (hdry : o.dryRun = false) (hrun : run s o w = (.ok r, w')) :
    ∃ state t, r.published = some state ∧
      w'.disk.read? s.store.path = some state.text ∧
      (o.now.Valid → s.store.load w'.disk = .ok (some state)) ∧
      s.repository.head? w'.disk = some state.commitId ∧
      OrgTree.read w'.org = .ok t ∧
      (∀ u ∈ state.ous, UnitLive w'.org.snapshot u) ∧
      ∀ a ∈ state.accounts, ∀ id, a.cloudId = some id → AccountLive w'.org.snapshot t a id := by
  obtain ⟨p, settled, e, changes, outcome, disk, hp, hsettle, henforce, -, hcommit, hpublish, horg,
    rfl⟩ := run_eq_ok hrun hdry
  obtain ⟨l, -, hl, -⟩ := prepare_eq_ok hp
  obtain ⟨hread, -, -, hrecords⟩ := settle_eq_ok hsettle
  obtain ⟨hhead, hfolder⟩ := head?_of_load hl
  obtain ⟨hextends, hcommitted⟩ := commit_head hhead hcommit
  have hstored := publish_eq_ok.1 hpublish
  -- the organization that is left is the one that the second pass looked at, but for its policies
  have hsame : Snapshot.Rearranged (converged p w).snapshot w'.org.snapshot :=
    horg ▸ enforceWith_rearranged henforce
  have hafter : Identified (converged p w).snapshot := converge_identified _ _ hids
  have horganization : settled.organization =
      (reconcile (secondInput p w settled.tree)).organization := hrecords
  refine ⟨_, settled.tree, rfl, ?_, fun htime => ?_, ?_, ?_, fun u hu => ?_, fun a ha id hid => ?_⟩
  · exact (Disk.replace_spec (StateStore.publish_eq_ok.1 hstored)).1
  · exact StateStore.load_of_publish hstored htime
  · -- publishing happens outside the repository's folder
    refine Eq.trans ?_ hcommitted
    rcases hfolder with hnone | hthere
    · exact Repository.head?_of_no_folder hnone _ _
    · have hthere : w.disk.isThere s.repository.folder = true := hthere.elim hroot fun h => h
      obtain ⟨place, hplace, hisFolder⟩ :=
        s.repository.exists_folder hthere (by rw [hhead]; rfl)
      refine StateStore.head?_publish hstored (hextends.locate? hplace)
        (hextends.isFolder place hisFolder) ?_
      rw [hextends.leads, Disk.locate?_eq_leads hplace]
      exact hout
  · rw [read_rearranged hsame]
    exact hread
  · refine UnitLive.rearranged hsame (unitLive_of_reconcile (i := secondInput p w settled.tree)
      hafter hread ?_)
    rw [← horganization]
    exact hu
  · refine AccountLive.rearranged hsame (accountLive_of_reconcile
      (i := secondInput p w settled.tree) hafter hread ?_ hid)
    rw [← horganization]
    exact ha

/-- A run that creates a unit and moves the primary account there publishes both as they are
then. -/
theorem run_publishes_fresh_unit :
    ∃ r w' state t, run smallSite (smallOptions freshUnit) freshUnit = (.ok r, w') ∧
      r.published = some state ∧ smallSite.store.load w'.disk = .ok (some state) ∧
      smallSite.repository.head? w'.disk = some state.commitId ∧ OrgTree.read w'.org = .ok t ∧
      (∀ u ∈ state.ous, UnitLive w'.org.snapshot u) ∧
      ∀ a ∈ state.accounts, ∀ id, a.cloudId = some id → AccountLive w'.org.snapshot t a id := by
  have hids : Identified freshUnit.org.snapshot := ⟨List.nodup_nil, List.nodup_singleton _⟩
  have hout : ¬ freshUnit.disk.leads "/r" <+: freshUnit.disk.leads smallSite.store.path := by
    decide +kernel
  have hok : (run smallSite (smallOptions freshUnit) freshUnit).1.isOk = true := by decide +kernel
  rcases hrun : run smallSite (smallOptions freshUnit) freshUnit with ⟨e | r, w'⟩
  · rw [hrun] at hok
    cases hok
  · obtain ⟨state, t, hpublished, -, hload, hhead, hread, hunits, haccounts⟩ :=
      run_publishes_what_is_there smallSite (smallOptions freshUnit) freshUnit w' r hids hout
        (fun h => absurd h (by decide)) rfl hrun
    exact ⟨r, w', state, t, rfl, hpublished, hload ⟨by decide, by decide, by decide⟩, hhead, hread,
      hunits, haccounts⟩

end OrgAlign.Pipeline
