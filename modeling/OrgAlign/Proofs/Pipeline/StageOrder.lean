import OrgAlign.Proofs.Pipeline.Stages
import OrgAlign.Proofs.Reconcile.CleanPass
import OrgAlign.Proofs.State.Store

/-!
# The order of stages

Nothing is changed before everything was checked that has to be checked first, however a run ends
and whatever fails on the way. Main statements:

* `issued_run`: a run changes the organization by calls alone;
* `run_unprepared`: a run that was not decided upon leaves everything as it was;
* `commit_unchanged`: the commit step leaves the state store as it was, whatever its result;
* `run_stage_order`: a call was issued only past the first gate, the disk changed only past the
  second pass and enforcement, and the state store only past a commit step that is done.

The configuration and the state are on one disk, so a configuration with a file where the state is
kept would have the commit step write there. The store is apart where the request of the commit step
meets the path of the state's file in folders only (`Repository.KeepsOff`).
-/

namespace OrgAlign.Pipeline

open Config Drift Files Guard Org Reconcile

variable {s : Site} {o : Options} {w : World} {p : Prepared}

/-! ### Changes to the organization -/

/-- Carrying out changes the organization by calls alone. -/
theorem issued_carryOut (s : Site) (o : Options) (p : Prepared) (w : World) :
    Issued w.org (carryOut s o p w).2.org := by
  have hconverge : Issued w.org (converged p w) := issued_converge p.config w.org p.tree
  rcases carryOut_cases s o p w with
    ⟨e, h⟩ | ⟨settled, e, -, henforce, ⟨error, h⟩ | ⟨changes, -, h⟩⟩
  · rw [h]
    exact hconverge
  · rw [h]
    exact hconverge.trans (issued_enforceWith henforce)
  · rw [h]
    simp only
    split
    · exact hconverge.trans (issued_enforceWith henforce)
    · rw [conclude_org]
      exact hconverge.trans (issued_enforceWith henforce)

/-- A run changes the organization by calls alone. -/
theorem issued_run (s : Site) (o : Options) (w : World) : Issued w.org (run s o w).2.org := by
  unfold run
  split
  · exact Issued.refl w.org
  · exact issued_carryOut s o _ w

/-- A run that was not decided upon leaves everything as it was. -/
theorem run_unprepared (h : ∀ p, prepare s o w ≠ .ok p) : (run s o w).2 = w := by
  unfold run
  split
  · rfl
  · rename_i p hp
    exact absurd hp (h p)

/-! ### Gates -/

/-- The first gate is open: no two active accounts of the configuration as loaded share an address,
every fatal finding about the amended configuration is one that convergence puts right, and the
quarantine policy is there. -/
structure GateOpen (l : Loaded) (r : Amendment) (org : Organization) : Prop where
  /-- No shared addresses. -/
  emails : (l.workspace.merged.accounts.map fun d => Text.lower d.entry.email).Nodup
  /-- Only missing units, and the primary account outside its unit but right under the root. -/
  findings : ∀ f ∈ (pass r.workspace.merged l.tree l.manifest l.previous org).errors,
    f.kind = .missingOu ∨ (f.kind = .ouMembershipMismatch ∧
      ∃ live, Convergence.rootPrimary? r.workspace.merged l.tree = some (f.subject, live))
  /-- The quarantine policy is found. -/
  quarantine : ∃ policy, quarantinePolicy r.workspace.merged org = .ok policy

/-- Convergence puts a finding right iff it is about a missing unit, or says of the primary account
that it is not in its unit while it is right under the root. -/
theorem isCorrectable_iff {key : Option String} {f : Finding} :
    isCorrectable key f = true ↔
      f.kind = .missingOu ∨ (f.kind = .ouMembershipMismatch ∧ key = some f.subject) := by
  unfold isCorrectable
  split <;> simp_all

/-- Nothing blocks iff convergence puts every fatal finding right. -/
theorem blocking_eq_nil {config : Configuration} {tree : OrgTree} {first : Reconciliation} :
    blocking config tree first = [] ↔ ∀ f ∈ first.errors,
      f.kind = .missingOu ∨ (f.kind = .ouMembershipMismatch ∧
        ∃ live, Convergence.rootPrimary? config tree = some (f.subject, live)) := by
  unfold blocking
  simp only [List.filter_eq_nil_iff, Bool.not_eq_true', Bool.not_eq_false, isCorrectable_iff,
    Option.map_eq_some_iff, Prod.exists, exists_and_right, exists_eq_right]

/-- A run that was decided upon found the first gate open. -/
theorem gateOpen_of_prepare (h : prepare s o w = .ok p) :
    ∃ l r, load s o w = .ok l ∧ followDrift l = .ok r ∧ GateOpen l r w.org := by
  obtain ⟨l, r, hl, hemails, hr, hblocking, hquarantine, -⟩ := prepare_eq_ok h
  exact ⟨l, r, hl, hr, duplicateEmails_eq_nil.1 hemails, blocking_eq_nil.1 hblocking,
    ⟨_, hquarantine⟩⟩

/-- What there is between the first gate and the disk: the second pass found nothing fatal, and
enforcement got through. -/
structure Settles (p : Prepared) (w : World) (t : OrgTree) (e : Enforcement) : Prop where
  /-- The hierarchy was read after convergence. -/
  read : OrgTree.read (converged p w) = .ok t
  /-- The second pass found nothing fatal. -/
  clean : (secondPass p w t).hasFatal = false
  /-- Enforcement got through. -/
  enforced :
    enforceWith p.config p.quarantine (Plan.compute p.config t) (converged p w) = .ok e

/-- The commit step is done: there was nothing to commit, it was committed, or committing it turned
out to change nothing. -/
def CommitDone (s : Site) (o : Options) (changes : List FileChange) (d : Disk) : Prop :=
  changes = [] ∨
  (∃ id, (s.repository.commit d o.repository (commitRequest o.commit changes)).1 = .ok id) ∨
  ∃ e, (s.repository.commit d o.repository (commitRequest o.commit changes)).1 = .error e ∧
    e.isNoOp = true

instance (s : Site) (o : Options) (changes : List FileChange) (d : Disk) :
    Decidable (CommitDone s o changes d) :=
  if hnone : changes = [] then isTrue (.inl hnone)
  else match h : (s.repository.commit d o.repository (commitRequest o.commit changes)).1 with
    | .ok id => isTrue (.inr (.inl ⟨id, h⟩))
    | .error e =>
      if hnoop : e.isNoOp = true then isTrue (.inr (.inr ⟨e, h, hnoop⟩))
      else isFalse (by simp [CommitDone, hnone, h, hnoop])

/-! ### Changes to the disk -/

/-- The commit step does nothing to the disk but what the repository does to commit. -/
theorem commit_disk (s : Site) (o : Options) (changes : List FileChange) (d : Disk) :
    (commit s o changes d).2 =
      if changes = [] then d
      else (s.repository.commit d o.repository (commitRequest o.commit changes)).2 := by
  unfold commit
  split
  · rfl
  · split
    · rename_i hcommit
      rw [hcommit]
    · rename_i hcommit
      rw [hcommit]

/-- The commit step leaves a state store that is apart as it was, also where it fails half way. -/
theorem commit_unchanged {changes : List FileChange} {d : Disk}
    (h : s.repository.KeepsOff d (commitRequest o.commit changes) s.store.path) :
    s.store.Unchanged d (commit s o changes d).2 := by
  rw [commit_disk]
  split
  · exact StateStore.unchanged_of_sameOnRoute (.refl d _)
  · exact StateStore.unchanged_of_sameOnRoute (Repository.sameOnRoute_commit h o.repository)

/-- Concluding leaves the disk as the commit step left it, unless that step is done. -/
theorem conclude_disk (s : Site) (o : Options) (r : Report) (w : World)
    (h : (conclude s o r w).2.disk ≠ (commit s o r.changes w.disk).2) :
    CommitDone s o r.changes w.disk := by
  rcases conclude_cases s o r w with ⟨e, -, hc⟩ | ⟨outcome, hok, -⟩
  · rw [hc] at h
    exact absurd rfl h
  · exact commit_eq_ok hok

/-- Carrying out touches the disk only past the second pass and enforcement, and in no dry run. -/
theorem carryOut_disk (h : (carryOut s o p w).2.disk ≠ w.disk) :
    o.dryRun = false ∧ ∃ t e changes, Settles p w t e ∧ p.workspace.changes = .ok changes ∧
      ((carryOut s o p w).2.disk ≠ (commit s o changes w.disk).2 →
        CommitDone s o changes w.disk) := by
  rcases carryOut_cases s o p w with
    ⟨e, hc⟩ | ⟨settled, e, hsettle, henforce, ⟨error, hc⟩ | ⟨changes, hchanges, hc⟩⟩
  · rw [hc] at h
    exact absurd rfl h
  · rw [hc] at h
    exact absurd rfl h
  · rw [hc] at h ⊢
    simp only at h ⊢
    split at h
    · exact absurd rfl h
    · rename_i hdry
      obtain ⟨hread, hclean, -⟩ := settle_eq_ok hsettle
      refine ⟨Bool.not_eq_true _ ▸ hdry, settled.tree, e, changes, ⟨hread, hclean, henforce⟩,
        hchanges, ?_⟩
      rw [if_neg hdry]
      exact conclude_disk s o (reportOf p w settled e changes) { w with org := e.org }

/-- **Every effect comes after the checks it depends on**, however a run ends and whatever fails.
All that happens to the organization are the calls issued. If there is one, the first gate was open.
If the disk changed, the run was no dry one, the second pass was clean and enforcement got through;
and if it changed beyond the commit step, to publish the state, that step was done. Until then only
the repository wrote, so that a state store apart from what it was asked to write is as it was. -/
theorem run_stage_order (s : Site) (o : Options) (w : World) :
    ∃ issued : List Org.Call, (run s o w).2.org = issued.foldl Organization.perform w.org ∧
      (run s o w).2.org.calls = w.org.calls ++ issued ∧
      (issued ≠ [] → ∃ l r, load s o w = .ok l ∧ followDrift l = .ok r ∧ GateOpen l r w.org) ∧
      ((run s o w).2.disk ≠ w.disk → o.dryRun = false ∧ ∃ p t e changes,
        prepare s o w = .ok p ∧ Settles p w t e ∧ p.workspace.changes = .ok changes ∧
        ((run s o w).2.disk ≠ (commit s o changes w.disk).2 →
          CommitDone s o changes w.disk) ∧
        (¬ CommitDone s o changes w.disk → (run s o w).2.disk =
          (s.repository.commit w.disk o.repository (commitRequest o.commit changes)).2) ∧
        (s.repository.KeepsOff w.disk (commitRequest o.commit changes) s.store.path →
          s.store.Unchanged w.disk (commit s o changes w.disk).2 ∧
          (¬ CommitDone s o changes w.disk →
            s.store.Unchanged w.disk (run s o w).2.disk))) := by
  obtain ⟨issued, hissued⟩ := issued_run s o w
  have hcalls : (run s o w).2.org.calls = w.org.calls ++ issued := by
    rw [hissued, Organization.calls_foldl_perform]
  refine ⟨issued, hissued, hcalls, ?_, ?_⟩
  · intro hsome
    cases hp : prepare s o w with
    | ok p => exact gateOpen_of_prepare hp
    | error e =>
      -- nothing was done, so the log has not grown
      have hsame : (run s o w).2 = w := run_unprepared fun p h => by rw [hp] at h; cases h
      rw [hsame] at hcalls
      exact absurd (List.self_eq_append_right.1 hcalls) hsome
  · intro hdisk
    cases hp : prepare s o w with
    | error e =>
      have hsame : (run s o w).2 = w := run_unprepared fun p h => by rw [hp] at h; cases h
      rw [hsame] at hdisk
      exact absurd rfl hdisk
    | ok p =>
      rw [run_of_prepare hp] at hdisk ⊢
      obtain ⟨hdry, t, e, changes, hsettles, hchanges, hcommit⟩ := carryOut_disk hdisk
      have hstops : ¬ CommitDone s o changes w.disk →
          (carryOut s o p w).2.disk = (commit s o changes w.disk).2 := fun hnot =>
        of_not_not (mt hcommit hnot)
      refine ⟨hdry, p, t, e, changes, rfl, hsettles, hchanges, hcommit, fun hnot => ?_,
        fun hapart => ⟨commit_unchanged hapart, fun hnot => ?_⟩⟩
      · -- with nothing to commit the step would be done
        have hsome : changes ≠ [] := fun hnone => hnot (.inl hnone)
        rw [hstops hnot, commit_disk, if_neg hsome]
      · rw [hstops hnot]
        exact commit_unchanged hapart

/-! ### A commit step that stops half way -/

/-- Where a run finds the files of small worlds. -/
def smallSite : Site := ⟨⟨"config", "/r"⟩, ⟨"/h", "acme"⟩⟩

/-- A run at the head of a small world's configuration. -/
def smallOptions (w : World) : Options where
  repository := "config"
  commit := (smallSite.repository.head? w.disk).getD ""
  rootPath := "c.json"
  now := ⟨0, 0, 0⟩

/-- The state published last. -/
def lastState : PublishedState where
  publishedAt := ⟨19723, 0, 0⟩
  commitId := "c0"
  accounts := []
  ous := []
  warnings := []

/-- Two accounts were suspended, each of which is declared in a file of its own. A folder is where
the temporary file for the second one is to be written. -/
def stalled : World where
  org :=
    { snapshot :=
        { root := some ⟨"r-1", "Root"⟩
          ous := [⟨"ou-s", "Suspended", "r-1"⟩]
          accounts := [⟨"1", "N", "n@x", .suspended, "ou-s"⟩, ⟨"2", "M", "m@x", .suspended, "ou-s"⟩]
          policies := [⟨"p-q", "Quarantine-New-Object", ["ou-s"]⟩] } }
  disk :=
    { nodes := [(["r"], .folder),
        (["r", "c.json"], .file
          ("\x7b\"workload-account-configs\":\x7b\"__LOAD\":[\"a.json\",\"b.json\"]\x7d\x7d")),
        (["r", "a.json"], .file
          "\x7b\"n\":\x7b\"account-name\":\"N\",\"email\":\"n@x\",\"ou\":\"A\"\x7d\x7d"),
        (["r", "b.json"], .file
          "\x7b\"m\":\x7b\"account-name\":\"M\",\"email\":\"m@x\",\"ou\":\"A\"\x7d\x7d"),
        (["r", "b.json.tmp"], .folder),
        (["h"], .folder), (["h", ".orgsync"], .folder), (["h", ".orgsync", "state"], .folder),
        (["h", ".orgsync", "state", "acme.json"], .file
          ("\x7b\"publishedAt\":\"2024-01-01T00:00:00Z\",\"commitId\":\"c0\"," ++
            "\"accounts\":[],\"organizationalUnits\":[],\"warnings\":[]\x7d"))] }

/-- A run that is stopped after its commit step wrote the first of two files. The state that is
loaded is the one that was published last. -/
theorem run_stage_order_stalled :
    (run smallSite (smallOptions stalled) stalled).2.disk ≠ stalled.disk ∧
      (∃ p changes, prepare smallSite (smallOptions stalled) stalled = .ok p ∧
        p.workspace.changes = .ok changes ∧
        ¬ CommitDone smallSite (smallOptions stalled) changes stalled.disk) ∧
      smallSite.store.load (run smallSite (smallOptions stalled) stalled).2.disk =
        .ok (some lastState) := by
  have hwritten : (run smallSite (smallOptions stalled) stalled).2.disk ≠ stalled.disk := by
    decide +kernel
  have hstops : (prepare smallSite (smallOptions stalled) stalled).toOption.any (fun p =>
      p.workspace.changes.toOption.any fun changes =>
        smallSite.repository.KeepsOff stalled.disk
          (commitRequest (smallOptions stalled).commit changes) smallSite.store.path ∧
        ¬ CommitDone smallSite (smallOptions stalled) changes stalled.disk) = true := by
    decide +kernel
  have hlast : smallSite.store.load stalled.disk = .ok (some lastState) := by decide +kernel
  obtain ⟨issued, -, -, -, hdisk⟩ := run_stage_order smallSite (smallOptions stalled) stalled
  obtain ⟨-, p, t, e, changes, hp, -, hchanges, -, -, hstore⟩ := hdisk hwritten
  rw [hp] at hstops
  simp only [Except.toOption, Option.any_some, hchanges, decide_eq_true_eq] at hstops
  obtain ⟨hapart, hnot⟩ := hstops
  exact ⟨hwritten, ⟨p, changes, hp, hchanges, hnot⟩, ((hstore hapart).2 hnot).load.trans hlast⟩

end OrgAlign.Pipeline
