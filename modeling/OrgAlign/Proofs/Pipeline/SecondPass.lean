import OrgAlign.Proofs.Config.Accounts
import OrgAlign.Proofs.Drift.Creation
import OrgAlign.Proofs.Drift.Primary
import OrgAlign.Proofs.Pipeline.StageOrder

/-!
# What the second pass can still find

The first pass of a run does not see everything: a reference that leads nowhere hides whatever is to
be said about the accounts and policies of the unit, and new units can make references ambiguous.
Main statements:

* `Unobscured`: nothing was hidden from the first pass that is wrong;
* `Reread.clean_iff`: past the first gate, the second pass is clean iff that is so;
* `run_second_pass`: and otherwise the run ends there, with the units created and accounts moved.
-/

namespace OrgAlign.Pipeline

open Config Drift Files Guard Org Reconcile Convergence

variable {s : Site} {o : Options} {w : World} {p : Prepared} {t : OrgTree}

/-! ### Two passes -/

/-- What the first pass looks at. -/
def firstInput (p : Prepared) (w : World) : Input :=
  { config := p.config, tree := p.tree, manifest := p.manifest, previous := p.previous
    policies := some w.org }

/-- What the second pass looks at. -/
def secondInput (p : Prepared) (w : World) (t : OrgTree) : Input :=
  { config := p.config, tree := t, manifest := p.manifest, previous := p.previous
    policies := some (converged p w) }

/-- Convergence puts it right: a missing unit, or the primary account under the root. -/
def correctable (p : Prepared) : Tolerance := fun kind subject =>
  kind = .missingOu ∨ (kind = .ouMembershipMismatch ∧
    ∃ live, rootPrimary? p.config p.tree = some (subject, live))

/-- Nothing but a missing unit and an account in another unit is put right. -/
theorem not_correctable {k : FindingKind} {key : String} (hmissing : k ≠ .missingOu)
    (hmismatch : k ≠ .ouMembershipMismatch) : ¬ correctable p k key := by
  rintro (hk | ⟨hk, -⟩)
  · exact hmissing hk
  · exact hmismatch hk

/-- Past the first gate, all that is wrong with any item is put right by convergence. -/
theorem admissible_of_prepare (hp : prepare s o w = .ok p) :
    Admissible (correctable p) (firstInput p w) := by
  obtain ⟨l, r, -, -, -, hblocking, -, hwork, htree, hmanifest, hprevious, -⟩ := prepare_eq_ok hp
  have hconfig : p.config = r.workspace.merged := congrArg Workspace.merged hwork
  have hinput : firstInput p w =
      { config := r.workspace.merged, tree := l.tree, manifest := l.manifest
        previous := l.previous, policies := some w.org } := by
    unfold firstInput
    rw [hconfig, htree, hmanifest, hprevious]
  rw [← errors_admit_iff (by rintro _ (h | ⟨h, -⟩) <;> cases h), hinput]
  unfold correctable
  rw [hconfig, htree]
  exact blocking_eq_nil.1 hblocking

/-- The hierarchy that a run works on was read from the organization. -/
theorem read_of_prepare (hp : prepare s o w = .ok p) : OrgTree.read w.org = .ok p.tree := by
  obtain ⟨l, -, hl, -, -, -, -, -, htree, -⟩ := prepare_eq_ok hp
  rw [htree]
  exact (load_eq_ok hl).2.2.1

/-! ### The second look -/

/-- A hierarchy read after convergence, and what that left alone. -/
structure Reread (p : Prepared) (w : World) (t : OrgTree) : Prop where
  /-- The first hierarchy was in step. -/
  before : (⟨w.org, p.tree, {}⟩ : Convergence).Tracks
  /-- Convergence kept it in step. -/
  after : (converge p.config w.org p.tree).Tracks
  /-- Convergence left the rest alone. -/
  frame : Frame (MayMove p.config w.org p.tree) ⟨w.org, p.tree, {}⟩
    (converge p.config w.org p.tree)
  /-- The second hierarchy is in step. -/
  inStep : InStep (converged p w).snapshot t

/-- The second look never fails in a well-formed organization. -/
theorem exists_reread (hp : prepare s o w = .ok p) (hw : w.org.snapshot.WellFormed) :
    ∃ t, OrgTree.read (converged p w) = .ok t ∧ Reread p w t := by
  obtain ⟨tree, hread, hstep⟩ := inStep_read hw.toRooted hw.toHoused
  obtain rfl : tree = p.tree := Except.ok.inj (hread.symm.trans (read_of_prepare hp))
  have hbefore : (⟨w.org, p.tree, {}⟩ : Convergence).Tracks := ⟨hw.toRooted, hw.toHoused, hstep⟩
  obtain ⟨hafter, hframe⟩ := converge_frame p.config hbefore
  obtain ⟨t, ht, hagain⟩ := inStep_read hafter.rooted hafter.housed
  exact ⟨t, ht, hbefore, hafter, hframe, hagain⟩

namespace Reread

/-- The units are those that convergence left. -/
theorem ous_eq (h : Reread p w t) : t.ous = (converge p.config w.org p.tree).tree.ous :=
  h.inStep.ous.trans h.after.inStep.ous.symm

/-- There are the units of before and new ones. -/
theorem exists_ous (h : Reread p w t) : ∃ more, t.ous = p.tree.ous ++ more := by
  obtain ⟨more, hmore⟩ := h.frame.ous
  exact ⟨more, h.ous_eq.trans hmore⟩

/-- Nothing was under a unit that is new. -/
theorem not_isParent (h : Reread p w t) {ou : LiveOu} (hou : ou ∈ t.ous) (hnew : ou ∉ p.tree.ous) :
    w.org.snapshot.isParent ou.id = false := by
  obtain ⟨more, hmore⟩ := h.exists_ous
  have hnode : (converged p w).snapshot.isOu ou.id = true := by
    rw [h.inStep.ous] at hou
    obtain ⟨node, hnode, rfl⟩ := List.mem_map.1 hou
    exact Snapshot.isOu_iff.2 ⟨node, hnode, rfl⟩
  rw [← Bool.not_eq_true, Snapshot.isParent_iff]
  rintro (⟨r, hr, hid⟩ | ⟨node, hin, hid⟩)
  · -- the root stayed, and it is no unit
    obtain ⟨r', hr', hid'⟩ := h.after.inStep.charts.root_eq
    obtain ⟨r'', hr'', hid''⟩ := h.before.inStep.charts.root_eq
    obtain rfl : r = r'' := Option.some.inj (hr.symm.trans hr'')
    have hsame : r'.id = ou.id := (hid'.trans (h.frame.root.trans hid''.symm)).trans hid
    have hroot : (converged p w).snapshot.isOu r'.id = false := (h.after.rooted.rootApart r' hr').1
    rw [hsame, hnode] at hroot
    cases hroot
  · -- units have distinct identifiers
    have hold : w.org.snapshot.located node ∈ p.tree.ous :=
      h.before.inStep.ous ▸ List.mem_map_of_mem hin
    have hids : (t.ous.map LiveOu.id).Nodup := by
      rw [h.inStep.ous, List.map_map]
      exact h.after.rooted.ids
    have heq : ou = w.org.snapshot.located node :=
      List.inj_on_of_nodup_map hids hou (hmore ▸ List.mem_append_left _ hold) hid.symm
    exact hnew (heq ▸ hold)

/-- No two accounts share an address after convergence either. -/
theorem distinctEmails (h : Reread p w t) (hemails : w.org.snapshot.DistinctEmails) :
    (converged p w).snapshot.DistinctEmails := h.frame.distinctEmails hemails

/-- The account that an address leads to after convergence is the one that it led to before. -/
theorem live_before (h : Reread p w t) (hemails : w.org.snapshot.DistinctEmails) {email : String}
    {b : LiveAccount} (hb : matchAccount? email t.accounts = some b) :
    ∃ a, matchAccount? email p.tree.accounts = some a ∧
      Rehoused (MayMove p.config w.org p.tree) a b := by
  obtain ⟨hin, hemail⟩ := (h.inStep.matchAccount? (h.distinctEmails hemails)).1 hb
  obtain ⟨a, ha, hmoved⟩ := h.frame.exists_before hin
  refine ⟨a, (h.before.inStep.matchAccount? hemails).2 ⟨ha, ?_⟩, hmoved⟩
  rw [← hemail, hmoved.same.2.2.1]

/-- The account that an address led to before convergence is the one that it leads to after. -/
theorem live_after (h : Reread p w t) (hemails : w.org.snapshot.DistinctEmails) {email : String}
    {a : LiveAccount} (ha : matchAccount? email p.tree.accounts = some a) :
    ∃ b, matchAccount? email t.accounts = some b ∧
      Rehoused (MayMove p.config w.org p.tree) a b := by
  obtain ⟨hin, hemail⟩ := (h.before.inStep.matchAccount? hemails).1 ha
  obtain ⟨b, hb, hmoved⟩ := h.frame.exists_after hin
  refine ⟨b, (h.inStep.matchAccount? (h.distinctEmails hemails)).2 ⟨hb, ?_⟩, hmoved⟩
  rw [← hemail, hmoved.same.2.2.1]

/-- An address that leads nowhere after convergence led nowhere before. -/
theorem not_live_iff (h : Reread p w t) (hemails : w.org.snapshot.DistinctEmails)
    {email : String} :
    matchAccount? email t.accounts = none ↔ matchAccount? email p.tree.accounts = none := by
  simp only [Option.eq_none_iff_forall_not_mem, Option.mem_def]
  constructor
  · intro hnone a ha
    obtain ⟨b, hb, -⟩ := h.live_after hemails ha
    exact hnone b hb
  · intro hnone b hb
    obtain ⟨a, ha, -⟩ := h.live_before hemails hb
    exact hnone a ha

end Reread

/-! ### Accounts -/

/-- A declared account whose unit was only created fits in: if it is not live, it has no role and no
identifier was recorded for it; if it is, it is suspended or convergence moved it there. -/
def FitsIn (p : Prepared) (d : Declared) : Prop :=
  (matchAccount? d.entry.email p.tree.accounts = none →
    d.entry.role = none ∧ recorded? p.previous d.key = none) ∧
  ∀ live, matchAccount? d.entry.email p.tree.accounts = some live →
    live.isSuspended = true ∨ rootPrimary? p.config p.tree = some (d.key, live)

namespace Reread

/-- The primary account under the root is that of an account declared as primary. -/
theorem exists_primary (h : Reread p w t) (hemails : w.org.snapshot.DistinctEmails) {key : String}
    {live : LiveAccount} (hprimary : rootPrimary? p.config p.tree = some (key, live)) :
    ∃ d ∈ p.config.accounts, d.key = key ∧ isPrimary d = true ∧
      matchAccount? d.entry.email p.tree.accounts = some live ∧ live.parent = p.tree.rootId := by
  obtain ⟨d, hd, hkey, hlive, hparent, hemail⟩ :=
    (rootPrimary?_eq_some_iff h.before hemails).1 hprimary
  have hrole := List.find?_some hd
  refine ⟨d, List.mem_of_find?_eq_some hd, hkey, ?_, ?_, hparent⟩
  · unfold isPrimary
    simpa using hrole
  · exact (h.before.inStep.matchAccount? hemails).2 ⟨hlive, hemail⟩

/-- Declared accounts that lead to the same live account are the same. -/
theorem declared_eq {Q : Tolerance} {i : Input} (hfirst : Admissible Q i)
    (hQ : ∀ key, ¬ Q .duplicateEmail key) {d e : Declared} (hd : d ∈ i.config.accounts)
    (he : e ∈ i.config.accounts) {accounts : List LiveAccount} {live : LiveAccount}
    (hdlive : matchAccount? d.entry.email accounts = some live)
    (helive : matchAccount? e.entry.email accounts = some live) : d = e := by
  have hnone : duplicateEmails i.config = [] := by
    refine List.eq_nil_iff_forall_not_mem.2 fun f hf => ?_
    have hbad := hfirst.emails f hf
    rw [(fatal_of_mem_duplicatesFrom hf).2] at hbad
    exact hQ _ hbad
  have hsame : address d = address e :=
    (matchAccount?_eq_some hdlive).2.symm.trans (matchAccount?_eq_some helive).2
  exact List.inj_on_of_nodup_map (duplicateEmails_eq_nil.1 hnone) hd he hsame

/-- The primary account fits after convergence: unless it is suspended, it is in its unit. -/
theorem primary_admits (h : Reread p w t) (hemails : w.org.snapshot.DistinctEmails)
    (hkeys : KeysApart p.config) (hfail : Unharmed w.org (converged p w)) {d : Declared}
    (hd : d ∈ p.config.accounts) {live : LiveAccount}
    (hprimary : rootPrimary? p.config p.tree = some (d.key, live)) {ou : LiveOu}
    (hou : StandsFor t.ous d.entry.path ou) {b : LiveAccount}
    (hb : matchAccount? d.entry.email t.accounts = some b) : PresentAdmits nothing d ou b := by
  have hall : d ∈ p.config.allAccounts := (List.mem_filter.1 hd).1
  obtain ⟨e, he, hkey, hrole, hmatch, -⟩ := h.exists_primary hemails hprimary
  obtain rfl : e = d := by
    have heq := hkeys.account? (List.mem_filter.1 he).1
    rw [hkey, hkeys.account? hall] at heq
    exact (Option.some.inj heq).symm
  cases hlive : live.isSuspended with
  | true =>
    obtain ⟨b', hb', hmoved⟩ := h.live_after hemails hmatch
    obtain rfl : b' = b := Option.some.inj (hb'.symm.trans hb)
    exact .inl (hmoved.same.2.2.2.trans hlive)
  | false =>
    have hthere : { live with parent := ou.id } ∈ (converged p w).snapshot.accounts := by
      rw [h.ous_eq] at hou
      exact converge_moves_primary h.before hemails hprimary hlive (hkeys.account? hall) hou hfail
    have hmoved := (h.inStep.matchAccount? (h.distinctEmails hemails)).2
      ⟨hthere, (matchAccount?_eq_some hmatch).2⟩
    obtain rfl : { live with parent := ou.id } = b := Option.some.inj (hmoved.symm.trans hb)
    exact .inr (.inr ⟨rfl, .inl hrole⟩)

/-- An account that is as it should be in a unit that was only created fits in: nothing was under
that unit before, so the account is suspended or is the primary one. -/
theorem fitsIn_of_accountAdmits (h : Reread p w t) (hemails : w.org.snapshot.DistinctEmails)
    (hfirst : Admissible (correctable p) (firstInput p w)) {d : Declared}
    (hd : d ∈ p.config.accounts) {ou : LiveOu} (hou : StandsFor t.ous d.entry.path ou)
    (hnew : ou ∉ p.tree.ous) (hadmits : AccountAdmits nothing (secondInput p w t) d) :
    FitsIn p d := by
  have hignored : p.config.options.isIgnored (Path.topLevel d.entry.path) = false :=
    (hfirst.accounts d hd).not_ignored (not_correctable (by decide) (by decide))
  rw [accountAdmits_iff hignored hou, absentAdmits_iff id id] at hadmits
  obtain ⟨habsent, hpresent⟩ := hadmits
  refine ⟨fun hnone => habsent ((h.not_live_iff hemails).2 hnone), fun live hlive => ?_⟩
  obtain ⟨b, hb, hmoved⟩ := h.live_after hemails hlive
  have hin := ((h.before.inStep.matchAccount? hemails).1 hlive).1
  rcases hpresent b hb with hsuspended | ⟨-, hno⟩ | ⟨hparent, -⟩
  · exact .inl (hmoved.same.2.2.2.symm.trans hsuspended)
  · exact hno.elim
  · rcases hmoved.2 with hstays | hmay
    · have hheld := h.before.housed.accountParents live hin
      rw [← hstays, hparent, h.not_isParent hou.mem hnew] at hheld
      cases hheld
    · rcases hmay.suspended_or_primary h.before hemails hin with hsuspended | ⟨key, hprimary⟩
      · exact .inl hsuspended
      · obtain ⟨e, he, rfl, -, hmatch, -⟩ := h.exists_primary hemails hprimary
        obtain rfl := declared_eq hfirst (fun key => not_correctable (by decide) (by decide))
          hd he hlive hmatch
        exact .inr hprimary

/-- An account whose unit was there before is as it should be after convergence. -/
theorem accountAdmits_of_mem_before (h : Reread p w t) (hemails : w.org.snapshot.DistinctEmails)
    (hkeys : KeysApart p.config) (hfail : Unharmed w.org (converged p w))
    (hfirst : Admissible (correctable p) (firstInput p w)) {d : Declared}
    (hd : d ∈ p.config.accounts) {ou : LiveOu} (hou : StandsFor t.ous d.entry.path ou)
    (hold : ou ∈ p.tree.ous) : AccountAdmits nothing (secondInput p w t) d := by
  have hignored : p.config.options.isIgnored (Path.topLevel d.entry.path) = false :=
    (hfirst.accounts d hd).not_ignored (not_correctable (by decide) (by decide))
  obtain ⟨more, hmore⟩ := h.exists_ous
  have hou₁ : StandsFor p.tree.ous d.entry.path ou := StandsFor.of_append (hmore ▸ hou) hold
  obtain ⟨habsent, hpresent⟩ :=
    (accountAdmits_iff (i := firstInput p w) hignored hou₁).1 (hfirst.accounts d hd)
  rw [accountAdmits_iff hignored hou, absentAdmits_iff id id]
  refine ⟨fun hnone => ?_, fun b hb => ?_⟩
  · exact (absentAdmits_iff (i := firstInput p w) (not_correctable (by decide) (by decide))
      (not_correctable (by decide) (by decide))).1
      (habsent ((h.not_live_iff hemails).1 hnone))
  · obtain ⟨live, hlive, hmoved⟩ := h.live_before hemails hb
    obtain ⟨-, hname, -, hstate⟩ := hmoved.same
    rcases hpresent live hlive with hsuspended | ⟨-, hallowed⟩ | ⟨hparent, hnamed⟩
    · exact .inl (hstate.trans hsuspended)
    · obtain ⟨live', hprimary⟩ := (hallowed.resolve_left (by decide)).2
      exact h.primary_admits hemails hkeys hfail hd hprimary hou hb
    · rcases hmoved.2 with hstays | hmay
      · refine .inr (.inr ⟨hstays.trans hparent, ?_⟩)
        rcases hnamed with hrole | hsame | hallowed
        · exact .inl hrole
        · exact .inr (.inl (hname.trans hsame))
        · exact absurd hallowed (not_correctable (by decide) (by decide))
      · have hin := ((h.before.inStep.matchAccount? hemails).1 hlive).1
        rcases hmay.suspended_or_primary h.before hemails hin with hsuspended | ⟨key, hprimary⟩
        · exact .inl (hstate.trans hsuspended)
        · -- the primary account is under the root, not in the unit
          obtain ⟨-, -, -, -, -, hroot⟩ := h.exists_primary hemails hprimary
          exact absurd (hparent.symm.trans hroot)
            (h.before.inStep.charts.ne_rootId h.before.rooted.linked hold)

/-- An account that fits in is as it should be after convergence, wherever its unit comes from. -/
theorem accountAdmits_of_fitsIn (h : Reread p w t) (hemails : w.org.snapshot.DistinctEmails)
    (hkeys : KeysApart p.config) (hfail : Unharmed w.org (converged p w))
    (hfirst : Admissible (correctable p) (firstInput p w)) {d : Declared}
    (hd : d ∈ p.config.accounts) {ou : LiveOu} (hou : StandsFor t.ous d.entry.path ou)
    (hfits : FitsIn p d) : AccountAdmits nothing (secondInput p w t) d := by
  have hignored : p.config.options.isIgnored (Path.topLevel d.entry.path) = false :=
    (hfirst.accounts d hd).not_ignored (not_correctable (by decide) (by decide))
  obtain ⟨habsent, hpresent⟩ := hfits
  rw [accountAdmits_iff hignored hou, absentAdmits_iff id id]
  refine ⟨fun hnone => habsent ((h.not_live_iff hemails).1 hnone), fun b hb => ?_⟩
  obtain ⟨live, hlive, hmoved⟩ := h.live_before hemails hb
  rcases hpresent live hlive with hsuspended | hprimary
  · exact .inl (hmoved.same.2.2.2.trans hsuspended)
  · exact h.primary_admits hemails hkeys hfail hd hprimary hou hb

/-- Past the first gate, an account whose unit is known after convergence is as it should be, unless
the unit was only created and the account does not fit in. -/
theorem accountAdmits_iff_fitsIn (h : Reread p w t) (hemails : w.org.snapshot.DistinctEmails)
    (hkeys : KeysApart p.config) (hfail : Unharmed w.org (converged p w))
    (hfirst : Admissible (correctable p) (firstInput p w)) {d : Declared}
    (hd : d ∈ p.config.accounts) {ou : LiveOu} (hou : StandsFor t.ous d.entry.path ou) :
    AccountAdmits nothing (secondInput p w t) d ↔ (ou ∉ p.tree.ous → FitsIn p d) := by
  constructor
  · intro hadmits hnew
    exact h.fitsIn_of_accountAdmits hemails hfirst hd hou hnew hadmits
  · intro hfits
    by_cases hold : ou ∈ p.tree.ous
    · exact h.accountAdmits_of_mem_before hemails hkeys hfail hfirst hd hou hold
    · exact h.accountAdmits_of_fitsIn hemails hkeys hfail hfirst hd hou (hfits hold)

end Reread

/-! ### What was hidden -/

/-- Nothing is wrong that the first pass could not see. -/
structure Unobscured (p : Prepared) (w : World) (t : OrgTree) : Prop where
  /-- Every reference, of a declared unit or of an account, now stands for one unit. -/
  references : ∀ r ∈ p.config.declaredPaths ++ p.config.accounts.map (·.entry.path),
    ∃ ou, StandsFor t.ous r ou
  /-- The accounts of units that were only created fit in. -/
  accounts : ∀ d ∈ p.config.accounts, ∀ ou, StandsFor t.ous d.entry.path ou → ou ∉ p.tree.ous →
    FitsIn p d
  /-- No target that was not counted before carries too many policies. -/
  limits : ∀ x ∈ limitTargets p.config (tally (secondInput p w t)),
    x ∉ limitTargets p.config (tally (firstInput p w)) →
      WithinLimit p.config.options w.org x.id x.scps
  /-- The core accounts of the manifest are where and what they should be. -/
  manifest : ∀ m, p.manifest = some m → ∀ ou ∈ m.ous,
    CoreOuAdmits nothing t (accountRecords (secondInput p w t)) ou

/-- Roles that have an account in the first pass have one in the second, if nothing is wrong with
accounts there. -/
theorem role_of_records {i j : Input} (hconfig : j.config = i.config)
    (haccounts : ∀ d ∈ j.config.accounts, AccountAdmits nothing j d) {role : LegacyRole}
    (h : (accountRecords i).any (·.role == some role) = true) :
    (accountRecords j).any (·.role == some role) = true := by
  obtain ⟨a, ha, hrole⟩ := List.any_eq_true.1 h
  obtain ⟨d, hd, hrecord⟩ := List.mem_filterMap.1 ha
  rw [← hconfig] at hd
  obtain ⟨b, hb⟩ := Option.isSome_iff_exists.1 (accountRecord?_isSome_iff.2 (haccounts d hd))
  refine List.any_eq_true.2 ⟨b, List.mem_filterMap.2 ⟨d, hd, hb⟩, ?_⟩
  -- both records have the declared role
  have hbrole : b.role = d.entry.role := by rw [(accountRecord?_stands hb).declared]; rfl
  have harole : a.role = d.entry.role := by rw [(accountRecord?_stands hrecord).declared]; rfl
  rwa [hbrole, ← harole]

/-- **Past the first gate, the second pass is clean iff nothing wrong was hidden from the first
one**, if no call of convergence was made to fail. -/
theorem Reread.clean_iff (h : Reread p w t) (hemails : w.org.snapshot.DistinctEmails)
    (hkeys : KeysApart p.config) (hfail : Unharmed w.org (converged p w))
    (hfirst : Admissible (correctable p) (firstInput p w)) :
    (secondPass p w t).hasFatal = false ↔ Unobscured p w t := by
  have hlimit : ∀ id scps, WithinLimit p.config.options (converged p w) id scps ↔
      WithinLimit p.config.options w.org id scps := fun id scps =>
    withinLimit_congr h.frame.policies (issued_converge p.config w.org p.tree).failing_eq
  refine (hasFatal_eq_false_iff (secondInput p w t)).trans ⟨fun hsecond => ?_, fun hclear => ?_⟩
  · refine ⟨fun r hr => ?_, fun d hd ou hou => ?_, fun x hx _ => ?_, fun m hm => ?_⟩
    · rcases List.mem_append.1 hr with hr | hr
      · obtain ⟨ou, hou⟩ := unitAdmits_nothing.1 (hsecond.units r hr)
        exact ⟨ou, ou?_matchOu_eq_some.1 hou⟩
      · obtain ⟨d, hd, rfl⟩ := List.mem_map.1 hr
        exact (hsecond.accounts d hd).resolves
    · exact (h.accountAdmits_iff_fitsIn hemails hkeys hfail hfirst hd hou).1 (hsecond.accounts d hd)
    · exact (hlimit _ _).1 ((hsecond.limits _ rfl x hx).resolve_right id)
    · exact (hsecond.manifest m hm).units
  · have haccounts : ∀ d ∈ p.config.accounts, AccountAdmits nothing (secondInput p w t) d := by
      intro d hd
      obtain ⟨ou, hou⟩ := hclear.references d.entry.path
        (List.mem_append_right _ (List.mem_map_of_mem hd))
      exact (h.accountAdmits_iff_fitsIn hemails hkeys hfail hfirst hd hou).2
        (hclear.accounts d hd ou hou)
    refine ⟨fun f hf => ?_, fun r hr => ?_, haccounts, fun _ horg x hx => ?_, fun m hm => ?_⟩
    · have hbad := hfirst.emails f hf
      rw [(fatal_of_mem_duplicatesFrom hf).2] at hbad
      exact not_correctable (by decide) (by decide) hbad
    · obtain ⟨ou, hou⟩ := hclear.references r (List.mem_append_left _ hr)
      exact unitAdmits_nothing.2 ⟨ou, ou?_matchOu_eq_some.2 hou⟩
    · cases horg
      refine .inl ((hlimit _ _).2 ?_)
      by_cases hbefore : x ∈ limitTargets p.config (tally (firstInput p w))
      · exact (hfirst.limits _ rfl x hbefore).resolve_right
          (not_correctable (by decide) (by decide))
      · exact hclear.limits x hx hbefore
    · have hm₁ := hfirst.manifest m hm
      have hlist : ¬ correctable p .legacyMismatch ouListSubject :=
        not_correctable (by decide) (by decide)
      obtain ⟨more, hmore⟩ := h.exists_ous
      refine ⟨.inl (hm₁.names.resolve_right hlist), .inl fun name hname => ?_,
        hclear.manifest m hm, fun role hrole => ?_⟩
      · have hlive := hm₁.live.resolve_right hlist name hname
        change name ∈ t.ous.map LiveOu.name
        rw [hmore, List.map_append]
        exact List.mem_append_left _ hlive
      · exact role_of_records (i := firstInput p w) (j := secondInput p w t) rfl haccounts
          (hm₁.roles role hrole)

/-- No declared reference leads nowhere in the second pass, unless it is ignored or not a proper
path, if no call of convergence was made to fail. -/
theorem Reread.reaches (h : Reread p w t) (hfail : Unharmed w.org (converged p w)) {r : String}
    (hr : r ∈ p.config.declaredPaths) (hproper : Path.Proper r)
    (hignored : p.config.options.isIgnored (Path.topLevel r) = false) :
    matchOu r t.ous ≠ .notFound := by
  let start : Convergence := ⟨w.org, p.tree, {}⟩
  obtain ⟨hmissing, -⟩ := createMissing_frame p.config h.before
  obtain ⟨-, hsuspended⟩ := relocateSuspended_frame p.config hmissing
  obtain ⟨more, hmore⟩ := hsuspended.ous
  have hlater : Issued (start.createMissing p.config).org (converged p w) :=
    (issued_relocateSuspended p.config _).trans (issued_relocatePrimary p.config _)
  have hcreated := createMissing_reaches p.config h.before.charted
    (Unharmed.split (issued_createMissing p.config start) hlater hfail).1 r hr hproper hignored
  have hous : t.ous = (start.createMissing p.config).tree.ous ++ more :=
    (h.ous_eq.trans (relocatePrimary_ous p.config _)).trans hmore
  rw [hous]
  exact matchOu_ne_notFound_append hcreated more

/-! ### How the run ends -/

/-- Where the second pass is not clean, the run ends with what it found, and leaves the organization
as convergence left it. -/
theorem carryOut_of_fatal (hread : OrgTree.read (converged p w) = .ok t)
    (hfatal : (secondPass p w t).hasFatal = true) :
    carryOut s o p w = (.error (.validation ((secondPass p w t).errors.map Finding.message)),
      { w with org := converged p w }) := by
  have hsettle : settle p (converged p w) =
      .error (.validation ((secondPass p w t).errors.map Finding.message)) :=
    (settle_of_read hread).trans (if_pos hfatal)
  have hconverged : (converge p.config w.org p.tree).org = converged p w := rfl
  simp only [carryOut, hconverged, hsettle]

/-- Concluding never fails with findings. -/
theorem conclude_ne_validation (s : Site) (o : Options) (r : Report) (w : World)
    (messages : List String) : (conclude s o r w).1 ≠ .error (.validation messages) := by
  intro h
  rcases conclude_cases s o r w with ⟨e, he, hc⟩ | ⟨outcome, -, ⟨e, he, hc⟩ | ⟨-, hc⟩⟩
  · rw [hc] at h
    obtain rfl := Except.error.inj h
    unfold commit at he
    split at he
    · cases he
    split at he
    · cases he
    · simp only at he
      split at he <;> cases he
  · rw [hc] at h
    obtain rfl := Except.error.inj h
    unfold publish at he
    split at he <;> cases he
  · rw [hc] at h
    cases h

/-- Where the second pass is clean, the run does not end with findings. -/
theorem carryOut_ne_validation (hread : OrgTree.read (converged p w) = .ok t)
    (hclean : (secondPass p w t).hasFatal = false) (messages : List String) :
    (carryOut s o p w).1 ≠ .error (.validation messages) := by
  have hsettle : settle p (converged p w) =
      .ok ⟨t, (secondPass p w t).warnings, (secondPass p w t).organization⟩ :=
    (settle_of_read hread).trans (if_neg (Bool.not_eq_true _ ▸ hclean))
  have hconverged : (converge p.config w.org p.tree).org = converged p w := rfl
  intro h
  simp only [carryOut, hconverged, hsettle] at h
  split at h
  · rename_i e _
    cases e <;> cases h
  · split at h
    · cases h
    · split at h
      · cases h
      · exact conclude_ne_validation _ _ _ _ _ h

/-- **What the second pass can still find.** Past the first gate, if no call of convergence was made
to fail, the organization is read again with its units of before and new ones, and no declared
reference leads nowhere but ignored and improper ones. The second pass is clean iff nothing wrong
was hidden from the first one; otherwise the run ends with its findings, the organization changed.
-/
theorem run_second_pass (s : Site) (o : Options) (w : World) (p : Prepared)
    (hp : prepare s o w = .ok p) (hw : w.org.snapshot.WellFormed)
    (hemails : w.org.snapshot.DistinctEmails) (hkeys : KeysApart p.config)
    (hfail : Unharmed w.org (converged p w)) :
    ∃ t, OrgTree.read (converged p w) = .ok t ∧ (∃ more, t.ous = p.tree.ous ++ more) ∧
      (∀ r ∈ p.config.declaredPaths, Path.Proper r →
        p.config.options.isIgnored (Path.topLevel r) = false → matchOu r t.ous ≠ .notFound) ∧
      ((secondPass p w t).hasFatal = false ↔ Unobscured p w t) ∧
      (Unobscured p w t → ∀ messages, (run s o w).1 ≠ .error (.validation messages)) ∧
      (¬ Unobscured p w t →
        run s o w = (.error (.validation ((secondPass p w t).errors.map Finding.message)),
          { w with org := converged p w })) := by
  have hrun : run s o w = carryOut s o p w := run_of_prepare hp
  obtain ⟨t, hread, h⟩ := exists_reread hp hw
  have hclean := h.clean_iff hemails hkeys hfail (admissible_of_prepare hp)
  refine ⟨t, hread, h.exists_ous, fun r hr => h.reaches hfail hr, hclean, fun hclear => ?_,
    fun hhidden => ?_⟩
  · rw [hrun]
    exact carryOut_ne_validation hread (hclean.2 hclear)
  · rw [hrun]
    exact carryOut_of_fatal hread (by rw [← Bool.not_eq_false]; exact mt hclean.1 hhidden)

/-! ### Small worlds -/

/-- A configuration in one file, and an organization whose only policy is the quarantine policy. -/
def smallWorld (config : String) (ous : List OuNode) (accounts : List LiveAccount) : World where
  org :=
    { snapshot :=
        { root := some ⟨"r-1", "Root"⟩, ous, accounts
          policies := [⟨"p-q", "Quarantine-New-Object", []⟩] } }
  disk := { nodes := [(["r"], .folder), (["r", "c.json"], .file config)] }

/-- The primary account is under the root, and its unit is not there yet. -/
def freshUnit : World :=
  smallWorld
    ("\x7b\"workload-account-configs\":\x7b\"p\":" ++
      "\x7b\"account-name\":\"P\",\"email\":\"p@x\",\"ou\":\"A\"," ++
      "\"landing-zone-account-type\":\"primary\"\x7d\x7d\x7d")
    [] [⟨"1", "P", "p@x", .active, "r-1"⟩]

/-- An account is in another unit than its own, which is not there yet. -/
def hiddenMismatch : World :=
  smallWorld
    ("\x7b\"workload-account-configs\":\x7b\"w\":" ++
      "\x7b\"account-name\":\"N\",\"email\":\"e@x\",\"ou\":\"A\"\x7d\x7d\x7d")
    [⟨"ou-b", "B", "r-1"⟩] [⟨"1", "N", "e@x", .active, "ou-b"⟩]

/-- Another account has the address of the primary one. -/
def sharedAddress : World :=
  smallWorld
    ("\x7b\"workload-account-configs\":\x7b\"p\":" ++
      "\x7b\"account-name\":\"P\",\"email\":\"p@x\",\"ou\":\"C\"," ++
      "\"landing-zone-account-type\":\"primary\"\x7d\x7d\x7d")
    [⟨"ou-a", "A", "r-1"⟩, ⟨"ou-c", "C", "r-1"⟩]
    [⟨"1", "P", "p@x", .active, "r-1"⟩, ⟨"2", "P", "p@x", .active, "ou-a"⟩]

/-- Another account is declared under the key of the primary one. -/
def sharedKey : World :=
  smallWorld
    ("\x7b\"mandatory-account-configs\":\x7b\"k\":" ++
      "\x7b\"account-name\":\"X\",\"email\":\"x@x\",\"ou\":\"C\"\x7d\x7d," ++
      "\"workload-account-configs\":\x7b\"k\":" ++
      "\x7b\"account-name\":\"P\",\"email\":\"p@x\",\"ou\":\"C\"," ++
      "\"landing-zone-account-type\":\"primary\"\x7d\x7d\x7d")
    [⟨"ou-a", "A", "r-1"⟩, ⟨"ou-c", "C", "r-1"⟩]
    [⟨"1", "P", "p@x", .active, "r-1"⟩, ⟨"2", "X", "x@x", .active, "ou-a"⟩]

/-- Two missing pieces at once: the run creates the unit and moves the primary account there, and
`run_second_pass` tells how the second pass judges that. -/
theorem run_second_pass_fresh_unit :
    ∃ p, prepare smallSite (smallOptions freshUnit) freshUnit = .ok p ∧
      freshUnit.org.snapshot.WellFormed ∧ freshUnit.org.snapshot.DistinctEmails ∧
      KeysApart p.config ∧ Unharmed freshUnit.org (converged p freshUnit) ∧
      ∃ t, OrgTree.read (converged p freshUnit) = .ok t ∧
        ((secondPass p freshUnit t).hasFatal = false ↔ Unobscured p freshUnit t) := by
  have hprepared : (prepare smallSite (smallOptions freshUnit) freshUnit).toOption.any
      (fun p => decide (KeysApart p.config)) = true := by decide +kernel
  have hflat : freshUnit.org.snapshot.Flat ⟨"r-1", "Root"⟩ := by decide +kernel
  have hemails : freshUnit.org.snapshot.DistinctEmails := List.nodup_singleton _
  cases hp : prepare smallSite (smallOptions freshUnit) freshUnit with
  | error e =>
    rw [hp] at hprepared
    cases hprepared
  | ok p =>
    rw [hp] at hprepared
    have hkeys : KeysApart p.config := of_decide_eq_true hprepared
    have hfail : Unharmed freshUnit.org (converged p freshUnit) := Unharmed.of_failing_eq_nil rfl _
    obtain ⟨t, hread, -, -, hclean, -⟩ := run_second_pass smallSite (smallOptions freshUnit)
      freshUnit p hp hflat.wellFormed hemails hkeys hfail
    exact ⟨p, rfl, hflat.wellFormed, hemails, hkeys, hfail, t, hread, hclean⟩

/-- A run ends with findings after it changed the organization. -/
def endsRejected (w : World) : Bool :=
  match run smallSite (smallOptions w) w with
  | (.error (.validation _), w') => w'.org.calls ≠ w.org.calls
  | _ => false

/-- In a well-formed organization, and though no call is made to fail, the first gate lets a run
through whose second pass is not clean, so that it changes the organization and ends with
findings. -/
def LetThrough (w : World) : Prop :=
  w.org.snapshot.WellFormed ∧ w.org.failing = [] ∧
    ∃ p t messages, prepare smallSite (smallOptions w) w = .ok p ∧
      OrgTree.read (converged p w) = .ok t ∧ (secondPass p w t).hasFatal = true ∧
      (run smallSite (smallOptions w) w).1 = .error (.validation messages) ∧
      (run smallSite (smallOptions w) w).2.org ≠ w.org

/-- A run that ends with findings after it changed the organization was let through. -/
theorem letThrough_of_endsRejected (hflat : w.org.snapshot.Flat ⟨"r-1", "Root"⟩)
    (hfailing : w.org.failing = []) (h : endsRejected w = true) : LetThrough w := by
  refine ⟨hflat.wellFormed, hfailing, ?_⟩
  unfold endsRejected at h
  split at h
  · rename_i messages w' hrun
    have hcalls : w'.org.calls ≠ w.org.calls := of_decide_eq_true h
    cases hp : prepare smallSite (smallOptions w) w with
    | error e =>
      have hsame : (run smallSite (smallOptions w) w).2 = w :=
        run_unprepared fun p h => by rw [hp] at h; cases h
      rw [hrun] at hsame
      exact absurd (congrArg (fun v : World => v.org.calls) hsame) hcalls
    | ok p =>
      obtain ⟨t, hread, -⟩ := exists_reread hp hflat.wellFormed
      have hcarry : run smallSite (smallOptions w) w = carryOut smallSite (smallOptions w) p w :=
        run_of_prepare hp
      refine ⟨p, t, messages, rfl, hread, ?_, by rw [hrun], ?_⟩
      · rw [← Bool.not_eq_false]
        intro hclean
        have hnone := carryOut_ne_validation (s := smallSite) (o := smallOptions w) hread hclean
          messages
        rw [← hcarry, hrun] at hnone
        exact hnone rfl
      · rw [hrun]
        exact fun heq => hcalls (congrArg Organization.calls heq)
  · cases h

/-- The first gate lets through what convergence does not put right: a mismatch hidden behind a
missing unit, and a primary account whose address or key another account shares. -/
theorem second_pass_not_clean :
    LetThrough hiddenMismatch ∧ LetThrough sharedAddress ∧ LetThrough sharedKey := by
  refine ⟨letThrough_of_endsRejected ?_ rfl ?_, letThrough_of_endsRejected ?_ rfl ?_,
    letThrough_of_endsRejected ?_ rfl ?_⟩ <;> decide +kernel

end OrgAlign.Pipeline
