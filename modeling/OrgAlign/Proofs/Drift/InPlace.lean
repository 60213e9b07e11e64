import OrgAlign.Proofs.Drift.Creation
import OrgAlign.Proofs.Drift.Primary

/-!
# Accounts in their place

Convergence that notes no failure leaves every suspended account in the unit of suspended accounts
and no primary account under the root. Main statements:

* `suspendedTarget_none`, `suspendedTarget_some`: that unit is there, or a failure is noted;
* `relocateSuspended_relocates`, `relocateSuspended_complete`: which accounts go there;
* `relocateSuspended_inUnit`, `relocatePrimary_leaves_none`: the two stages that move accounts;
* `converge_inPlace`: all of convergence;
* `converge_silent`: where nothing is missing and every account is in its place, nothing is called.
-/

namespace OrgAlign.Drift

open Config Org Reconcile

namespace Convergence

variable {c : Convergence}

/-! ### The unit -/

/-- If there is no unit for suspended accounts, that is noted as a failure. -/
theorem suspendedTarget_none {path : String} (h : (c.suspendedTarget path).1 = none) :
    (c.suspendedTarget path).2.report.failures ≠ [] := by
  have hnoted : ∀ (d : Convergence) reason, (d.fail reason).report.failures ≠ [] := fun d reason =>
    List.append_ne_nil_of_right_ne_nil _ (List.cons_ne_nil _ _)
  unfold suspendedTarget at h ⊢
  split
  · rename_i hfound
    simp only [hfound] at h
    cases h
  · rename_i hmissing
    simp only [hmissing] at h
    split
    · rename_i hmade
      rw [hmade] at h
      cases h
    · exact hnoted _ _
    · rename_i hmade
      rw [hmade] at h
      split
      · rename_i hfound
        simp only [hfound] at h
        cases h
      · exact hnoted _ _

/-- If there is one, it is at the path. -/
theorem suspendedTarget_some (hc : c.Charted) {path : String} (hproper : Path.Proper path)
    {id : String} {c' : Convergence} (h : c.suspendedTarget path = (some id, c')) :
    ∃ ou ∈ c'.tree.ous, ou.id = id ∧ ou.path = path := by
  cases hfound : c.tree.ouByPath? path with
  | some ou =>
    simp only [suspendedTarget, hfound] at h
    cases h
    obtain ⟨hou, hpath⟩ := OrgTree.ouByPath?_eq_some hfound
    exact ⟨ou, hou, rfl, hpath⟩
  | none =>
    obtain ⟨above, name, hname, rfl⟩ := hproper.exists_join
    cases hparent : parentFor c.tree (Path.join above name) with
    | error e =>
      simp only [suspendedTarget, hfound, createOu, hparent] at h
      cases h
    | ok parent =>
      obtain ⟨_, -, -, ⟨e, -, hfailed⟩ | ⟨ou, hcreated, hpath, hous, -⟩⟩ :=
        createOu_below hc hname (reaches_of_parentFor hname hparent) hfound
      · simp only [suspendedTarget, hfound, hfailed] at h
        cases h
      · rcases hmade : c.createOu (Path.join above name) with ⟨creation, d⟩
        rw [hmade] at hcreated hous
        cases hcreated
        simp only [suspendedTarget, hfound, hmade] at h
        cases h
        refine ⟨ou, ?_, rfl, hpath⟩
        change ou ∈ d.tree.ous
        rw [hous]
        exact List.mem_append_right _ (List.mem_singleton_self ou)

/-- Looking for the unit of suspended accounts moves nothing. -/
theorem suspendedTarget_frame (hc : c.Tracks) (path : String) :
    (c.suspendedTarget path).2.Tracks ∧ Frame (fun _ => False) c (c.suspendedTarget path).2 :=
  suspendedTarget_keeps (fun c' => c'.Tracks ∧ Frame (fun _ => False) c c')
    (fun _ _ h => ⟨h.1.congr rfl rfl, h.2.congr rfl rfl⟩)
    (fun _ h => ⟨h.1.createOu path, h.2.createOu path⟩) c ⟨hc, Frame.refl _ c⟩

theorem issued_suspendedTarget (c : Convergence) (path : String) :
    Issued c.org (c.suspendedTarget path).2.org :=
  suspendedTarget_keeps (fun c' => Issued c.org c'.org) (fun _ _ h => h)
    (fun c' h => h.trans (c'.issued_createOu path)) c (Issued.refl c.org)

/-! ### The moves -/

theorem issued_moveSuspended (targetId targetPath : String) (c : Convergence) (a : LiveAccount) :
    Issued c.org (moveSuspended targetId targetPath c a).org :=
  moveSuspended_keeps (fun c' => Issued c.org c'.org) (fun _ _ h => h) targetId targetPath c a
    (c.issued_move a targetId targetPath)

theorem issued_foldl_moveSuspended (targetId targetPath : String) (as : List LiveAccount)
    (c : Convergence) : Issued c.org (as.foldl (moveSuspended targetId targetPath) c).org :=
  foldl_keeps (fun d : Convergence => Issued c.org d.org)
    (fun d a h => h.trans (issued_moveSuspended targetId targetPath d a)) as c (Issued.refl c.org)

/-! ### Failures -/

/-- An attempt to move an account takes no noted failure back. -/
theorem failures_move (c : Convergence) (a : LiveAccount) (targetId targetPath : String) :
    c.report.failures <+: (c.move a targetId targetPath).2.report.failures := by
  rcases c.move_cases a targetId targetPath with ⟨e, -, h⟩ | ⟨-, h⟩
  · rw [h]
    simp only
    split
    · exact List.prefix_rfl
    · exact List.prefix_append _ _
  · rw [h]
    exact List.prefix_rfl

/-- An attempt to move an account that is made to fail is noted as a failure. -/
theorem failures_move_of_failing {a : LiveAccount} {targetId : String}
    (h : ∃ x ∈ [a.id, targetId], x ∈ c.org.failing) (targetPath : String) :
    (c.move a targetId targetPath).2.report.failures ≠ [] := by
  obtain ⟨e, hmove⟩ := move_of_failing h targetPath
  rw [hmove]
  exact List.append_ne_nil_of_right_ne_nil _ (List.cons_ne_nil _ _)

theorem failures_moveSuspended (targetId targetPath : String) (c : Convergence) (a : LiveAccount) :
    (moveSuspended targetId targetPath c a).report.failures =
      (c.move a targetId targetPath).2.report.failures := by
  rcases moveSuspended_cases targetId targetPath c a with h | ⟨f, h⟩
  · rw [h]
  · rw [h]
    rfl

/-- Where moving suspended accounts notes no failure, none of them is made to fail, and neither is
the unit. -/
theorem foldl_moveSuspended_available {targetId targetPath : String} {as : List LiveAccount}
    (hnone : (as.foldl (moveSuspended targetId targetPath) c).report.failures = []) :
    ∀ a ∈ as, a.id ∉ c.org.failing ∧ targetId ∉ c.org.failing := by
  induction as generalizing c with
  | nil => exact fun a ha => absurd ha List.not_mem_nil
  | cons a as ih =>
    rw [List.foldl_cons] at hnone
    have hlater : (moveSuspended targetId targetPath c a).report.failures <+: [] := by
      rw [← hnone]
      refine foldl_keeps (fun d : Convergence =>
        (moveSuspended targetId targetPath c a).report.failures <+: d.report.failures)
        (fun d b h => h.trans ?_) as _ List.prefix_rfl
      rw [failures_moveSuspended]
      exact d.failures_move b targetId targetPath
    have hfirst : (c.move a targetId targetPath).2.report.failures = [] := by
      rw [← failures_moveSuspended]
      exact List.prefix_nil.1 hlater
    have hrest := ih hnone
    rw [(issued_moveSuspended targetId targetPath c a).failing_eq] at hrest
    rw [List.forall_mem_cons]
    refine ⟨⟨fun h => ?_, fun h => ?_⟩, hrest⟩
    · exact failures_move_of_failing ⟨a.id, List.mem_cons_self, h⟩ targetPath hfirst
    · exact failures_move_of_failing ⟨targetId, List.mem_cons_of_mem _ List.mem_cons_self, h⟩
        targetPath hfirst

theorem failures_relocatePrimary (config : Configuration) (c : Convergence) :
    c.report.failures <+: (c.relocatePrimary config).report.failures := by
  cases hmove : primaryMove? config c.tree with
  | none =>
    rcases relocatePrimary_of_none hmove with h | ⟨reason, h⟩
    · simp only [h, List.prefix_rfl]
    · rw [h]
      exact List.prefix_append _ _
  | some m =>
    have hfailures := c.failures_move m.1 m.2.id m.2.path
    rcases relocatePrimary_of_some hmove with h | ⟨f, h⟩
    · rwa [h]
    · rwa [h]

/-- Where the last stage notes no failure, neither the primary account nor its unit is made to
fail. -/
theorem relocatePrimary_available (hnone : (c.relocatePrimary config).report.failures = [])
    {live : LiveAccount} {ou : LiveOu} (hmove : primaryMove? config c.tree = some (live, ou)) :
    live.id ∉ c.org.failing ∧ ou.id ∉ c.org.failing := by
  have hquiet : (c.move live ou.id ou.path).2.report.failures = [] := by
    rcases relocatePrimary_of_some hmove with h | ⟨f, h⟩
    · rwa [h] at hnone
    · rwa [h] at hnone
  refine ⟨fun h => ?_, fun h => ?_⟩
  · exact failures_move_of_failing ⟨live.id, List.mem_cons_self, h⟩ ou.path hquiet
  · exact failures_move_of_failing ⟨ou.id, List.mem_cons_of_mem _ List.mem_cons_self, h⟩ ou.path
      hquiet

/-! ### In place -/

/-- An account is right in the unit at a path. -/
def InUnit (t : OrgTree) (path : String) (a : LiveAccount) : Prop :=
  ∃ ou ∈ t.ous, ou.path = path ∧ a.parent = ou.id

/-- An account is right in the unit at a path iff that is the path of its parent. -/
theorem Tracks.parentPath?_eq_some (hc : c.Tracks) {path : String} {a : LiveAccount} :
    c.tree.parentPath? a = some path ↔ InUnit c.tree path a := by
  unfold OrgTree.parentPath?
  rw [Option.map_eq_some_iff]
  constructor
  · rintro ⟨ou, hfind, hpath⟩
    obtain ⟨hou, hid⟩ := (hc.inStep.charts.ouById?_eq_some hc.rooted.linked).1 hfind
    exact ⟨ou, hou, hpath, hid.symm⟩
  · rintro ⟨ou, hou, hpath, hparent⟩
    exact ⟨ou, (hc.inStep.charts.ouById?_eq_some hc.rooted.linked).2 ⟨hou, hparent.symm⟩, hpath⟩

/-- Out of place are the suspended accounts that are not in their unit. -/
theorem Tracks.mem_outOfPlace (hc : c.Tracks) {path : String} {a : LiveAccount} :
    a ∈ outOfPlace c.tree path ↔
      a ∈ c.org.snapshot.accounts ∧ a.isSuspended = true ∧ ¬ InUnit c.tree path a := by
  unfold outOfPlace
  rw [List.mem_filter, hc.inStep.mem_accounts, Bool.and_eq_true, decide_eq_true_eq, ne_eq,
    hc.parentPath?_eq_some]

/-- No account is out of its place twice. -/
theorem Tracks.nodup_outOfPlace (hc : c.Tracks) (path : String) :
    ((outOfPlace c.tree path).map LiveAccount.id).Nodup :=
  (hc.inStep.nodup_accounts hc.housed).sublist (List.filter_sublist.map _)

theorem relocateSuspended_of_some {config : Configuration} {id : String} {c' : Convergence}
    (hout : outOfPlace c.tree config.options.suspendedOu ≠ [])
    (htarget : c.suspendedTarget config.options.suspendedOu = (some id, c')) :
    c.relocateSuspended config = (outOfPlace c.tree config.options.suspendedOu).foldl
      (moveSuspended id config.options.suspendedOu) c' := by
  simp only [relocateSuspended, htarget]

theorem relocateSuspended_of_none {config : Configuration} {c' : Convergence}
    (hout : outOfPlace c.tree config.options.suspendedOu ≠ [])
    (htarget : c.suspendedTarget config.options.suspendedOu = (none, c')) :
    c.relocateSuspended config = c' := by
  simp only [relocateSuspended, htarget]

/-- A unit that holds an account, and is there after units were added, was there before. -/
theorem Frame.mem_of_parent {movable : String → Prop} {c' : Convergence} (hc : c.Tracks)
    (hc' : c'.Tracks) (h : Frame movable c c') {a : LiveAccount}
    (ha : a ∈ c.org.snapshot.accounts) {ou : LiveOu} (hou : ou ∈ c'.tree.ous)
    (hparent : a.parent = ou.id) : ou ∈ c.tree.ous := by
  obtain ⟨more, hmore⟩ := h.ous
  rcases hc.inStep.charts.parent_cases (hc.housed.accountParents a ha) with hroot | ⟨up, hup, hid⟩
  · exact absurd (hparent.symm.trans (hroot.trans h.root.symm))
      (hc'.inStep.charts.ne_rootId hc'.rooted.linked hou)
  · have hup' : up ∈ c'.tree.ous := hmore ▸ List.mem_append_left _ hup
    rwa [← List.inj_on_of_nodup_map (hc'.inStep.charts.map_id_ous hc'.rooted.ids) hup' hou
      (hid.trans hparent)]

/-- Units that were added leave the suspended accounts in or out of their place. -/
theorem Frame.mem_outOfPlace {c' : Convergence} (hc : c.Tracks) (hc' : c'.Tracks)
    (h : Frame (fun _ => False) c c') {path : String} {a : LiveAccount} :
    a ∈ outOfPlace c'.tree path ↔ a ∈ outOfPlace c.tree path := by
  rw [hc'.mem_outOfPlace, hc.mem_outOfPlace, h.accounts_eq]
  refine and_congr_right fun ha => and_congr_right fun _ => not_congr ⟨?_, ?_⟩
  · rintro ⟨ou, hou, hpath, hparent⟩
    exact ⟨ou, Frame.mem_of_parent hc hc' h ha hou hparent, hpath, hparent⟩
  · rintro ⟨ou, hou, hpath, hparent⟩
    obtain ⟨more, hmore⟩ := h.ous
    exact ⟨ou, hmore ▸ List.mem_append_left _ hou, hpath, hparent⟩

/-- A unit found by reading the hierarchy again is one that the tree shows. -/
theorem Tracks.reread?_eq_some (hc : c.Tracks) {path id : String}
    (h : reread? c.org path = some id) : ∃ ou ∈ c.tree.ous, ou.id = id ∧ ou.path = path := by
  obtain ⟨t, ht, hstep⟩ := inStep_read hc.rooted hc.housed
  simp only [reread?, ht] at h
  obtain ⟨ou, hfound, hid⟩ := Option.map_eq_some_iff.1 h
  obtain ⟨hou, hpath⟩ := OrgTree.ouByPath?_eq_some hfound
  rw [hstep.ous, ← hc.inStep.ous] at hou
  exact ⟨ou, hou, hid, hpath⟩

/-- The unit that suspended accounts are moved to is at the path, if it was there before. -/
theorem suspendedTarget_found (hc : c.Tracks) {path id : String} {c' : Convergence}
    (h : c.suspendedTarget path = (some id, c')) :
    ∃ ou ∈ c'.tree.ous, ou.id = id ∧ (ou ∈ c.tree.ous → ou.path = path) := by
  cases hfound : c.tree.ouByPath? path with
  | some ou =>
    simp only [suspendedTarget, hfound] at h
    cases h
    obtain ⟨hou, hpath⟩ := OrgTree.ouByPath?_eq_some hfound
    exact ⟨ou, hou, rfl, fun _ => hpath⟩
  | none =>
    have htracks := hc.createOu path
    rcases hmade : c.createOu path with ⟨creation, d⟩
    rw [hmade] at htracks
    cases creation with
    | failed e =>
      simp only [suspendedTarget, hfound, hmade] at h
      cases h
    | created ou =>
      simp only [suspendedTarget, hfound, hmade] at h
      cases h
      have hous := ous_of_created hmade
      -- a new unit has an identifier of its own
      have hnew : ou ∉ c.tree.ous := by
        have hids := (htracks.inStep.charts.map_id_ous htracks.rooted.ids).of_map
        rw [hous] at hids
        exact fun hou => (List.nodup_append.1 hids).2.2 ou hou ou (List.mem_singleton_self ou) rfl
      refine ⟨ou, ?_, rfl, fun hou => absurd hou hnew⟩
      change ou ∈ d.tree.ous
      rw [hous]
      exact List.mem_append_right _ (List.mem_singleton_self ou)
    | present =>
      simp only [suspendedTarget, hfound, hmade] at h
      split at h
      · rename_i hreread
        cases h
        obtain ⟨ou, hou, hid, hpath⟩ := htracks.reread?_eq_some hreread
        exact ⟨ou, hou, hid, fun _ => hpath⟩
      · cases h

/-- The second stage moves the accounts that are out of their place to one unit, but for those that
are made to fail. -/
theorem relocateSuspended_relocates {config : Configuration} (hc : c.Tracks) {id : String}
    {c' : Convergence} (hout : outOfPlace c.tree config.options.suspendedOu ≠ [])
    (htarget : c.suspendedTarget config.options.suspendedOu = (some id, c'))
    (hfree : id ∉ c.org.failing) :
    Relocates c' (c.relocateSuspended config)
      (((outOfPlace c.tree config.options.suspendedOu).filter (·.id ∉ c.org.failing)).map
        (⟨·.id, id, config.options.suspendedOu⟩)) := by
  have hframe := suspendedTarget_frame hc config.options.suspendedOu
  have hissued := issued_suspendedTarget c config.options.suspendedOu
  rw [htarget] at hframe hissued
  obtain ⟨htracks, hframe⟩ := hframe
  obtain ⟨ou, hou, rfl, hpath⟩ := suspendedTarget_found hc htarget
  rw [relocateSuspended_of_some hout htarget, ← hissued.failing_eq]
  refine foldl_moveSuspended_relocates _ htracks (fun a ha => ?_)
    (hc.nodup_outOfPlace _) hou (hissued.failing_eq ▸ hfree)
  -- none of the accounts is in that unit yet
  obtain ⟨hin, -, haway⟩ := hc.mem_outOfPlace.1 ha
  refine ⟨hframe.accounts_eq ▸ hin, fun hparent => ?_⟩
  have hou' := Frame.mem_of_parent hc htracks hframe hin hou hparent
  exact haway ⟨ou, hou', hpath hou', hparent⟩

/-- Where the second stage has accounts to move and notes no failure, it moves all of them to a unit
at the path. -/
theorem relocateSuspended_complete {config : Configuration} (hc : c.Tracks)
    (hproper : Path.Proper config.options.suspendedOu)
    (hnone : (c.relocateSuspended config).report.failures = [])
    (hout : outOfPlace c.tree config.options.suspendedOu ≠ []) :
    ∃ ou c', c.suspendedTarget config.options.suspendedOu = (some ou.id, c') ∧
      ou ∈ c'.tree.ous ∧ ou.path = config.options.suspendedOu ∧
      Relocates c' (c.relocateSuspended config)
        ((outOfPlace c.tree config.options.suspendedOu).map
          (⟨·.id, ou.id, config.options.suspendedOu⟩)) := by
  rcases htarget : c.suspendedTarget config.options.suspendedOu with ⟨id?, c'⟩
  cases id? with
  | none =>
    rw [relocateSuspended_of_none hout htarget] at hnone
    have hnoted := suspendedTarget_none (congrArg Prod.fst htarget)
    rw [htarget] at hnoted
    exact absurd hnone hnoted
  | some id =>
    obtain ⟨ou, hou, rfl, hpath⟩ := suspendedTarget_some hc.charted hproper htarget
    have hissued := issued_suspendedTarget c config.options.suspendedOu
    rw [htarget] at hissued
    rw [relocateSuspended_of_some hout htarget] at hnone
    have hfree := foldl_moveSuspended_available hnone
    rw [hissued.failing_eq] at hfree
    obtain ⟨a, ha⟩ := List.exists_mem_of_ne_nil _ hout
    have hmoved := relocateSuspended_relocates hc hout htarget (hfree a ha).2
    rw [List.filter_eq_self.2 fun b hb => decide_eq_true (hfree b hb).1] at hmoved
    exact ⟨ou, c', rfl, hou, hpath, hmoved⟩

/-- The second stage leaves every suspended account in its unit, if it notes no failure. -/
theorem relocateSuspended_inUnit {config : Configuration} (hc : c.Tracks)
    (hproper : Path.Proper config.options.suspendedOu)
    (hnone : (c.relocateSuspended config).report.failures = []) {b : LiveAccount}
    (hb : b ∈ (c.relocateSuspended config).org.snapshot.accounts)
    (hsuspended : b.isSuspended = true) :
    InUnit (c.relocateSuspended config).tree config.options.suspendedOu b := by
  obtain ⟨-, hframe⟩ := relocateSuspended_frame config hc
  obtain ⟨more, hmore⟩ := hframe.ous
  obtain ⟨a, ha, hmoved⟩ := hframe.exists_before hb
  have hactive : a.isSuspended = true := hmoved.same.2.2.2.symm.trans hsuspended
  by_cases hplace : a ∈ outOfPlace c.tree config.options.suspendedOu
  · obtain ⟨ou, c', -, hou, hpath, hrelocates⟩ :=
      relocateSuspended_complete hc hproper hnone (List.ne_nil_of_mem hplace)
    have hparent := hrelocates.parent_of_mem (List.mem_map_of_mem hplace) hb
      hmoved.same.1.symm
    exact ⟨ou, hrelocates.ous ▸ hou, hpath, hparent⟩
  · -- an account that was in its place stays there
    obtain ⟨ou, hou, hpath, hparent⟩ : InUnit c.tree config.options.suspendedOu a := by
      by_contra hout
      exact hplace (hc.mem_outOfPlace.2 ⟨ha, hactive, hout⟩)
    refine ⟨ou, hmore ▸ List.mem_append_left _ hou, hpath, ?_⟩
    rcases hmoved.2 with hstays | ⟨d, hd, hid⟩
    · exact hstays.trans hparent
    · have heq := List.inj_on_of_nodup_map hc.housed.accountIds (hc.mem_outOfPlace.1 hd).1 ha hid
      exact absurd (heq ▸ hd) hplace

/-! ### The primary account -/

/-- The last stage moves the primary account under the root to its unit, if no failure is noted. -/
theorem relocatePrimary_moved (hc : c.Tracks)
    (hnone : (c.relocatePrimary config).report.failures = []) :
    Relocates c (c.relocatePrimary config)
      ((primaryMove? config c.tree).toList.map primaryTransfer) := by
  have hmoves := relocatePrimary_relocates config hc
    fun m hm => (relocatePrimary_available hnone hm).2
  rwa [List.filter_eq_self.2 fun m hm => decide_eq_true
    (relocatePrimary_available hnone (Option.mem_toList.1 hm)).1] at hmoves

/-- And it leaves none under the root. -/
theorem relocatePrimary_leaves_none {config : Configuration} (hc : c.Tracks)
    (hemails : c.org.snapshot.DistinctEmails)
    (hkey : ∀ d, primary? config = some d → config.account? d.key = some d)
    (hnone : (c.relocatePrimary config).report.failures = []) :
    rootPrimary? config (c.relocatePrimary config).tree = none := by
  obtain ⟨htracks, hframe⟩ := relocatePrimary_frame config hc
  refine Option.eq_none_iff_forall_not_mem.2 fun ⟨key, live⟩ hafter => ?_
  obtain ⟨d, hd, hdkey, hlive, hroot, hemail⟩ :=
    (rootPrimary?_eq_some_iff htracks (hframe.distinctEmails hemails)).1 hafter
  -- it was there before
  obtain ⟨a, ha, hmoved⟩ := hframe.exists_before hlive
  have hwas : a.parent = c.tree.rootId := by
    rcases hmoved.2 with hstays | ⟨key', live', hprimary, hid⟩
    · exact hstays.symm.trans (hroot.trans hframe.root)
    · obtain ⟨-, -, -, hin, hparent, -⟩ := (rootPrimary?_eq_some_iff hc hemails).1 hprimary
      rwa [List.inj_on_of_nodup_map hc.housed.accountIds hin ha hid] at hparent
  have hbefore : rootPrimary? config c.tree = some (d.key, a) :=
    (rootPrimary?_eq_some_iff hc hemails).2 ⟨d, hd, rfl, ha, hwas, by
      rw [← hmoved.same.2.2.1, hemail]⟩
  -- so it was moved to a unit
  cases hou : (matchOu d.entry.path c.tree.ous).ou? with
  | none =>
    simp [relocatePrimary, hbefore, hkey d hd, hou, fail] at hnone
  | some ou =>
    have hstands := ou?_matchOu_eq_some.1 hou
    have hmove : primaryMove? config c.tree = some (a, ou) :=
      primaryMove?_eq_some.2 ⟨d.key, d, hbefore, hkey d hd, hstands⟩
    have hthere : { a with parent := ou.id } ∈ (c.relocatePrimary config).org.snapshot.accounts :=
      (relocatePrimary_moved hc hnone).mem_moved
        (List.mem_map_of_mem (Option.mem_toList.2 hmove)) ha rfl
    have heq := List.inj_on_of_nodup_map htracks.housed.accountIds hthere hlive hmoved.same.1.symm
    have hunit : ou ∈ (c.relocatePrimary config).tree.ous := by
      rw [relocatePrimary_ous]
      exact hstands.mem
    exact htracks.inStep.charts.ne_rootId htracks.rooted.linked hunit (by rw [← hroot, ← heq])

/-- The last stage leaves suspended accounts in their unit. -/
theorem relocatePrimary_inUnit {config : Configuration} (hc : c.Tracks) {path : String}
    (hplace : ∀ a ∈ c.org.snapshot.accounts, a.isSuspended = true → InUnit c.tree path a)
    {b : LiveAccount} (hb : b ∈ (c.relocatePrimary config).org.snapshot.accounts)
    (hsuspended : b.isSuspended = true) : InUnit (c.relocatePrimary config).tree path b := by
  obtain ⟨-, hframe⟩ := relocatePrimary_frame config hc
  obtain ⟨a, ha, hmoved⟩ := hframe.exists_before hb
  obtain ⟨ou, hou, hpath, hparent⟩ := hplace a ha (hmoved.same.2.2.2.symm.trans hsuspended)
  refine ⟨ou, relocatePrimary_ous config c ▸ hou, hpath, ?_⟩
  rcases hmoved.2 with hstays | ⟨key, live, hprimary, hid⟩
  · exact hstays.trans hparent
  · -- the primary account is under the root, and no unit is the root
    obtain ⟨hin, hroot⟩ := mem_of_rootPrimary? hc hprimary
    obtain rfl := List.inj_on_of_nodup_map hc.housed.accountIds hin ha hid
    exact absurd (hparent.symm.trans hroot) (hc.inStep.charts.ne_rootId hc.rooted.linked hou)

end Convergence

/-! ### All of it -/

section

open Convergence

variable {config : Configuration} {org : Organization} {tree : OrgTree}

/-- After convergence that notes no failure, every suspended account is in its unit. -/
theorem converge_inUnit (h : (⟨org, tree, {}⟩ : Convergence).Tracks)
    (hproper : Path.Proper config.options.suspendedOu)
    (hnone : (converge config org tree).report.failures = []) :
    ∀ a ∈ (converge config org tree).org.snapshot.accounts, a.isSuspended = true →
      InUnit (converge config org tree).tree config.options.suspendedOu a := by
  obtain ⟨hmissing, -⟩ := createMissing_frame config h
  obtain ⟨htracks, -⟩ := beforePrimary_frame config h
  have hbefore : (beforePrimary config org tree).report.failures = [] :=
    List.prefix_nil.1 (hnone ▸ failures_relocatePrimary config (beforePrimary config org tree))
  intro a ha hsuspended
  refine relocatePrimary_inUnit htracks (fun b hb hb' => ?_) ha hsuspended
  exact relocateSuspended_inUnit hmissing hproper hbefore hb hb'

/-- **After convergence that notes no failure every suspended account is in its unit, and the
primary account is not under the root.** -/
theorem converge_inPlace (h : (⟨org, tree, {}⟩ : Convergence).Tracks)
    (hemails : org.snapshot.DistinctEmails) (hproper : Path.Proper config.options.suspendedOu)
    (hkey : ∀ d, primary? config = some d → config.account? d.key = some d)
    (hnone : (converge config org tree).report.failures = []) :
    (∀ a ∈ (converge config org tree).org.snapshot.accounts, a.isSuspended = true →
      InUnit (converge config org tree).tree config.options.suspendedOu a) ∧
    rootPrimary? config (converge config org tree).tree = none := by
  obtain ⟨htracks, hframe⟩ := beforePrimary_frame config h
  exact ⟨converge_inUnit h hproper hnone,
    relocatePrimary_leaves_none htracks (hframe.distinctEmails hemails) hkey hnone⟩

/-- **Where every declared unit is there and every account is in its place, convergence calls
nothing.** -/
theorem converge_silent (hfound : ∀ r ∈ config.declaredPaths, matchOu r tree.ous ≠ .notFound)
    (hplace : outOfPlace tree config.options.suspendedOu = [])
    (hprimary : rootPrimary? config tree = none) :
    converge config org tree = ⟨org, tree, {}⟩ := by
  let start : Convergence := ⟨org, tree, {}⟩
  have hcreate : start.createMissing config = start := by
    unfold createMissing
    refine foldl_keeps_of_mem (fun c : Convergence => c = start) ?_ start rfl
    rintro c r hr rfl
    unfold createDeclared
    split
    · rfl
    split
    · rename_i hmissing
      exact absurd hmissing (hfound r hr)
    · rfl
  have hrelocate : start.relocateSuspended config = start := by
    simp only [relocateSuspended, start, hplace]
  have hlast : start.relocatePrimary config = start := by
    simp only [relocatePrimary, start, hprimary]
  change ((start.createMissing config).relocateSuspended config).relocatePrimary config = start
  rw [hcreate, hrelocate, hlast]

end
end OrgAlign.Drift
