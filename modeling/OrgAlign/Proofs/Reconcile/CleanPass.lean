import OrgAlign.Proofs.Reconcile.Admission

/-!
# Clean passes

The steps of a pass put together. Main statements:

* `collected_admits`: a pass admits `Q` iff its input is `Admissible`, so a finding that was left
  out as a repetition never hides a fault;
* `collected_records`: the canonical records are those of the items taken one by one, in order;
* `hasFatal_eq_false_iff`: a pass is clean iff its input is admissible with nothing tolerated;
* `result_sound`: what a clean pass hands on describes the live organization, record by record.
-/

namespace OrgAlign.Reconcile

open Config Org

/-! ### The steps -/

/-- The canonical units of an input. -/
def unitRecords (i : Input) : List CanonicalOu :=
  i.config.declaredPaths.filterMap (unitRecord? i.tree.ous)

/-- The canonical accounts of an input. -/
def accountRecords (i : Input) : List CanonicalAccount :=
  i.config.accounts.filterMap (accountRecord? i)

/-- A pass with the canonical records of an input and nothing else. -/
def tally (i : Input) : Pass := { accounts := accountRecords i, ous := unitRecords i }

section

variable {Q : Tolerance} {i : Input} {p : Pass}

theorem reconcileOus_admits (hp : p.Coherent i.tree.ous) :
    (reconcileOus i p).Admits Q ↔
      p.Admits Q ∧ ∀ r ∈ i.config.declaredPaths, UnitAdmits Q i.tree.ous r :=
  admits_foldl (Pass.Coherent i.tree.ous)
    (fun q r h => (reconcileOu_advances i.tree q r).coherent h)
    (fun _ r h => reconcileOu_admits h r) _ p hp

theorem reconcileOus_records :
    (reconcileOus i p).records = (p.records.1, p.records.2 ++ unitRecords i) := by
  refine Prod.ext ?_ ?_
  · exact foldl_keeps (fun q : Pass => q.records.1 = p.records.1)
      (fun q r h => by rw [reconcileOu_records]; exact h) _ p rfl
  · exact foldl_collects (fun q : Pass => q.records.2)
      (fun q r => congrArg Prod.snd (reconcileOu_records i.tree q r)) _ p

theorem reconcileAccounts_admits (hQ : ∀ s, ¬ Q .missingLegacyAccount s)
    (hp : p.Coherent i.tree.ous) :
    (reconcileAccounts i p).Admits Q ↔
      p.Admits Q ∧ ∀ d ∈ i.config.accounts, AccountAdmits Q i d :=
  admits_foldl (Pass.Coherent i.tree.ous)
    (fun q d h => (reconcileAccount_advances i q d).coherent h)
    (fun _ d h => reconcileAccount_admits hQ h d) _ p hp

theorem reconcileAccounts_records :
    (reconcileAccounts i p).records = (p.records.1 ++ accountRecords i, p.records.2) := by
  refine Prod.ext ?_ ?_
  · exact foldl_collects (fun q : Pass => q.records.1)
      (fun q d => congrArg Prod.fst (reconcileAccount_records i q d)) _ p
  · exact foldl_keeps (fun q : Pass => q.records.2 = p.records.2)
      (fun q d h => by rw [reconcileAccount_records]; exact h) _ p rfl

theorem checkLimits_admits :
    (checkLimits i p).Admits Q ↔ p.Admits Q ∧ ∀ o, i.policies = some o →
      ∀ t ∈ limitTargets i.config p, LimitAdmits Q i.config.options o t := by
  cases ho : i.policies with
  | none => simp [checkLimits, ho]
  | some o =>
    simp only [checkLimits, ho, Option.some.injEq, forall_eq']
    exact admits_foldl (fun _ => True) (fun _ _ _ => trivial)
      (fun _ t _ => checkLimit_admits t) _ p trivial

theorem Pass.KeptByReports.checkLimits {β : Type} {field : Pass → β} (h : KeptByReports field) :
    field (checkLimits i p) = field p := by
  unfold Reconcile.checkLimits
  split
  · exact foldl_keeps (fun q => field q = field p)
      (fun q t hq => (h.checkLimit _ _ q t).trans hq) _ p rfl
  · rfl

theorem reportUnmanaged_admits : (reportUnmanaged i p).Admits Q ↔ p.Admits Q := by
  unfold reportUnmanaged
  rw [Pass.admits_foldl_report]
  refine and_iff_left ?_
  intro f hf hfatal
  obtain ⟨a, -, ha⟩ := List.mem_filterMap.1 hf
  rw [(unmanaged?_eq_some ha).1] at hfatal
  cases hfatal

theorem checkOuCount_admits {live names : List String} :
    (checkOuCount live names p).Admits Q ↔ p.Admits Q := by
  unfold checkOuCount
  split
  · rfl
  · exact Pass.admits_report_warning

theorem checkOuNames_admits {declared names : List String} :
    (checkOuNames declared names p).Admits Q ↔
      p.Admits Q ∧ (declared = names ∨ Q .legacyMismatch ouListSubject) := by
  unfold checkOuNames
  split
  · rename_i h
    simp [h]
  · rename_i h
    simp [h]

theorem checkOusLive_admits {live names : List String} :
    (checkOusLive live names p).Admits Q ↔
      p.Admits Q ∧ ((∀ name ∈ names, name ∈ live) ∨ Q .legacyMismatch ouListSubject) := by
  have hall : names.all live.contains = true ↔ ∀ name ∈ names, name ∈ live := by
    simp [List.all_eq_true]
  unfold checkOusLive
  split
  · rename_i h
    exact ⟨fun hp => ⟨hp, .inl (hall.1 h)⟩, And.left⟩
  · rename_i h
    rw [Pass.admits_report_fatal, ← hall]
    simp [h]

/-- The warnings and complaints about the list of units are reports. -/
theorem Pass.KeptByReports.listChecks {β : Type} {field : Pass → β} (h : KeptByReports field)
    (p : Pass) (live declared names : List String) :
    field (checkOusLive live names (checkOuNames declared names (checkOuCount live names p))) =
      field p := by
  have hcount : field (checkOuCount live names p) = field p := by
    unfold checkOuCount
    split
    · rfl
    · exact h.report _ _
  have hnames : field (checkOuNames declared names (checkOuCount live names p)) = field p := by
    unfold checkOuNames
    split
    · exact hcount
    · exact (h.report _ _).trans hcount
  unfold checkOusLive
  split
  · exact hnames
  · exact (h.report _ _).trans hnames

/-- Checking against a manifest admits what the manifest admits. -/
theorem checkManifest_admits (hQ : ∀ s, ¬ Q .missingLegacyAccount s)
    (hp : p.Coherent i.tree.ous) (m : Manifest) :
    (checkManifest i m p).Admits Q ↔ p.Admits Q ∧ ManifestAdmits Q i p.accounts m := by
  unfold checkManifest
  simp only
  generalize hq : checkOusLive _ _ _ = q
  have hqcoh : q.Coherent i.tree.ous := hq ▸ (listChecks_continues _ p _ _ _).coherent hp
  have hqacc : q.accounts = p.accounts :=
    hq ▸ congrArg Prod.fst (Pass.records_kept.listChecks p _ _ _)
  have hqadm : q.Admits Q ↔ p.Admits Q ∧
      (i.config.ous.keys = m.ouNames ∨ Q .legacyMismatch ouListSubject) ∧
      ((∀ name ∈ m.ouNames, name ∈ i.tree.ous.map LiveOu.name) ∨
        Q .legacyMismatch ouListSubject) := by
    rw [← hq, checkOusLive_admits, checkOuNames_admits, checkOuCount_admits, and_assoc]
  -- the accounts that everything is compared with stay the same on both walks
  let Inv : Pass → Prop := fun r => r.Coherent i.tree.ous ∧ r.accounts = p.accounts
  have hstep : ∀ r ou, Inv r → Inv (checkCoreOu i.tree r ou) := fun r ou h =>
    ⟨(checkCoreOu_advances i.tree r ou).coherent h.1,
      (congrArg Prod.fst (Pass.records_kept.checkCoreOu i.tree r ou)).trans h.2⟩
  have hunits : (m.ous.foldl (checkCoreOu i.tree) q).Admits Q ↔
      q.Admits Q ∧ ∀ ou ∈ m.ous, CoreOuAdmits Q i.tree p.accounts ou :=
    admits_foldl Inv hstep (fun r ou h => by rw [checkCoreOu_admits hQ h.1, h.2]) m.ous q
      ⟨hqcoh, hqacc⟩
  have hafter : Inv (m.ous.foldl (checkCoreOu i.tree) q) :=
    foldl_keeps Inv hstep m.ous q ⟨hqcoh, hqacc⟩
  have hroles : (LegacyRole.all.foldl checkRole (m.ous.foldl (checkCoreOu i.tree) q)).Admits Q ↔
      (m.ous.foldl (checkCoreOu i.tree) q).Admits Q ∧
        ∀ role ∈ LegacyRole.all, p.accounts.any (·.role == some role) = true :=
    admits_foldl Inv
      (fun r role h => ⟨(checkRole_continues _ r role).coherent h.1,
        (congrArg Prod.fst (Pass.records_kept.checkRole r role)).trans h.2⟩)
      (fun r role h => by rw [checkRole_admits hQ h.1, h.2]) LegacyRole.all _ hafter
  rw [hroles, hunits, hqadm]
  constructor
  · rintro ⟨⟨⟨hpQ, hnames, hlive⟩, hous⟩, hall⟩
    exact ⟨hpQ, hnames, hlive, hous, hall⟩
  · rintro ⟨hpQ, hm⟩
    exact ⟨⟨⟨hpQ, hm.names, hm.live⟩, hm.units⟩, hm.roles⟩

theorem reconcileManifest_admits (hQ : ∀ s, ¬ Q .missingLegacyAccount s)
    (hp : p.Coherent i.tree.ous) :
    (reconcileManifest i p).Admits Q ↔
      p.Admits Q ∧ ∀ m, i.manifest = some m → ManifestAdmits Q i p.accounts m := by
  cases hm : i.manifest with
  | none => simp [reconcileManifest, hm]
  | some m => simp [reconcileManifest, hm, checkManifest_admits hQ hp]

theorem Pass.KeptByReports.reconcileManifest {β : Type} {field : Pass → β}
    (h : KeptByReports field) : field (reconcileManifest i p) = field p := by
  unfold Reconcile.reconcileManifest
  split
  · unfold checkManifest
    simp only
    refine foldl_keeps (fun q => field q = field p)
      (fun q role hq => (h.checkRole q role).trans hq) _ _ ?_
    refine foldl_keeps (fun q => field q = field p)
      (fun q ou hq => (h.checkCoreOu _ q ou).trans hq) _ _ ?_
    exact h.listChecks p _ _ _
  · rfl

end

/-! ### The whole pass -/

/-- Whatever is fatal about an input, item by item, is tolerated. -/
structure Admissible (Q : Tolerance) (i : Input) : Prop where
  /-- Shared addresses. -/
  emails : ∀ f ∈ duplicateEmails i.config, Q f.kind f.subject
  /-- Declared units. -/
  units : ∀ r ∈ i.config.declaredPaths, UnitAdmits Q i.tree.ous r
  /-- Active accounts. -/
  accounts : ∀ d ∈ i.config.accounts, AccountAdmits Q i d
  /-- Policies of declared targets. -/
  limits : ∀ o, i.policies = some o →
    ∀ t ∈ limitTargets i.config (tally i), LimitAdmits Q i.config.options o t
  /-- The manifest. -/
  manifest : ∀ m, i.manifest = some m → ManifestAdmits Q i (accountRecords i) m

/-- All that comes after the accounts are reports. -/
theorem Pass.KeptByReports.collected {β : Type} {field : Pass → β} (h : KeptByReports field)
    (i : Input) : field (collected i) =
      field (reconcileAccounts i (reconcileOus i { findings := duplicateEmails i.config })) := by
  unfold Reconcile.collected
  simp only
  rw [h.reconcileManifest]
  unfold reportUnmanaged
  rw [h.foldl_report, h.checkLimits]

/-- The canonical records are those of the items taken one by one. -/
theorem collected_records (i : Input) :
    (collected i).records = (accountRecords i, unitRecords i) := by
  rw [Pass.records_kept.collected, reconcileAccounts_records, reconcileOus_records]
  rfl

/-- So a pass hands on the records of the declared accounts. -/
theorem reconcile_accounts (i : Input) : (reconcile i).organization.accounts = accountRecords i :=
  congrArg Prod.fst (collected_records i)

/-- It hands on those of the declared units, too. -/
theorem reconcile_ous (i : Input) : (reconcile i).organization.ous = unitRecords i :=
  congrArg Prod.snd (collected_records i)

/-- **A pass admits what its items admit.** Whether a finding was left out because its reference or
role had been reported makes no difference. -/
theorem collected_admits {Q : Tolerance} (hQ : ∀ s, ¬ Q .missingLegacyAccount s) (i : Input) :
    (collected i).Admits Q ↔ Admissible Q i := by
  let start : Pass := { findings := duplicateEmails i.config }
  have hstart : start.Coherent i.tree.ous := Pass.Coherent.of_fresh rfl rfl
  have hous := (reconcileOus_advances i start).coherent hstart
  have haccounts := (reconcileItems_advances i start).coherent hstart
  have hlimits := (checkLimits_continues i _).coherent haccounts
  have hunmanaged := (reportUnmanaged_continues i _).coherent hlimits
  have hrecords : (reconcileAccounts i (reconcileOus i start)).records = (tally i).records := by
    rw [reconcileAccounts_records, reconcileOus_records]
    rfl
  have hfinal : (reportUnmanaged i (checkLimits i (reconcileAccounts i
      (reconcileOus i start)))).accounts = accountRecords i := by
    have h := Pass.records_kept.foldl_report
      (i.tree.accounts.filterMap (unmanaged? i.config i.tree))
      (checkLimits i (reconcileAccounts i (reconcileOus i start)))
    rw [Pass.records_kept.checkLimits, hrecords] at h
    exact congrArg Prod.fst h
  have hbegin : start.Admits Q ↔ ∀ f ∈ duplicateEmails i.config, Q f.kind f.subject :=
    forall₂_congr fun f hf => ⟨fun h => h (fatal_of_mem_duplicatesFrom hf).1, fun h _ => h⟩
  change (reconcileManifest i (reportUnmanaged i (checkLimits i (reconcileAccounts i
    (reconcileOus i start))))).Admits Q ↔ _
  rw [reconcileManifest_admits hQ hunmanaged, reportUnmanaged_admits, checkLimits_admits,
    reconcileAccounts_admits hQ hous, reconcileOus_admits hstart, hbegin, hfinal,
    limitTargets_congr hrecords]
  constructor
  · rintro ⟨⟨⟨⟨he, hu⟩, ha⟩, hl⟩, hm⟩
    exact ⟨he, hu, ha, hl, hm⟩
  · intro h
    exact ⟨⟨⟨⟨h.emails, h.units⟩, h.accounts⟩, h.limits⟩, h.manifest⟩

/-- The fatal findings of a pass are all tolerated iff its input is admissible. -/
theorem errors_admit_iff {Q : Tolerance} (hQ : ∀ s, ¬ Q .missingLegacyAccount s) (i : Input) :
    (∀ f ∈ (reconcile i).errors, Q f.kind f.subject) ↔ Admissible Q i := by
  rw [← collected_admits hQ]
  unfold Reconciliation.errors Pass.Admits
  simp only [List.mem_filter, and_imp]
  rfl

/-- A pass is clean iff nothing is wrong with any item of its input. -/
theorem hasFatal_eq_false_iff (i : Input) :
    (reconcile i).hasFatal = false ↔ Admissible nothing i := by
  rw [← errors_admit_iff (fun _ h => h) i]
  unfold Reconciliation.hasFatal Reconciliation.errors nothing
  simp [List.any_eq_false]

/-! ### What a clean pass hands on -/

/-- A canonical unit is the record of the one live unit that a reference stands for. -/
def UnitStands (t : OrgTree) (reference : String) (o : CanonicalOu) : Prop :=
  ∃ ou s, matchOu reference t.ous = .found ou s ∧ StandsFor t.ous reference ou ∧
    o = ⟨ou.id, ou.name, reference, ou.path⟩

/-- A canonical account has the fields declared for it, and either belongs to a live account that is
suspended or where and what its declaration says, or to no account that ever was. -/
structure AccountStands (i : Input) (d : Declared) (a : CanonicalAccount) : Prop where
  /-- All but the identifier is as declared. -/
  declared : a = canonical d a.cloudId
  /-- An identifier is that of a live account. -/
  live : ∀ id, a.cloudId = some id → ∃ l ∈ i.tree.accounts, l.id = id ∧
    Text.sameIgnoringCase l.email d.entry.email = true ∧
    (l.isSuspended = true ∨ ∃ ou s, matchOu d.entry.path i.tree.ous = .found ou s ∧
      l.parent = ou.id ∧ (d.entry.role ≠ some .primary → l.name = d.entry.name))
  /-- Without an identifier the account is not there yet. -/
  absent : a.cloudId = none →
    (∀ l ∈ i.tree.accounts, Text.sameIgnoringCase l.email d.entry.email = false) ∧
    d.entry.role = none ∧
    ∀ state before, i.previous = some state →
      state.accounts.find? (·.key == d.key) = some before → before.cloudId = none

/-- A record of a unit stands for it. -/
theorem unitRecord?_stands {t : OrgTree} {r : String} {o : CanonicalOu}
    (h : unitRecord? t.ous r = some o) : UnitStands t r o := by
  unfold unitRecord? at h
  obtain ⟨ou, hou, rfl⟩ := Option.map_eq_some_iff.1 h
  obtain ⟨s, hs⟩ := ou?_eq_some.1 hou
  exact ⟨ou, s, hs, ou?_matchOu_eq_some.1 hou, rfl⟩

/-- Nothing was recorded of an account iff its first record, if any, has no identifier. -/
theorem recorded?_eq_none {previous : Option PublishedState} {key : String} :
    recorded? previous key = none ↔ ∀ state before, previous = some state →
      state.accounts.find? (·.key == key) = some before → before.cloudId = none := by
  unfold recorded?
  simp only [Option.bind_eq_none_iff, Option.bind_eq_some_iff, Option.map_eq_none_iff,
    forall_exists_index, and_imp]
  exact ⟨fun h state before hs hb => h before state hs hb,
    fun h before state hs hb => h state before hs hb⟩

/-- A record of an account stands for it. -/
theorem accountRecord?_stands {i : Input} {d : Declared} {a : CanonicalAccount}
    (h : accountRecord? i d = some a) : AccountStands i d a := by
  unfold accountRecord? at h
  split at h
  · cases h
  obtain ⟨ou, hou, h⟩ := Option.bind_eq_some_iff.1 h
  obtain ⟨s, hs⟩ := ou?_eq_some.1 hou
  split at h
  · -- no live account has the address
    rename_i hnone
    split at h
    · rename_i hnew
      cases h
      simp only [Bool.and_eq_true, Option.isNone_iff_eq_none] at hnew
      refine ⟨rfl, fun id hid => (by cases hid), fun _ => ⟨fun l hl => ?_, hnew.2, ?_⟩⟩
      · rw [← Bool.not_eq_true, Text.sameIgnoringCase_iff]
        exact matchAccount?_eq_none.1 hnone l hl
      · exact recorded?_eq_none.1 hnew.1
    · cases h
  · rename_i live hlive
    split at h
    · rename_i hconf
      cases h
      obtain ⟨hmem, hemail⟩ := matchAccount?_eq_some hlive
      refine ⟨rfl, fun id hid => ?_, fun hnone => by cases hnone⟩
      cases hid
      refine ⟨live, hmem, rfl, (Text.sameIgnoringCase_iff _ _).2 hemail, ?_⟩
      unfold conforms at hconf
      simp only [Bool.or_eq_true, Bool.and_eq_true, beq_iff_eq] at hconf
      rcases hconf with hsus | ⟨hparent, hname⟩
      · exact .inl hsus
      · refine .inr ⟨ou, s, hs, hparent, fun hrole => ?_⟩
        rcases hname with hprimary | hname
        · exact absurd (by simpa [isPrimary] using hprimary) hrole
        · exact hname
    · cases h

/-- **A clean pass is sound.** No two active accounts share an address, the canonical units are
those that the declared references stand for, and the canonical accounts those declared, each in
order of declaration. -/
theorem result_sound (i : Input) (org : CanonicalOrganization)
    (h : (reconcile i).result = .ok org) :
    (i.config.accounts.map fun d => Text.lower d.entry.email).Nodup ∧
    List.Forall₂ (UnitStands i.tree) i.config.declaredPaths org.ous ∧
    List.Forall₂ (AccountStands i) i.config.accounts org.accounts := by
  have hclean : (reconcile i).hasFatal = false := by
    unfold Reconciliation.result at h
    split at h
    · cases h
    · rename_i hfatal
      exact Bool.not_eq_true _ ▸ hfatal
  have hadm := (hasFatal_eq_false_iff i).1 hclean
  have horg : org = (reconcile i).organization := by
    unfold Reconciliation.result at h
    rw [hclean] at h
    exact (Except.ok.inj h).symm
  rw [horg]
  refine ⟨?_, ?_, ?_⟩
  · have hnil : duplicateEmails i.config = [] :=
      List.eq_nil_iff_forall_not_mem.2 fun f hf => hadm.emails f hf
    exact duplicateEmails_eq_nil.1 hnil
  · rw [reconcile_ous]
    refine forall₂_filterMap (fun r hr => ?_) fun r o => unitRecord?_stands
    obtain ⟨ou, hou⟩ := unitAdmits_nothing.1 (hadm.units r hr)
    simp [unitRecord?, hou]
  · rw [reconcile_accounts]
    exact forall₂_filterMap (fun d hd => accountRecord?_isSome_iff.2 (hadm.accounts d hd))
      fun d a => accountRecord?_stands

/-- A declared account of the unit `Core`. -/
def coreEntry (name email : String) : AccountEntry := { name, email, ou := "Core" }

/-- Three declared accounts: one is live in its unit, one is suspended elsewhere, one is not there
yet. -/
def threeAccounts : Input where
  config :=
    { options := {}
      ous := ⟨[("Core", {})], by decide⟩
      mandatory := .empty
      workload :=
        ⟨[("log", coreEntry "Log" "Log@x.org"), ("old", coreEntry "Old" "old@x.org"),
          ("new", coreEntry "New" "new@x.org")], by decide⟩ }
  tree :=
    { rootId := "r-1"
      ous := [⟨"ou-a", "Core", "r-1", "Core"⟩]
      buckets :=
        [("ou-a", [⟨"1", "Log", "log@x.org", .active, "ou-a"⟩]),
          ("r-1", [⟨"2", "Former", "old@x.org", .suspended, "r-1"⟩])] }

/-- What a pass over them hands on. -/
def threeRecords : CanonicalOrganization where
  accounts :=
    [⟨"log", some "1", "Log", "Log@x.org", "Core", "Core", false, none⟩,
      ⟨"old", some "2", "Old", "old@x.org", "Core", "Core", false, none⟩,
      ⟨"new", none, "New", "new@x.org", "Core", "Core", false, none⟩]
  ous := [⟨"ou-a", "Core", "Core", "Core"⟩]
  warnings := ["Account \"old\" (2) is suspended in the organization"]

/-- `result_sound` at work: a live account, a suspended one and one that is not there yet. -/
theorem result_sound_three_accounts :
    (reconcile threeAccounts).result = .ok threeRecords ∧
    List.Forall₂ (AccountStands threeAccounts) threeAccounts.config.accounts
      threeRecords.accounts :=
  have hresult : (reconcile threeAccounts).result = .ok threeRecords := by decide +kernel
  ⟨hresult, (result_sound threeAccounts threeRecords hresult).2.2⟩

end OrgAlign.Reconcile
