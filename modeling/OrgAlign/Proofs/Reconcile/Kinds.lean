import OrgAlign.Proofs.Reconcile.CleanPass

/-!
# Findings by kind

Every step of a pass reports findings of its own kinds only, so the findings of a kind can be told
from the one step that reports it. Main statements:

* `Pass.Says`: the kinds of what a stretch of a pass reports, with `trans` and `foldl`;
* `reconcileOu_says`, `reconcileAccount_says`, `reconcileManifest_says`: the kinds of each step;
* `exists_findings`: which findings come after which;
* `ofKind_unmanagedAccount`: the warnings about accounts that nobody declared are those of the live
  accounts one by one, in order;
* `ofKind_policyLimitExceeded`: the findings about too many policies are those of the targets that
  are counted.
-/

namespace OrgAlign

/-- The findings of a kind, in order. -/
def Finding.ofKind (k : FindingKind) (fs : List Finding) : List Finding := fs.filter (·.kind = k)

theorem Finding.mem_ofKind {k : FindingKind} {fs : List Finding} {f : Finding} :
    f ∈ ofKind k fs ↔ f ∈ fs ∧ f.kind = k := by
  unfold ofKind
  rw [List.mem_filter, decide_eq_true_iff]

theorem Finding.ofKind_append (k : FindingKind) (fs gs : List Finding) :
    ofKind k (fs ++ gs) = ofKind k fs ++ ofKind k gs := List.filter_append _ _

theorem Finding.ofKind_eq_self {k : FindingKind} {fs : List Finding} (h : ∀ f ∈ fs, f.kind = k) :
    ofKind k fs = fs := List.filter_eq_self.2 fun f hf => decide_eq_true (h f hf)

/-- Among findings of other kinds there is none. -/
theorem Finding.ofKind_eq_nil {k : FindingKind} {ks : List FindingKind} {fs : List Finding}
    (h : ∀ f ∈ fs, f.kind ∈ ks) (hk : k ∉ ks) : ofKind k fs = [] := by
  refine List.filter_eq_nil_iff.2 fun f hf => ?_
  rw [decide_eq_true_iff]
  rintro rfl
  exact hk (h f hf)

namespace Reconcile

open Config Org Finding

/-! ### Stretches of a pass -/

/-- A stretch of a pass, from `p` to `q`, takes no finding back and adds findings of some kinds. -/
def Pass.Says (ks : List FindingKind) (p q : Pass) : Prop :=
  ∃ said, q.findings = p.findings ++ said ∧ ∀ f ∈ said, f.kind ∈ ks

namespace Pass.Says

variable {ks : List FindingKind} {p q s : Pass}

/-- A stretch that leaves the findings says nothing. -/
theorem of_eq (h : q.findings = p.findings) : Says ks p q := by
  refine ⟨[], ?_, fun f hf => absurd hf List.not_mem_nil⟩
  rw [List.append_nil]
  exact h

theorem refl (p : Pass) : Says ks p p := of_eq rfl

theorem trans (h : Says ks p q) (h' : Says ks q s) : Says ks p s := by
  obtain ⟨said, hq, hsaid⟩ := h
  obtain ⟨more, hs, hmore⟩ := h'
  refine ⟨said ++ more, ?_, ?_⟩
  · rw [hs, hq, List.append_assoc]
  · intro f hf
    rcases List.mem_append.1 hf with hf | hf
    · exact hsaid f hf
    · exact hmore f hf

/-- A walk says what its steps say. -/
theorem foldl {α : Type} {step : Pass → α → Pass} {as : List α}
    (h : ∀ p, ∀ a ∈ as, Says ks p (step p a)) (p : Pass) : Says ks p (as.foldl step p) :=
  foldl_keeps_of_mem (fun q => Says ks p q) (fun q a ha hq => hq.trans (h q a ha)) p (refl p)

/-! ### What a pass may do at once -/

theorem status (p : Pass) (key : String) (st : MatchStatus) : Says ks p (p.status key st) :=
  of_eq rfl

theorem addAccount (p : Pass) (a : CanonicalAccount) : Says ks p (p.addAccount a) := of_eq rfl

theorem addOu (p : Pass) (o : CanonicalOu) : Says ks p (p.addOu o) := of_eq rfl

theorem report (p : Pass) {f : Finding} (hf : f.kind ∈ ks) : Says ks p (p.report f) := by
  refine ⟨[f], rfl, ?_⟩
  intro g hg
  rw [List.mem_singleton.1 hg]
  exact hf

theorem fatal (p : Pass) {k : FindingKind} {subject m : String} (hk : k ∈ ks) :
    Says ks p (p.report (.fatal k subject m)) := report p hk

theorem warning (p : Pass) {k : FindingKind} {subject m : String} (hk : k ∈ ks) :
    Says ks p (p.report (.warning k subject m)) := report p hk

theorem reportOu (p : Pass) (r : String) {k : FindingKind} {subject m : String} (hk : k ∈ ks) :
    Says ks p (p.reportOu r (.fatal k subject m)) := by
  unfold Pass.reportOu
  split
  · exact refl p
  · exact (fatal p hk).trans (of_eq rfl)

theorem reportRole (p : Pass) (role : LegacyRole) {k : FindingKind} {subject m : String}
    (hk : k ∈ ks) : Says ks p (p.reportRole role (.fatal k subject m)) := by
  unfold Pass.reportRole
  split
  · exact refl p
  · exact (fatal p hk).trans (of_eq rfl)

end Pass.Says

open Pass (Says)

/-! ### Units and accounts -/

/-- What is said of a reference to a unit. -/
def unitKinds : List FindingKind := [.missingOu, .ambiguousOu]

/-- What is said of a declared account. -/
def accountKinds : List FindingKind :=
  [.ignoredOuAccount, .missingOu, .ambiguousOu, .renamedAccount, .staleAccountRecord,
    .missingLegacyAccount, .suspendedAccount, .ouMembershipMismatch, .nameMismatch]

/-- What is said where configuration and manifest differ. -/
def manifestKinds : List FindingKind :=
  [.ouCountMismatch, .legacyMismatch, .unknownLegacyAccountType, .missingLegacyAccount,
    .ambiguousOu]

variable {i : Input} {p : Pass}

theorem reconcileOu_says (t : OrgTree) (p : Pass) (reference : String) :
    Says unitKinds p (reconcileOu t p reference) := by
  unfold reconcileOu
  split
  · exact Says.addOu p _
  · exact Says.reportOu p reference (by decide)
  · exact Says.reportOu p reference (by decide)

theorem reconcileAbsent_says (i : Input) (p : Pass) (d : Declared) :
    Says accountKinds p (reconcileAbsent i p d) := by
  have hmissing : ∀ (q : Pass) (role : LegacyRole), Says accountKinds p q →
      Says accountKinds p (q.missingRole role d.key) := by
    intro q role hq
    exact hq.trans (Says.reportRole q role (by decide))
  cases hrec : recorded? i.previous d.key with
  | none =>
    have hstatus : Says accountKinds p (p.status d.key .missingInOrg) := Says.status p _ _
    cases hrole : d.entry.role with
    | none =>
      simp only [reconcileAbsent, hrec, hrole]
      exact hstatus.trans (Says.addAccount _ _)
    | some role =>
      simp only [reconcileAbsent, hrec, hrole]
      exact hmissing _ role hstatus
  | some found =>
    have hgone : ∀ {k : FindingKind} {m : String} (st : MatchStatus), k ∈ accountKinds →
        Says accountKinds p ((p.report (.fatal k d.key m)).status d.key st) := by
      intro k m st hk
      exact (Says.fatal p hk).trans (Says.status _ _ _)
    cases hid : i.tree.accountById? found.2 <;> cases hrole : d.entry.role <;>
      simp only [reconcileAbsent, hrec, hid, hrole]
    · exact hgone _ (by decide)
    · exact hmissing _ _ (hgone _ (by decide))
    · exact hgone _ (by decide)
    · exact hmissing _ _ (hgone _ (by decide))

theorem reconcilePresent_says (p : Pass) (d : Declared) (ou : LiveOu) (live : LiveAccount) :
    Says accountKinds p (reconcilePresent p d ou live) := by
  have haccept : ∀ q : Pass, Says accountKinds q
      ((q.status d.key .matched).addAccount (canonical d (some live.id))) := by
    intro q
    exact (Says.status q _ _).trans (Says.addAccount _ _)
  unfold reconcilePresent
  simp only
  split
  · exact (Says.warning p (by decide)).trans (haccept _)
  split
  · exact (Says.fatal p (by decide)).trans (Says.status _ _ _)
  split
  · exact (Says.fatal p (by decide)).trans (Says.status _ _ _)
  · exact haccept p

/-- Looking at a declared account says something of it, of its reference or of its role. -/
theorem reconcileAccount_says (i : Input) (p : Pass) (d : Declared) :
    Says accountKinds p (reconcileAccount i p d) := by
  unfold reconcileAccount
  simp only
  split
  · exact (Says.fatal p (by decide)).trans (Says.status _ _ _)
  split
  · exact (Says.reportOu p _ (by decide)).trans (Says.status _ _ _)
  · exact (Says.reportOu p _ (by decide)).trans (Says.status _ _ _)
  split
  · exact reconcileAbsent_says i p d
  · exact reconcilePresent_says p d _ _

theorem reconcileOus_says (i : Input) (p : Pass) : Says unitKinds p (reconcileOus i p) := by
  apply Says.foldl
  intro q reference _
  exact reconcileOu_says i.tree q reference

theorem reconcileAccounts_says (i : Input) (p : Pass) :
    Says accountKinds p (reconcileAccounts i p) := by
  apply Says.foldl
  intro q d _
  exact reconcileAccount_says i q d

/-! ### The manifest -/

theorem checkCore_says (t : OrgTree) (ou : CoreOu) (live : LiveOu) (p : Pass) (core : CoreAccount) :
    Says manifestKinds p (checkCore t ou live p core) := by
  unfold checkCore
  split
  · exact Says.fatal p (by decide)
  split
  · exact Says.fatal p (by decide)
  split
  · exact Says.reportRole p _ (by decide)
  · apply Says.foldl
    intro q f hf
    apply Says.report q
    rw [(mem_compareCore hf).2]
    decide

theorem checkCoreOu_says (t : OrgTree) (p : Pass) (ou : CoreOu) :
    Says manifestKinds p (checkCoreOu t p ou) := by
  unfold checkCoreOu
  split
  · exact Says.refl p
  split
  · apply Says.foldl
    intro q core _
    exact checkCore_says t ou _ q core
  · exact Says.reportOu p _ (by decide)
  · exact Says.fatal p (by decide)

theorem checkRole_says (p : Pass) (role : LegacyRole) :
    Says manifestKinds p (checkRole p role) := by
  unfold checkRole
  split
  · exact Says.refl p
  · exact Says.reportRole p role (by decide)

theorem listChecks_says (p : Pass) (live declared names : List String) : Says manifestKinds p
    (checkOusLive live names (checkOuNames declared names (checkOuCount live names p))) := by
  have hcount : Says manifestKinds p (checkOuCount live names p) := by
    unfold checkOuCount
    split
    · exact Says.refl p
    · exact Says.warning p (by decide)
  have hnames : ∀ q, Says manifestKinds q (checkOuNames declared names q) := by
    intro q
    unfold checkOuNames
    split
    · exact Says.refl q
    · exact Says.fatal q (by decide)
  have hlive : ∀ q, Says manifestKinds q (checkOusLive live names q) := by
    intro q
    unfold checkOusLive
    split
    · exact Says.refl q
    · exact Says.fatal q (by decide)
  exact (hcount.trans (hnames _)).trans (hlive _)

/-- Checking against a manifest says where the two differ. -/
theorem reconcileManifest_says (i : Input) (p : Pass) :
    Says manifestKinds p (reconcileManifest i p) := by
  unfold reconcileManifest
  split
  · rename_i m _
    have hlists := listChecks_says p (i.tree.ous.map LiveOu.name) i.config.ous.keys m.ouNames
    have hunits : ∀ q, Says manifestKinds q (m.ous.foldl (checkCoreOu i.tree) q) := by
      apply Says.foldl
      intro q ou _
      exact checkCoreOu_says i.tree q ou
    have hroles : ∀ q, Says manifestKinds q (LegacyRole.all.foldl checkRole q) := by
      apply Says.foldl
      intro q role _
      exact checkRole_says q role
    exact (hlists.trans (hunits _)).trans (hroles _)
  · exact Says.refl p

/-! ### Policies and undeclared accounts -/

/-- The finding about a target with too many policies. There is none if its policies cannot be
listed. -/
def overLimit? (g : GlobalOptions) (o : Organization) (t : LimitTarget) : Option Finding :=
  (checkLimit g o {} t).findings.head?

/-- Counting the policies of a target adds its finding. -/
theorem checkLimit_findings (g : GlobalOptions) (o : Organization) (p : Pass) (t : LimitTarget) :
    (checkLimit g o p t).findings = p.findings ++ (overLimit? g o t).toList := by
  unfold overLimit? checkLimit
  cases o.policiesFor t.id with
  | error e => simp
  | ok attached =>
    by_cases h : policyLimit < (attached.filter (countsAgainstLimit g)).length + t.scps.length
    · simp [Pass.report, h]
    · simp [h]

/-- The finding is about the target, by its label and its key. -/
theorem overLimit?_eq_some {g : GlobalOptions} {o : Organization} {t : LimitTarget} {f : Finding}
    (h : overLimit? g o t = some f) : f.kind = .policyLimitExceeded ∧ f.isFatal = true ∧
      f.subject = t.key ∧ ∃ rest, f.message =
        "Max Allowed SCPs for " ++ t.label ++ " \"" ++ t.key ++ "\" is " ++ rest := by
  unfold overLimit? checkLimit at h
  cases hattached : o.policiesFor t.id with
  | error e => simp [hattached] at h
  | ok attached =>
    simp only [hattached] at h
    split at h
    · cases h
      refine ⟨rfl, rfl, rfl, ?_⟩
      simp only [String.append_assoc]
      exact ⟨_, rfl⟩
    · cases h

/-- There is one iff the policies can be listed and are too many. -/
theorem overLimit?_isSome_iff {g : GlobalOptions} {o : Organization} {t : LimitTarget} :
    (overLimit? g o t).isSome = true ↔ ¬ WithinLimit g o t.id t.scps := by
  unfold overLimit? checkLimit WithinLimit
  cases o.policiesFor t.id with
  | error e => simp
  | ok attached =>
    by_cases h : policyLimit < (attached.filter (countsAgainstLimit g)).length + t.scps.length
    · simp [Pass.report, h]
    · simp [h, Nat.not_lt.1 h]

/-- The findings about targets with too many policies. -/
def overLimits (i : Input) : List Finding :=
  match i.policies with
  | some o => (limitTargets i.config (tally i)).filterMap (overLimit? i.config.options o)
  | none => []

/-- The warnings about live accounts that nobody declared. -/
def unmanaged (i : Input) : List Finding := i.tree.accounts.filterMap (unmanaged? i.config i.tree)

theorem checkLimits_findings (hp : p.records = (tally i).records) :
    (checkLimits i p).findings = p.findings ++ overLimits i := by
  unfold checkLimits overLimits
  cases i.policies with
  | none => exact (List.append_nil _).symm
  | some o =>
    show ((limitTargets i.config p).foldl _ p).findings = _
    rw [limitTargets_congr hp]
    exact foldl_collects Pass.findings (checkLimit_findings i.config.options o) _ p

theorem reportUnmanaged_findings : (reportUnmanaged i p).findings = p.findings ++ unmanaged i := by
  have hcollect : ((unmanaged i).foldl Pass.report p).findings =
      p.findings ++ (unmanaged i).filterMap some :=
    foldl_collects Pass.findings (fun _ _ => rfl) _ p
  rwa [List.filterMap_some] at hcollect

/-! ### The whole pass -/

/-- The findings of a pass are those about addresses, units and accounts, about policies, about
undeclared accounts and about the manifest, in this order. -/
theorem exists_findings (i : Input) : ∃ items manifest,
    (reconcile i).findings = items ++ overLimits i ++ unmanaged i ++ manifest ∧
      (∀ f ∈ items, f.kind ∈ .duplicateEmail :: (unitKinds ++ accountKinds)) ∧
      ∀ f ∈ manifest, f.kind ∈ manifestKinds := by
  let start : Pass := { findings := duplicateEmails i.config }
  have hstart : ∀ f ∈ start.findings, f.kind = .duplicateEmail := fun f hf =>
    (fatal_of_mem_duplicatesFrom hf).2
  obtain ⟨units, hunits, hunitKinds⟩ := reconcileOus_says i start
  obtain ⟨accounts, haccounts, haccountKinds⟩ := reconcileAccounts_says i (reconcileOus i start)
  have hrecords : (reconcileAccounts i (reconcileOus i start)).records = (tally i).records := by
    rw [reconcileAccounts_records, reconcileOus_records]
    rfl
  have hlimits := checkLimits_findings hrecords
  obtain ⟨manifest, hmanifest, hmanifestKinds⟩ := reconcileManifest_says i (reportUnmanaged i
    (checkLimits i (reconcileAccounts i (reconcileOus i start))))
  refine ⟨start.findings ++ units ++ accounts, manifest, ?_, ?_, hmanifestKinds⟩
  · rw [← hunits, ← haccounts, ← hlimits, ← reportUnmanaged_findings]
    exact hmanifest
  · intro f hf
    rw [List.mem_append, List.mem_append] at hf
    rw [List.mem_cons, List.mem_append]
    rcases hf with (hf | hf) | hf
    · exact .inl (hstart f hf)
    · exact .inr (.inl (hunitKinds f hf))
    · exact .inr (.inr (haccountKinds f hf))

theorem kind_of_mem_overLimits {f : Finding} (h : f ∈ overLimits i) :
    f.kind = .policyLimitExceeded := by
  unfold overLimits at h
  split at h
  · obtain ⟨t, -, ht⟩ := List.mem_filterMap.1 h
    exact (overLimit?_eq_some ht).1
  · exact absurd h List.not_mem_nil

theorem kind_of_mem_unmanaged {f : Finding} (h : f ∈ unmanaged i) : f.kind = .unmanagedAccount := by
  obtain ⟨a, -, ha⟩ := List.mem_filterMap.1 h
  exact (unmanaged?_eq_some ha).2

/-- **The warnings about accounts that nobody declared are those of the live accounts**, one by one
and in order. -/
theorem ofKind_unmanagedAccount (i : Input) :
    ofKind .unmanagedAccount (reconcile i).findings = unmanaged i := by
  obtain ⟨items, manifest, hfindings, hitems, hmanifest⟩ := exists_findings i
  have hlimits : ∀ f ∈ overLimits i, f.kind ∈ [FindingKind.policyLimitExceeded] := fun f hf =>
    List.mem_singleton.2 (kind_of_mem_overLimits hf)
  rw [hfindings, ofKind_append, ofKind_append, ofKind_append, ofKind_eq_nil hitems (by decide),
    ofKind_eq_nil hlimits (by decide), ofKind_eq_nil hmanifest (by decide),
    ofKind_eq_self fun f hf => kind_of_mem_unmanaged hf, List.nil_append, List.nil_append,
    List.append_nil]

/-- **The findings about too many policies are those of the targets that are counted**, one by one
and in order. -/
theorem ofKind_policyLimitExceeded (i : Input) :
    ofKind .policyLimitExceeded (reconcile i).findings = overLimits i := by
  obtain ⟨items, manifest, hfindings, hitems, hmanifest⟩ := exists_findings i
  have hunmanaged : ∀ f ∈ unmanaged i, f.kind ∈ [FindingKind.unmanagedAccount] := fun f hf =>
    List.mem_singleton.2 (kind_of_mem_unmanaged hf)
  rw [hfindings, ofKind_append, ofKind_append, ofKind_append, ofKind_eq_nil hitems (by decide),
    ofKind_eq_nil hunmanaged (by decide), ofKind_eq_nil hmanifest (by decide),
    ofKind_eq_self fun f hf => kind_of_mem_overLimits hf, List.nil_append, List.append_nil,
    List.append_nil]

end Reconcile
end OrgAlign
