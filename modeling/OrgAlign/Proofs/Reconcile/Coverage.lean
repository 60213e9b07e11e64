import OrgAlign.Proofs.Reconcile.ReportedOnce
import OrgAlign.Proofs.Reconcile.Statuses

/-!
# Every account on its own, and covered

How an account fares does not depend on the accounts beside it. What it is told may: a reference or
a role that was reported before is not reported again, but then the finding from before covers the
account, too. Main statements:

* `alone`, `statuses_alone`: the account by itself fares as it does among the others;
* `exists_covers`: an account that does not fare as it should is covered by a fatal finding, as soon
  as it was looked at;
* `Judged`, `reconcile_judges`: what a pass says of every account;
* `reconcile_overlooks_record`: of two records with one key only the first one counts.
-/

namespace OrgAlign.Reconcile

open Config Org

variable {i : Input} {d : Declared}

/-! ### By itself -/

/-- A configuration with nothing but some options and one account. -/
def alone (options : GlobalOptions) (d : Declared) : Configuration where
  options
  ous := .empty
  mandatory := if d.isMandatory then .ofList [(d.key, d.entry)] else .empty
  workload := if d.isMandatory then .empty else .ofList [(d.key, d.entry)]

/-- An active account is all that is active in it. -/
theorem accounts_alone (options : GlobalOptions) (h : d.entry.deleted = false) :
    (alone options d).accounts = [d] := by
  obtain ⟨key, entry, origin⟩ := d
  have hactive : (!entry.deleted) = true := by
    rw [Bool.not_eq_true']
    exact h
  cases origin with
  | mandatory => exact List.filter_cons_of_pos hactive
  | workload => exact List.filter_cons_of_pos hactive

/-- By itself an account fares as it does among the others. -/
theorem statuses_alone (i : Input) (h : d.entry.deleted = false) :
    (reconcile { i with config := alone i.config.options d }).statuses =
      [(d.key, accountStatus i d)] := by
  have hstatus : accountStatus { i with config := alone i.config.options d } d =
      accountStatus i d := rfl
  rw [reconcile_statuses, accounts_alone i.config.options h, List.map_singleton, hstatus]

/-! ### Coverage -/

/-- The kinds of findings about the account itself. -/
def accountFaults : List FindingKind :=
  [.ignoredOuAccount, .ouMembershipMismatch, .nameMismatch, .renamedAccount, .staleAccountRecord]

/-- A fatal finding covers an account: it is about the account itself, about its reference and what
is wrong with that, or about its role. -/
structure Covers (i : Input) (d : Declared) (f : Finding) : Prop where
  /-- It stops the work. -/
  fatal : f.isFatal = true
  /-- It is about something of the account. -/
  subject : (f.subject = d.key ∧ f.kind ∈ accountFaults) ∨
    (f.subject = d.entry.path ∧ faultOf? (matchOu d.entry.path i.tree.ous) = some f.kind) ∨
    ∃ role, d.entry.role = some role ∧ f.lacks role = true

/-- The first record of the account's key in what was published before has an identifier. -/
def Recorded (i : Input) (d : Declared) : Prop :=
  ∃ s a, i.previous = some s ∧ s.accounts.find? (·.key == d.key) = some a ∧
    a.cloudId.isSome = true

/-- An account that does not fare as it should. One that does not exist yet does. -/
def Amiss (i : Input) (d : Declared) (s : MatchStatus) : Prop :=
  s = .mismatched ∨ s = .renamedDetected ∨
    (s = .missingInOrg ∧ (d.entry.role.isSome = true ∨ Recorded i d))

/-- A record with an identifier is what a pass goes by. -/
theorem Recorded.exists_recorded? (h : Recorded i d) :
    ∃ found, recorded? i.previous d.key = some found := by
  obtain ⟨s, a, hs, ha, hid⟩ := h
  obtain ⟨id, hid⟩ := Option.isSome_iff_exists.1 hid
  refine ⟨(a, id), ?_⟩
  unfold recorded?
  simp only [hs, ha, hid, Option.bind_some, Option.map_some]

/-- A finding about the account itself covers it. -/
theorem exists_covers_report (p : Pass) {k : FindingKind} {m : String} (hk : k ∈ accountFaults) :
    ∃ f ∈ (p.report (.fatal k d.key m)).findings, Covers i d f :=
  ⟨_, List.mem_append_right _ (List.mem_singleton_self _), rfl, .inl ⟨rfl, hk⟩⟩

/-- A role that is remembered has a fatal finding. -/
theorem Pass.Ledger.exists_lacks {ous : List LiveOu} {p : Pass} (h : p.Ledger ous)
    {role : LegacyRole} (hrole : role ∈ p.reportedRoles) :
    ∃ f ∈ p.findings, f.isFatal = true ∧ f.lacks role = true := by
  have hcount : 0 < p.findings.countP (·.lacks role) := by
    rw [h.roles role]
    exact List.count_pos_iff.2 hrole
  obtain ⟨f, hf, hlacks⟩ := List.countP_pos_iff.1 hcount
  exact ⟨f, hf, h.fatal role f hf hlacks, hlacks⟩

/-- Looking at an account that is not live reports its role. -/
theorem mem_reportedRoles_reconcileAbsent (i : Input) (p : Pass) {role : LegacyRole}
    (hrole : d.entry.role = some role) : role ∈ (reconcileAbsent i p d).reportedRoles := by
  unfold reconcileAbsent
  simp only [hrole]
  split
  · exact Pass.mem_reportedRoles_missingRole _ role _
  · exact Pass.mem_reportedRoles_missingRole _ role _

/-- An account that is not live but was recorded has a finding. -/
theorem exists_covers_recorded (i : Input) (p : Pass) (hrole : d.entry.role = none)
    {found : CanonicalAccount × String} (hrec : recorded? i.previous d.key = some found) :
    ∃ f ∈ (reconcileAbsent i p d).findings, Covers i d f := by
  unfold reconcileAbsent
  simp only [hrole, hrec]
  split
  · exact exists_covers_report p (by decide)
  · exact exists_covers_report p (by decide)

/-- A live account that is not where and what its declaration says has a finding. -/
theorem exists_covers_present (i : Input) (p : Pass) {ou : LiveOu} {live : LiveAccount}
    (hconf : conforms d ou live = false) :
    ∃ f ∈ (reconcilePresent p d ou live).findings, Covers i d f := by
  unfold conforms at hconf
  rw [Bool.or_eq_false_iff, Bool.and_eq_false_iff, Bool.or_eq_false_iff] at hconf
  obtain ⟨hactive, hwrong⟩ := hconf
  unfold reconcilePresent
  simp only [hactive, Bool.false_eq_true, if_false]
  split
  · exact exists_covers_report p (by decide)
  rename_i hparent
  split
  · exact exists_covers_report p (by decide)
  rename_i hname
  -- the parent and the name are right, so nothing is wrong
  exfalso
  rcases hwrong with hwrong | ⟨hprimary, hwrong⟩
  · exact hparent (by simpa using hwrong)
  · exact hname (by simpa [hprimary] using hwrong)

/-- An account whose reference is unresolved has a finding. -/
theorem exists_covers_unresolved {p : Pass} (hp : p.Coherent i.tree.ous) {k : FindingKind}
    (hignored : i.config.options.isIgnored (Path.topLevel d.entry.path) = false)
    (hfault : faultOf? (matchOu d.entry.path i.tree.ous) = some k) :
    ∃ f ∈ (reconcileAccount i p d).findings, Covers i d f := by
  -- the reference is remembered now, so it was reported now or before
  have hstretch := reconcileAccount_advances i p d
  have hmarked : d.entry.path ∈ (reconcileAccount i p d).reportedOus :=
    (hstretch.marks _).2 (.inr ⟨⟨hignored, rfl⟩, k, hfault⟩)
  obtain ⟨f, hf, hfatal, hsubject, hkind⟩ := (hstretch.coherent hp).units _ hmarked
  exact ⟨f, hf, hfatal, .inr (.inl ⟨hsubject, hkind⟩)⟩

/-- An account that is not live and does not fare as it should has a finding. -/
theorem exists_covers_absent {p : Pass} (hledger : p.Ledger i.tree.ous)
    (hamiss : Amiss i d (absentStatus i d)) :
    ∃ f ∈ (reconcileAbsent i p d).findings, Covers i d f := by
  cases hrole : d.entry.role with
  | some role =>
    -- the role is remembered now, so it was reported now or before
    have hdone := (reconcileAbsent_continues _ i p d).ledger hledger
    obtain ⟨f, hf, hfatal, hlacks⟩ :=
      hdone.exists_lacks (mem_reportedRoles_reconcileAbsent i p hrole)
    exact ⟨f, hf, hfatal, .inr (.inr ⟨role, hrole, hlacks⟩)⟩
  | none =>
    cases hrec : recorded? i.previous d.key with
    | some found => exact exists_covers_recorded i p hrole hrec
    | none =>
      -- the account does not exist yet
      exfalso
      have hmissing : absentStatus i d = .missingInOrg := by
        unfold absentStatus
        rw [hrec]
      rw [hmissing] at hamiss
      rcases hamiss with hamiss | hamiss | ⟨-, hamiss | hamiss⟩
      · cases hamiss
      · cases hamiss
      · rw [hrole] at hamiss
        cases hamiss
      · obtain ⟨found, hfound⟩ := hamiss.exists_recorded?
        rw [hrec] at hfound
        cases hfound

/-- An account in a unit of its reference is looked at by what its address leads to. -/
theorem reconcileAccount_of_found (p : Pass) {ou : LiveOu} {s : MatchStrategy}
    (hignored : i.config.options.isIgnored (Path.topLevel d.entry.path) = false)
    (hmatch : matchOu d.entry.path i.tree.ous = .found ou s) :
    reconcileAccount i p d = match matchAccount? d.entry.email i.tree.accounts with
      | none => reconcileAbsent i p d
      | some live => reconcilePresent p d ou live := by
  unfold reconcileAccount
  cases matchAccount? d.entry.email i.tree.accounts <;>
    simp only [hignored, hmatch, Bool.false_eq_true, if_false]

/-- And fares by it. -/
theorem accountStatus_of_found {ou : LiveOu} {s : MatchStrategy}
    (hignored : i.config.options.isIgnored (Path.topLevel d.entry.path) = false)
    (hmatch : matchOu d.entry.path i.tree.ous = .found ou s) :
    accountStatus i d = match matchAccount? d.entry.email i.tree.accounts with
      | none => absentStatus i d
      | some live => if conforms d ou live then .matched else .mismatched := by
  unfold accountStatus
  cases matchAccount? d.entry.email i.tree.accounts <;>
    simp only [hignored, hmatch, OuMatch.ou?, Bool.false_eq_true, if_false]

/-- **An account that does not fare as it should is covered once it was looked at**, whatever the
pass had reported before. -/
theorem exists_covers {p : Pass} (hp : p.Coherent i.tree.ous) (hledger : p.Ledger i.tree.ous)
    (hamiss : Amiss i d (accountStatus i d)) :
    ∃ f ∈ (reconcileAccount i p d).findings, Covers i d f := by
  cases hignored : i.config.options.isIgnored (Path.topLevel d.entry.path) with
  | true =>
    unfold reconcileAccount
    simp only [hignored, if_true]
    exact exists_covers_report p (by decide)
  | false =>
    cases hmatch : matchOu d.entry.path i.tree.ous with
    | found ou s =>
      rw [reconcileAccount_of_found p hignored hmatch]
      rw [accountStatus_of_found hignored hmatch] at hamiss
      cases hlive : matchAccount? d.entry.email i.tree.accounts with
      | none =>
        rw [hlive] at hamiss
        exact exists_covers_absent hledger hamiss
      | some live =>
        rw [hlive] at hamiss
        cases hconf : conforms d ou live with
        | false => exact exists_covers_present i p hconf
        | true =>
          simp only [hconf, if_true] at hamiss
          rcases hamiss with hamiss | hamiss | ⟨hamiss, -⟩ <;> cases hamiss
    | ambiguous candidates => exact exists_covers_unresolved hp hignored (by rw [hmatch]; rfl)
    | notFound => exact exists_covers_unresolved hp hignored (by rw [hmatch]; rfl)

/-! ### The whole pass -/

/-- Every active account is looked at after some part of the pass, and what is reported then
stays. -/
theorem exists_lookedAt (hd : d ∈ i.config.accounts) :
    ∃ p : Pass, p.Coherent i.tree.ous ∧ p.Ledger i.tree.ous ∧
      (reconcileAccount i p d).findings ⊆ (reconcile i).findings := by
  obtain ⟨before, after, hsplit⟩ := List.append_of_mem hd
  have hfirst := (reconcileOus_advances i (beginning i)).trans
    (foldl_reconcileAccount_advances i before (reconcileOus i (beginning i)))
  generalize hp : before.foldl (reconcileAccount i) (reconcileOus i (beginning i)) = p at hfirst
  refine ⟨p, hfirst.coherent (.of_fresh rfl rfl), hfirst.ledger (beginning_ledger i), ?_⟩
  have hall : reconcileAccounts i (reconcileOus i (beginning i)) =
      after.foldl (reconcileAccount i) (reconcileAccount i p d) := by
    unfold reconcileAccounts
    rw [hsplit, List.foldl_append, List.foldl_cons, hp]
  have hrest := foldl_reconcileAccount_advances i after (reconcileAccount i p d)
  have hlater := laterSteps_advances i (reconcileAccounts i (reconcileOus i (beginning i)))
  rw [← hall] at hrest
  exact List.Subset.trans hrest.findings hlater.findings

/-- What a pass says of a declared account. -/
structure Judged (i : Input) (d : Declared) (s : String × MatchStatus) : Prop where
  /-- It is said of the account's key. -/
  key : s.1 = d.key
  /-- It is all that is said where the configuration has the same options and this account alone. -/
  alone : (reconcile { i with config := alone i.config.options d }).statuses = [s]
  /-- The account is matched iff it is in no ignored top-level unit, its reference stands for one
  unit, and the first live account with its address is suspended, or right in that unit and of the
  declared name, unless the account is the primary one. -/
  matched : s.2 = .matched ↔
    i.config.options.isIgnored (Path.topLevel d.entry.path) = false ∧
      ∃ ou live, StandsFor i.tree.ous d.entry.path ou ∧
        i.tree.accounts.find? (fun a => Text.sameIgnoringCase a.email d.entry.email) = some live ∧
        (live.isSuspended = true ∨ live.parent = ou.id ∧
          (d.entry.role = some .primary ∨ live.name = d.entry.name))
  /-- If it does not fare as it should, a fatal finding covers it. -/
  covered : Amiss i d s.2 → ∃ f ∈ (reconcile i).findings, Covers i d f

/-- **A pass judges every account on its own, and no account that it finds at fault goes without a
fatal finding.** A record from before counts if it is the first one of the account's key. -/
theorem reconcile_judges (i : Input) :
    List.Forall₂ (Judged i) i.config.accounts (reconcile i).statuses := by
  rw [reconcile_statuses, List.forall₂_map_right_iff, List.forall₂_same]
  intro d hd
  have hactive : d.entry.deleted = false := by
    have hkept := (List.mem_filter.1 hd).2
    rwa [Bool.not_eq_true'] at hkept
  refine ⟨rfl, statuses_alone i hactive, ?_, fun hamiss => ?_⟩
  · rw [accountStatus_eq_matched_iff]
    simp only [conforms, isPrimary, Bool.or_eq_true, Bool.and_eq_true, beq_iff_eq,
      decide_eq_true_eq]
    exact Iff.rfl
  · obtain ⟨p, hp, hledger, hfindings⟩ := exists_lookedAt hd
    obtain ⟨f, hf, hcovers⟩ := exists_covers hp hledger hamiss
    exact ⟨f, hfindings hf, hcovers⟩

/-! ### Two records with one key -/

/-- What was published when both sections declared an account with one key: that of the first
section was not there yet, that of the second one was. -/
def twoRecords : PublishedState where
  publishedAt := ⟨19723, 0, 0⟩
  commitId := "c0"
  accounts :=
    [⟨"app", none, "New", "new@x.org", "Core", "Core", true, none⟩,
      ⟨"app", some "9", "App", "app@x.org", "Core", "Core", false, none⟩]
  ous := []
  warnings := []

/-- Now the second section alone declares its account, and that is gone. -/
def goneAccount : Input where
  config :=
    { options := {}
      ous := .empty
      mandatory := .empty
      workload := ⟨[("app", coreEntry "App" "app@x.org")], by decide⟩ }
  tree :=
    { rootId := "r-1"
      ous := [⟨"ou-a", "Core", "r-1", "Core"⟩]
      buckets := [] }
  previous := some twoRecords

/-- The account is missing and was recorded with an identifier, but nothing is found. -/
theorem reconcile_overlooks_record :
    (reconcile goneAccount).statuses = [("app", .missingInOrg)] ∧
      (∃ s, goneAccount.previous = some s ∧
        ∃ a ∈ s.accounts, a.key = "app" ∧ a.cloudId.isSome = true) ∧
      (reconcile goneAccount).findings = [] := by
  refine ⟨by decide +kernel, ⟨twoRecords, rfl, ?_⟩, by decide +kernel⟩
  decide +kernel

end OrgAlign.Reconcile
