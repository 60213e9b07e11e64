import OrgAlign.Proofs.Reconcile.Admission

/-!
# Once each

Declared units, accounts and the manifest speak of the same references and roles, and a pass reports
each of them once. Main statements:

* `collected_ledger`: at the end of a pass, what is remembered is what was reported;
* `mem_reportedOus_iff`: which references that are;
* `mem_reportedRoles_of_manifest`: with a manifest, a role that no canonical account has is among
  the roles;
* `ReportedOnce`, `reconcile_reportedOnce`: what that means for the findings.
-/

namespace OrgAlign.Reconcile

open Config Org Finding

variable {i : Input}

/-! ### The whole pass -/

/-- What a pass begins with. -/
def beginning (i : Input) : Pass := { findings := duplicateEmails i.config }

theorem beginning_ledger (i : Input) : (beginning i).Ledger i.tree.ous := by
  refine Pass.Ledger.of_fresh rfl rfl fun f hf => .of_kind ?_
  rw [(fatal_of_mem_duplicatesFrom hf).2]
  decide

/-- A pass goes on to remember the unresolved references that are mentioned, and the ambiguous ones
that the manifest names. -/
theorem collected_advances (i : Input) : Pass.Advances i.tree.ous
    (fun r => (Mentioned i r ∧ Unresolved i.tree.ous r) ∨
      (NamedByManifest i r ∧ ∃ candidates, matchOu r i.tree.ous = .ambiguous candidates))
    (beginning i) (collected i) :=
  (reconcileItems_advances i _).trans (laterSteps_advances i _)

/-- **What a pass remembers in the end is what it has reported.** -/
theorem collected_ledger (i : Input) : (collected i).Ledger i.tree.ous :=
  (collected_advances i).ledger (beginning_ledger i)

/-! ### References -/

theorem faultOf?_eq_missingOu {m : OuMatch} : faultOf? m = some .missingOu ↔ m = .notFound := by
  cases m <;> simp [faultOf?]

theorem faultOf?_eq_ambiguousOu {m : OuMatch} :
    faultOf? m = some .ambiguousOu ↔ ∃ candidates, m = .ambiguous candidates := by
  cases m <;> simp [faultOf?]

/-- The references remembered in the end. -/
theorem mem_reportedOus_iff {r : String} : r ∈ (collected i).reportedOus ↔
    (Mentioned i r ∧ Unresolved i.tree.ous r) ∨
      (NamedByManifest i r ∧ ∃ candidates, matchOu r i.tree.ous = .ambiguous candidates) := by
  rw [(collected_advances i).marks]
  exact or_iff_right List.not_mem_nil

/-- The findings of either kind about references are about those remembered that have this fault,
each once. -/
theorem subjectsOf_findings {k : FindingKind} (hk : k = .missingOu ∨ k = .ambiguousOu) :
    (subjectsOf k (reconcile i).findings).Nodup ∧ ∀ r, r ∈ subjectsOf k (reconcile i).findings ↔
      r ∈ (collected i).reportedOus ∧ faultOf? (matchOu r i.tree.ous) = some k := by
  have hledger := collected_ledger i
  have hsubjects : subjectsOf k (reconcile i).findings = _ := hledger.units k hk
  rw [hsubjects]
  refine ⟨(List.nodup_reverse.2 hledger.once).filter _, fun r => ?_⟩
  rw [List.mem_filter, List.mem_reverse, decide_eq_true_iff]

/-! ### Roles -/

/-- With a manifest, a role that no canonical account has is remembered in the end. -/
theorem mem_reportedRoles_of_manifest {m : Manifest} (hm : i.manifest = some m) {role : LegacyRole}
    (hnone : ∀ a ∈ (collected i).accounts, a.role ≠ some role) :
    role ∈ (collected i).reportedRoles := by
  let Inv : Pass → Prop := fun p =>
    (∀ a ∈ p.accounts, a.role ≠ some role) → role ∈ p.reportedRoles
  have haccounts : ∀ (p : Pass) other, (checkRole p other).accounts = p.accounts := fun p other =>
    congrArg Prod.fst (Pass.records_kept.checkRole p other)
  -- the last walk looks for this role, too, and no account is added on it
  have hdone : ∀ p, Inv (checkRole p role) := by
    intro p hlacking
    rw [haccounts] at hlacking
    unfold checkRole
    split
    · rename_i hsome
      obtain ⟨a, ha, hrole⟩ := List.any_eq_true.1 hsome
      exact absurd (beq_iff_eq.1 hrole) (hlacking a ha)
    · exact Pass.mem_reportedRoles_missingRole p role _
  have hkeeps : ∀ (p : Pass), ∀ other ∈ LegacyRole.all, Inv p → Inv (checkRole p other) := by
    intro p other _ hp hlacking
    rw [haccounts] at hlacking
    exact (checkRole_continues i.tree.ous p other).roles (hp hlacking)
  have hend : ∀ p : Pass, Inv (reconcileManifest i p) := by
    intro p
    unfold reconcileManifest
    rw [hm]
    exact foldl_leaves Inv role.mem_all hdone hkeeps _
  exact hend _ hnone

/-! ### What is reported -/

/-- Every reference that cannot be resolved, and every role without an account, is reported once. -/
structure ReportedOnce (i : Input) : Prop where
  /-- No reference is reported twice as missing. -/
  missingOnce : (subjectsOf .missingOu (reconcile i).findings).Nodup
  /-- The references reported as missing are those mentioned that resolve to nothing. -/
  missing : ∀ r, r ∈ subjectsOf .missingOu (reconcile i).findings ↔
    Mentioned i r ∧ matchOu r i.tree.ous = .notFound
  /-- No reference is reported twice as ambiguous. -/
  ambiguousOnce : (subjectsOf .ambiguousOu (reconcile i).findings).Nodup
  /-- The references reported as ambiguous are those mentioned, or named by the manifest for its
  core accounts, that resolve to several units. -/
  ambiguous : ∀ r, r ∈ subjectsOf .ambiguousOu (reconcile i).findings ↔
    (Mentioned i r ∨ NamedByManifest i r) ∧
      ∃ candidates, matchOu r i.tree.ous = .ambiguous candidates
  /-- No role is reported twice. -/
  roleOnce : ∀ role, (reconcile i).findings.countP (·.lacks role) ≤ 1
  /-- With a manifest, a role that no canonical account has is reported. -/
  role : ∀ role, i.manifest.isSome = true →
    (∀ a ∈ (reconcile i).organization.accounts, a.role ≠ some role) →
      ∃ f ∈ (reconcile i).findings, f.lacks role = true

/-- **A pass reports every unresolved reference and every role without an account once**, whether
declared units, accounts or the manifest speak of it. -/
theorem reconcile_reportedOnce (i : Input) : ReportedOnce i := by
  have hledger := collected_ledger i
  obtain ⟨hmissingOnce, hmissing⟩ := subjectsOf_findings (i := i) (.inl rfl)
  obtain ⟨hambiguousOnce, hambiguous⟩ := subjectsOf_findings (i := i) (.inr rfl)
  refine ⟨hmissingOnce, fun r => ?_, hambiguousOnce, fun r => ?_, fun role => ?_, ?_⟩
  · rw [hmissing, faultOf?_eq_missingOu, mem_reportedOus_iff]
    refine and_congr_left fun hnotFound => ?_
    have hun : Unresolved i.tree.ous r := ⟨_, faultOf?_eq_missingOu.2 hnotFound⟩
    constructor
    · rintro (⟨hmentioned, -⟩ | ⟨-, candidates, hmatch⟩)
      · exact hmentioned
      · rw [hnotFound] at hmatch
        cases hmatch
    · exact fun hmentioned => .inl ⟨hmentioned, hun⟩
  · rw [hambiguous, faultOf?_eq_ambiguousOu, mem_reportedOus_iff]
    refine and_congr_left fun hmatch => ?_
    have hun : Unresolved i.tree.ous r := ⟨_, faultOf?_eq_ambiguousOu.2 hmatch⟩
    exact or_congr (and_iff_left hun) (and_iff_left hmatch)
  · change (collected i).findings.countP _ ≤ 1
    rw [hledger.roles role]
    exact List.nodup_iff_count_le_one.1 hledger.rolesOnce role
  · intro role hsome hnone
    obtain ⟨m, hm⟩ := Option.isSome_iff_exists.1 hsome
    have hreported := mem_reportedRoles_of_manifest hm hnone
    have hcount : 0 < (collected i).findings.countP (·.lacks role) := by
      rw [hledger.roles role]
      exact List.count_pos_iff.2 hreported
    exact List.countP_pos_iff.1 hcount

end OrgAlign.Reconcile
