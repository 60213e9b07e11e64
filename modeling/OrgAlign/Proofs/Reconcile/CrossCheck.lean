import OrgAlign.Proofs.Reconcile.CleanPass

/-!
# The cross-check against the manifest

A manifest adds findings to a pass and changes nothing else, and some of them are left out because
their unit or role was reported before. Main statements:

* `coreAdmits_nothing`, `coreOuAdmits_nothing`, `manifestAdmits_nothing`: nothing fatal is to be
  said about a core account, a unit or a manifest iff it agrees with what is declared and live;
* `clean_with_manifest_iff`: a pass with a manifest is clean iff the pass without it is and the
  manifest agrees. What was left out never hides that it does not.
-/

namespace OrgAlign.Reconcile

open Config Org

/-! ### Agreement -/

/-- A canonical account is the one that the manifest describes: it has the name, unless it is the
primary account, the e-mail address, if the manifest gives one, and the unit. -/
structure DescribedBy (role : LegacyRole) (ou : CoreOu) (core : CoreAccount)
    (a : CanonicalAccount) : Prop where
  /-- The name of any but the primary account. -/
  name : role ≠ .primary → a.name = core.name
  /-- The address, in whatever case. -/
  email : ∀ email, core.email = some email → Text.sameIgnoringCase a.email email = true
  /-- The unit, as the declaration names it. -/
  ou : a.ou = ou.name

/-- A core account of a live unit has a role, is in the unit, unless it is the primary account, and
describes the first canonical account of that role. -/
def CoreAgrees (t : OrgTree) (accounts : List CanonicalAccount) (ou : CoreOu) (live : LiveOu)
    (core : CoreAccount) : Prop :=
  ∃ role, core.role? = some role ∧
    (role ≠ .primary → ∃ a ∈ t.accountsIn live.id, a.name = core.name) ∧
    ∃ a, accounts.find? (fun a => a.role == some role) = some a ∧ DescribedBy role ou core a

/-- The unit of core accounts is live, and they agree. -/
def CoreOuAgrees (t : OrgTree) (accounts : List CanonicalAccount) (ou : CoreOu) : Prop :=
  ∃ live strategy, matchOu ou.name t.ous = .found live strategy ∧
    ∀ core ∈ ou.accounts, CoreAgrees t accounts ou live core

/-- A manifest agrees with a configuration, the live hierarchy and the canonical accounts. -/
structure ManifestAgrees (c : Configuration) (t : OrgTree) (accounts : List CanonicalAccount)
    (m : Manifest) : Prop where
  /-- The configuration declares the manifest's units, in its order. -/
  names : c.ous.keys = m.ouNames
  /-- Each of them is the name of a live unit. -/
  live : ∀ name ∈ m.ouNames, ∃ ou ∈ t.ous, ou.name = name
  /-- Units with core accounts are found, and the accounts agree. -/
  cores : ∀ ou ∈ m.ous, ou.accounts ≠ [] → CoreOuAgrees t accounts ou
  /-- Every role has a canonical account. -/
  roles : ∀ role : LegacyRole, ∃ a ∈ accounts, a.role = some role

/-! ### Nothing to say -/

/-- A comparison says nothing iff the account is as described. -/
theorem compareCore_eq_nil {role : LegacyRole} {ou : CoreOu} {core : CoreAccount}
    {a : CanonicalAccount} : compareCore role ou core a = [] ↔ DescribedBy role ou core a := by
  have hname : (if role ≠ .primary ∧ a.name ≠ core.name then
      [roleMismatch role core.name "name and Landing Zone account name" a.name core.name]
      else []) = [] ↔ (role ≠ .primary → a.name = core.name) := by
    split
    · rename_i h
      simp only [List.cons_ne_nil, false_iff]
      intro hsame
      exact h.2 (hsame h.1)
    · rename_i h
      simp only [true_iff]
      intro hrole
      by_contra hne
      exact h ⟨hrole, hne⟩
  have hou : (if a.ou ≠ ou.name then
      [roleMismatch role core.name "OU and Landing Zone OU" a.ou ou.name] else []) = [] ↔
      a.ou = ou.name := by
    split
    · rename_i h
      simp [h]
    · rename_i h
      simpa using h
  unfold compareCore
  rw [List.append_eq_nil_iff, List.append_eq_nil_iff]
  constructor
  · rintro ⟨⟨hn, he⟩, ho⟩
    refine ⟨hname.1 hn, ?_, hou.1 ho⟩
    intro email hgiven
    rw [hgiven] at he
    by_contra hdiffers
    simp [hdiffers] at he
  · intro h
    refine ⟨⟨hname.2 h.name, ?_⟩, hou.2 h.ou⟩
    split
    · rename_i email hgiven
      rw [if_pos (h.email email hgiven)]
    · rfl

section

variable {t : OrgTree} {accounts : List CanonicalAccount}

/-- Nothing is to be said about a core account iff it agrees. -/
theorem coreAdmits_nothing {ou : CoreOu} {live : LiveOu} {core : CoreAccount} :
    CoreAdmits nothing t accounts ou live core ↔ CoreAgrees t accounts ou live core := by
  unfold CoreAdmits CoreAgrees
  cases core.role? with
  | none => simp [nothing]
  | some role =>
    simp only [Option.some.injEq, exists_eq_left']
    refine and_congr ?_ (exists_congr fun a => and_congr_right fun _ => ?_)
    · -- the primary account may be anywhere
      rw [List.any_eq_true, or_iff_not_imp_left]
      simp only [beq_iff_eq, ne_eq]
    · rw [← compareCore_eq_nil, List.eq_nil_iff_forall_not_mem]
      rfl

/-- Nothing is to be said about the core accounts of a unit iff there are none or they agree. -/
theorem coreOuAdmits_nothing {ou : CoreOu} :
    CoreOuAdmits nothing t accounts ou ↔ (ou.accounts ≠ [] → CoreOuAgrees t accounts ou) := by
  unfold CoreOuAdmits CoreOuAgrees
  rw [or_iff_not_imp_left]
  refine imp_congr_right fun _ => ?_
  cases matchOu ou.name t.ous with
  | found live strategy =>
    have hcores : (∀ core ∈ ou.accounts, CoreAdmits nothing t accounts ou live core) ↔
        ∀ core ∈ ou.accounts, CoreAgrees t accounts ou live core :=
      forall₂_congr fun core _ => coreAdmits_nothing
    simp [hcores]
  | ambiguous candidates => simp [nothing]
  | notFound => simp [nothing]

/-- Nothing is to be said about a manifest iff it agrees. -/
theorem manifestAdmits_nothing {i : Input} {m : Manifest} :
    ManifestAdmits nothing i accounts m ↔ ManifestAgrees i.config i.tree accounts m := by
  constructor
  · intro h
    refine ⟨h.names.resolve_right id, ?_, ?_, ?_⟩
    · intro name hname
      exact List.mem_map.1 (h.live.resolve_right id name hname)
    · intro ou hou
      exact coreOuAdmits_nothing.1 (h.units ou hou)
    · intro role
      have hrole := h.roles role role.mem_all
      simpa [List.any_eq_true] using hrole
  · intro h
    refine ⟨.inl h.names, .inl ?_, ?_, ?_⟩
    · intro name hname
      exact List.mem_map.2 (h.live name hname)
    · intro ou hou
      exact coreOuAdmits_nothing.2 (h.cores ou hou)
    · intro role _
      simpa [List.any_eq_true] using h.roles role

end

/-! ### The whole pass -/

/-- What is wrong with the items of an input is what is wrong without the manifest, and what is
wrong with the manifest. -/
theorem admissible_with_manifest {Q : Tolerance} {i : Input} {m : Manifest} :
    Admissible Q { i with manifest := some m } ↔
      Admissible Q { i with manifest := none } ∧ ManifestAdmits Q i (accountRecords i) m := by
  constructor
  · intro h
    have hmanifest := h.manifest m rfl
    refine ⟨⟨h.emails, h.units, h.accounts, h.limits, nofun⟩, ?_⟩
    exact ⟨hmanifest.names, hmanifest.live, hmanifest.units, hmanifest.roles⟩
  · rintro ⟨h, hmanifest⟩
    refine ⟨h.emails, h.units, h.accounts, h.limits, ?_⟩
    intro m' hm'
    obtain rfl := Option.some.inj hm'
    exact ⟨hmanifest.names, hmanifest.live, hmanifest.units, hmanifest.roles⟩

/-- **The cross-check is exact.** A pass with a manifest is clean iff the pass without it is and the
manifest agrees with the configuration, the live hierarchy and the canonical accounts. -/
theorem clean_with_manifest_iff (i : Input) (m : Manifest) :
    (reconcile { i with manifest := some m }).hasFatal = false ↔
      (reconcile { i with manifest := none }).hasFatal = false ∧
        ManifestAgrees i.config i.tree
          (reconcile { i with manifest := none }).organization.accounts m := by
  have haccounts : (reconcile { i with manifest := none }).organization.accounts =
      accountRecords i := reconcile_accounts { i with manifest := none }
  rw [hasFatal_eq_false_iff, hasFatal_eq_false_iff, admissible_with_manifest, haccounts,
    manifestAdmits_nothing]

end OrgAlign.Reconcile
