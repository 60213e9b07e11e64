import OrgAlign.Proofs.Reconcile.Ledger

/-!
# The steps of a pass and what they remember

Every step of a pass is a stretch of it, and the references that it goes on to remember can be told
from the item that it looks at. Main statements:

* `reconcileOu_advances`, `reconcileAccount_advances`, `checkCoreOu_advances`: which references a
  unit, an account or a unit of the manifest makes the pass remember;
* `checkLimit_continues`, `checkRole_continues`, and so on: the other steps remember none.
-/

namespace OrgAlign.Reconcile

open Config Org

open Pass (Advances Continues)

/-! ### References -/

namespace Pass.Advances

variable {ous : List LiveOu} {p q : Pass} {r : String}

/-- An unresolved reference is remembered once it is reported with what is wrong with it. -/
theorem of_unresolved {k : FindingKind} {m : String} (hk : faultOf? (matchOu r ous) = some k) :
    Advances ous (fun s => r = s ∧ Unresolved ous s) p (p.reportOu r (.fatal k r m)) := by
  refine (reportOu p hk).congr fun s => ⟨?_, And.left⟩
  rintro rfl
  exact ⟨rfl, k, hk⟩

/-- A reference that resolves is none to remember. -/
theorem of_found {ou : LiveOu} {s : MatchStrategy} (hfound : matchOu r ous = .found ou s)
    (h : Continues ous p q) : Advances ous (fun s => r = s ∧ Unresolved ous s) p q := by
  refine h.congr fun s => ⟨False.elim, ?_⟩
  rintro ⟨rfl, k, hk⟩
  rw [hfound] at hk
  cases hk

end Pass.Advances

open Pass.Advances

variable {i : Input} {t : OrgTree} {p : Pass} {d : Declared}

/-! ### Units and accounts -/

/-- Looking at a unit makes the pass remember its reference if that is unresolved. -/
theorem reconcileOu_advances (t : OrgTree) (p : Pass) (reference : String) :
    Advances t.ous (fun r => reference = r ∧ Unresolved t.ous r) p (reconcileOu t p reference) := by
  unfold reconcileOu
  split
  · rename_i h
    exact of_found h (addOu p _)
  · rename_i h
    exact of_unresolved (by rw [h]; rfl)
  · rename_i h
    exact of_unresolved (by rw [h]; rfl)

/-- Looking at an account that is not live makes the pass remember no reference. -/
theorem reconcileAbsent_continues (ous : List LiveOu) (i : Input) (p : Pass) (d : Declared) :
    Continues ous p (reconcileAbsent i p d) := by
  cases hrec : recorded? i.previous d.key with
  | none =>
    have hstatus : Continues ous p (p.status d.key .missingInOrg) := status p _ _
    cases hrole : d.entry.role with
    | none =>
      simp only [reconcileAbsent, hrec, hrole]
      exact hstatus.before (addAccount _ _)
    | some role =>
      simp only [reconcileAbsent, hrec, hrole]
      exact hstatus.before (missingRole _ _ _)
  | some found =>
    cases hid : i.tree.accountById? found.2 <;> cases hrole : d.entry.role <;>
      simp only [reconcileAbsent, hrec, hid, hrole]
    · exact (report p (.fatal (by decide))).before (status _ _ _)
    · exact ((report p (.fatal (by decide))).before (status _ _ _)).before (missingRole _ _ _)
    · exact (report p (.fatal (by decide))).before (status _ _ _)
    · exact ((report p (.fatal (by decide))).before (status _ _ _)).before (missingRole _ _ _)

/-- Nor does looking at a live account. -/
theorem reconcilePresent_continues (ous : List LiveOu) (p : Pass) (d : Declared) (ou : LiveOu)
    (live : LiveAccount) : Continues ous p (reconcilePresent p d ou live) := by
  have haccept : ∀ q : Pass, Continues ous q
      ((q.status d.key .matched).addAccount (canonical d (some live.id))) := fun q =>
    (status q _ _).before (addAccount _ _)
  unfold reconcilePresent
  simp only
  split
  · exact (report p (.warning (by decide))).before (haccept _)
  split
  · exact (report p (.fatal (by decide))).before (status _ _ _)
  split
  · exact (report p (.fatal (by decide))).before (status _ _ _)
  · exact haccept p

/-- An account refers to a unit, and not to one in an ignored top-level unit. -/
def Refers (i : Input) (d : Declared) (r : String) : Prop :=
  i.config.options.isIgnored (Path.topLevel d.entry.path) = false ∧ d.entry.path = r

/-- Looking at a declared account makes the pass remember the reference of the account if that is
unresolved, unless the account is in an ignored unit. -/
theorem reconcileAccount_advances (i : Input) (p : Pass) (d : Declared) :
    Advances i.tree.ous (fun r => Refers i d r ∧ Unresolved i.tree.ous r) p
      (reconcileAccount i p d) := by
  unfold reconcileAccount
  simp only
  split
  · rename_i hignored
    refine ((report p (.fatal (by decide))).before (status _ _ _)).congr fun r => ?_
    refine ⟨False.elim, ?_⟩
    rintro ⟨⟨hnot, -⟩, -⟩
    rw [hignored] at hnot
    cases hnot
  · rename_i hignored
    have hrefers : ∀ r, d.entry.path = r ∧ Unresolved i.tree.ous r ↔
        Refers i d r ∧ Unresolved i.tree.ous r := fun r =>
      and_congr_left fun _ => (and_iff_right (Bool.not_eq_true _ ▸ hignored)).symm
    refine Advances.congr ?_ hrefers
    split
    · rename_i h
      exact (of_unresolved (by rw [h]; rfl)).before (status _ _ _)
    · rename_i h
      exact (of_unresolved (by rw [h]; rfl)).before (status _ _ _)
    · rename_i h
      refine of_found h ?_
      split
      · exact reconcileAbsent_continues _ i p d
      · exact reconcilePresent_continues _ p d _ _

/-! ### Policies and undeclared accounts -/

theorem checkLimit_continues (ous : List LiveOu) (g : GlobalOptions) (o : Organization) (p : Pass)
    (t : LimitTarget) : Continues ous p (checkLimit g o p t) := by
  unfold checkLimit
  split
  · exact refl p
  · simp only
    split
    · exact report p (.fatal (by decide))
    · exact refl p

theorem checkLimits_continues (i : Input) (p : Pass) :
    Continues i.tree.ous p (checkLimits i p) := by
  unfold checkLimits
  split
  · exact foldl_continues _ (fun q t => checkLimit_continues _ _ _ q t) p
  · exact refl p

/-- Plain findings make the pass remember nothing. -/
theorem foldl_report_continues (ous : List LiveOu) {fs : List Finding} (hfs : ∀ f ∈ fs, f.Plain)
    (p : Pass) : Continues ous p (fs.foldl Pass.report p) :=
  (Advances.foldl (fun q f hf => report q (hfs f hf)) p).congr fun r => by simp

/-- All that is said about undeclared accounts is a warning. -/
theorem unmanaged?_eq_some {c : Configuration} {t : OrgTree} {a : LiveAccount} {f : Finding}
    (h : unmanaged? c t a = some f) : f.isFatal = false ∧ f.kind = .unmanagedAccount := by
  unfold unmanaged? at h
  simp only at h
  split at h
  · cases h
  · cases h
    exact ⟨rfl, rfl⟩

theorem reportUnmanaged_continues (i : Input) (p : Pass) :
    Continues i.tree.ous p (reportUnmanaged i p) := by
  refine foldl_report_continues _ (fun f hf => ?_) p
  obtain ⟨a, -, ha⟩ := List.mem_filterMap.1 hf
  refine .of_kind ?_
  rw [(unmanaged?_eq_some ha).2]
  decide

/-! ### The manifest -/

/-- The complaints about the list of units make the pass remember nothing. -/
theorem listChecks_continues (ous : List LiveOu) (p : Pass) (live declared names : List String) :
    Continues ous p
      (checkOusLive live names (checkOuNames declared names (checkOuCount live names p))) := by
  have hcount : ∀ q, Continues ous q (checkOuCount live names q) := fun q => by
    unfold checkOuCount
    split
    · exact refl q
    · exact report q (.warning (by decide))
  have hnames : ∀ q, Continues ous q (checkOuNames declared names q) := fun q => by
    unfold checkOuNames
    split
    · exact refl q
    · exact report q (.fatal (by decide))
  have hlive : ∀ q, Continues ous q (checkOusLive live names q) := fun q => by
    unfold checkOusLive
    split
    · exact refl q
    · exact report q (.fatal (by decide))
  exact ((hcount p).before (hnames _)).before (hlive _)

/-- All that a comparison with a core account says is a fatal mismatch. -/
theorem mem_compareCore {role : LegacyRole} {ou : CoreOu} {core : CoreAccount}
    {a : CanonicalAccount} {f : Finding} (h : f ∈ compareCore role ou core a) :
    f.isFatal = true ∧ f.kind = .legacyMismatch := by
  unfold compareCore at h
  simp only [List.mem_append] at h
  rcases h with (h | h) | h
  · split at h
    · rw [List.mem_singleton.1 h]
      exact ⟨rfl, rfl⟩
    · exact absurd h List.not_mem_nil
  · split at h
    · split at h
      · exact absurd h List.not_mem_nil
      · rw [List.mem_singleton.1 h]
        exact ⟨rfl, rfl⟩
    · exact absurd h List.not_mem_nil
  · split at h
    · rw [List.mem_singleton.1 h]
      exact ⟨rfl, rfl⟩
    · exact absurd h List.not_mem_nil

theorem checkCore_continues (ous : List LiveOu) (t : OrgTree) (ou : CoreOu) (live : LiveOu)
    (p : Pass) (core : CoreAccount) : Continues ous p (checkCore t ou live p core) := by
  unfold checkCore
  split
  · exact report p (.fatal (by decide))
  split
  · exact report p .unnamed
  split
  · exact reportRole p (List.mem_cons_of_mem _ (List.mem_singleton_self _))
  · refine foldl_report_continues _ (fun f hf => .of_kind ?_) p
    rw [(mem_compareCore hf).2]
    decide

/-- The name of a unit of the manifest is looked up. -/
def LooksUp (ou : CoreOu) (r : String) : Prop := ou.accounts ≠ [] ∧ ou.name = r

/-- Looking at a unit's core accounts makes the pass remember the unit's name if that is
ambiguous. -/
theorem checkCoreOu_advances (t : OrgTree) (p : Pass) (ou : CoreOu) :
    Advances t.ous (fun r => LooksUp ou r ∧ ∃ candidates, matchOu r t.ous = .ambiguous candidates) p
      (checkCoreOu t p ou) := by
  have hnone : ∀ {q}, (∀ candidates, ou.accounts ≠ [] →
      matchOu ou.name t.ous ≠ .ambiguous candidates) → Continues t.ous p q →
      Advances t.ous (fun r => LooksUp ou r ∧ ∃ candidates, matchOu r t.ous = .ambiguous candidates)
        p q := by
    intro q hother h
    refine h.congr fun r => ⟨False.elim, ?_⟩
    rintro ⟨⟨hsome, rfl⟩, candidates, hmatch⟩
    exact hother candidates hsome hmatch
  unfold checkCoreOu
  split
  · rename_i hempty
    exact hnone (fun _ hsome => absurd hempty hsome) (refl p)
  rename_i hsome
  split
  · rename_i h
    refine hnone (fun _ _ => by rw [h]; exact nofun) ?_
    exact foldl_continues _ (fun q c => checkCore_continues _ t ou _ q c) p
  · rename_i candidates h
    have hreport : Advances t.ous (fun s => ou.name = s) p (p.ambiguousOu ou.name candidates) :=
      reportOu p (by rw [h]; rfl)
    refine hreport.congr fun r => ⟨?_, fun hr => hr.1.2⟩
    rintro rfl
    exact ⟨⟨hsome, rfl⟩, candidates, h⟩
  · rename_i h
    exact hnone (fun _ _ => by rw [h]; exact nofun) (report p (.fatal (by decide)))

theorem checkRole_continues (ous : List LiveOu) (p : Pass) (role : LegacyRole) :
    Continues ous p (checkRole p role) := by
  unfold checkRole
  split
  · exact refl p
  · exact missingRole p _ _

/-- A reference is the name of a unit of the manifest that has core accounts. -/
def NamedByManifest (i : Input) (r : String) : Prop :=
  ∃ m, i.manifest = some m ∧ ∃ ou ∈ m.ous, LooksUp ou r

/-- Checking against the manifest makes the pass remember the ambiguous names of units that have
core accounts. -/
theorem reconcileManifest_advances (i : Input) (p : Pass) :
    Advances i.tree.ous (fun r => NamedByManifest i r ∧
      ∃ candidates, matchOu r i.tree.ous = .ambiguous candidates) p (reconcileManifest i p) := by
  unfold reconcileManifest
  split
  · rename_i m hm
    unfold checkManifest
    simp only
    refine Advances.congr (((Advances.foldl
      (fun q ou _ => checkCoreOu_advances i.tree q ou) _).after
      (listChecks_continues _ p _ _ _)).before
      (foldl_continues _ (fun q role => checkRole_continues _ q role) _)) fun r => ?_
    unfold NamedByManifest
    simp only [hm, Option.some.injEq, exists_eq_left']
    constructor
    · rintro ⟨ou, hou, hlooks, hambiguous⟩
      exact ⟨⟨ou, hou, hlooks⟩, hambiguous⟩
    · rintro ⟨⟨ou, hou, hlooks⟩, hambiguous⟩
      exact ⟨ou, hou, hlooks, hambiguous⟩
  · rename_i hm
    refine (refl p).congr fun r => ⟨False.elim, ?_⟩
    rintro ⟨⟨m, hsome, -⟩, -⟩
    rw [hm] at hsome
    cases hsome

/-! ### The whole pass -/

/-- A reference is one of those that the configuration speaks of, or the path of an active account
outside the ignored units. -/
def Mentioned (i : Input) (r : String) : Prop :=
  r ∈ i.config.declaredPaths ∨ ∃ d ∈ i.config.accounts, Refers i d r

/-- Looking at all units makes the pass remember the declared references that are unresolved. -/
theorem reconcileOus_advances (i : Input) (p : Pass) : Advances i.tree.ous
    (fun r => ∃ reference ∈ i.config.declaredPaths, reference = r ∧ Unresolved i.tree.ous r) p
    (reconcileOus i p) :=
  Advances.foldl (fun q r _ => reconcileOu_advances i.tree q r) p

/-- Looking at some accounts makes it remember their references that are unresolved. -/
theorem foldl_reconcileAccount_advances (i : Input) (ds : List Declared) (p : Pass) :
    Advances i.tree.ous (fun r => ∃ d ∈ ds, Refers i d r ∧ Unresolved i.tree.ous r) p
      (ds.foldl (reconcileAccount i) p) :=
  Advances.foldl (fun q d _ => reconcileAccount_advances i q d) p

/-- Looking at all units and accounts makes the pass remember the references mentioned that are
unresolved. -/
theorem reconcileItems_advances (i : Input) (p : Pass) :
    Advances i.tree.ous (fun r => Mentioned i r ∧ Unresolved i.tree.ous r) p
      (reconcileAccounts i (reconcileOus i p)) := by
  refine ((reconcileOus_advances i p).trans
    (foldl_reconcileAccount_advances i i.config.accounts _)).congr fun r => ?_
  unfold Mentioned
  constructor
  · rintro (⟨reference, hmem, rfl, hun⟩ | ⟨d, hd, hrefers, hun⟩)
    · exact ⟨.inl hmem, hun⟩
    · exact ⟨.inr ⟨d, hd, hrefers⟩, hun⟩
  · rintro ⟨hmem | ⟨d, hd, hrefers⟩, hun⟩
    · exact .inl ⟨r, hmem, rfl, hun⟩
    · exact .inr ⟨d, hd, hrefers, hun⟩

/-- All that comes after the accounts makes the pass remember ambiguous names of the manifest
alone. -/
theorem laterSteps_advances (i : Input) (p : Pass) :
    Advances i.tree.ous (fun r => NamedByManifest i r ∧
      ∃ candidates, matchOu r i.tree.ous = .ambiguous candidates) p
      (reconcileManifest i (reportUnmanaged i (checkLimits i p))) :=
  (reconcileManifest_advances i _).after
    ((checkLimits_continues i p).before (reportUnmanaged_continues i _))

end OrgAlign.Reconcile
