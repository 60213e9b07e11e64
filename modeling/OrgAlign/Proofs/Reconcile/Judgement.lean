import OrgAlign.Proofs.Reconcile.Resolution
import OrgAlign.Proofs.Walks
import OrgAlign.Reconcile.Legacy

/-!
# What a pass lets through

A pass collects findings while it walks over units, accounts, policies and the manifest, and it
leaves a finding out when the same reference or role was reported before. `Pass.Admits Q` says that
all its fatal findings are tolerated by `Q`. Main statements:

* `Pass.Coherent.admits_reportOu`: a reference counts as reported with what is wrong with it, also
  where it was reported before;
* `Pass.Coherent.not_admits_reportRole`: so does a role, for every tolerance that excuses no missing
  account;
* `admits_foldl`: a walk admits what its items admit.
-/

namespace OrgAlign.Reconcile

open Config Org

/-! ### Tolerated findings -/

/-- The fatal findings that are let through, by kind and subject. -/
abbrev Tolerance := FindingKind → String → Prop

/-- No fatal finding is let through. -/
def nothing : Tolerance := fun _ _ => False

/-- Every fatal finding of the pass is tolerated. -/
def Pass.Admits (p : Pass) (Q : Tolerance) : Prop :=
  ∀ f ∈ p.findings, f.isFatal = true → Q f.kind f.subject

namespace Pass

variable {p : Pass} {Q : Tolerance}

@[simp] theorem isFatal_fatal (k : FindingKind) (s m : String) :
    (Finding.fatal k s m).isFatal = true := rfl

@[simp] theorem isFatal_warning (k : FindingKind) (s m : String) :
    (Finding.warning k s m).isFatal = false := rfl

/-- One more finding has to be tolerated, too. -/
theorem admits_report {f : Finding} :
    (p.report f).Admits Q ↔ p.Admits Q ∧ (f.isFatal = true → Q f.kind f.subject) := by
  unfold Admits report
  simp only [List.mem_append, List.mem_singleton]
  constructor
  · intro h
    exact ⟨fun g hg => h g (.inl hg), h f (.inr rfl)⟩
  · rintro ⟨h, hf⟩ g (hg | rfl)
    · exact h g hg
    · exact hf

/-- One more fatal finding has to be tolerated, too. -/
@[simp] theorem admits_report_fatal {k : FindingKind} {s m : String} :
    (p.report (.fatal k s m)).Admits Q ↔ p.Admits Q ∧ Q k s := by
  rw [admits_report]
  simp [Finding.fatal, Finding.isFatal]

/-- Warnings are always tolerated. -/
@[simp] theorem admits_report_warning {k : FindingKind} {s m : String} :
    (p.report (.warning k s m)).Admits Q ↔ p.Admits Q := by
  rw [admits_report]
  simp

@[simp] theorem admits_status {key : String} {s : MatchStatus} :
    (p.status key s).Admits Q ↔ p.Admits Q := Iff.rfl

@[simp] theorem admits_addAccount {a : CanonicalAccount} :
    (p.addAccount a).Admits Q ↔ p.Admits Q := Iff.rfl

@[simp] theorem admits_addOu {o : CanonicalOu} : (p.addOu o).Admits Q ↔ p.Admits Q := Iff.rfl

/-- A list of findings is reported one by one. -/
theorem admits_foldl_report (fs : List Finding) (p : Pass) :
    (fs.foldl report p).Admits Q ↔
      p.Admits Q ∧ ∀ f ∈ fs, f.isFatal = true → Q f.kind f.subject := by
  induction fs generalizing p with
  | nil => simp
  | cons f fs ih => rw [List.foldl_cons, ih, admits_report, List.forall_mem_cons, and_assoc]

end Pass

/-! ### What is remembered as reported -/

/-- What is wrong with a reference, by what it resolves to. -/
def faultOf? : OuMatch → Option FindingKind
  | .found _ _ => none
  | .ambiguous _ => some .ambiguousOu
  | .notFound => some .missingOu

/-- Whatever a pass remembers as reported, it has a fatal finding about. -/
structure Pass.Coherent (ous : List LiveOu) (p : Pass) : Prop where
  /-- A reported reference has a finding with what is wrong with it. -/
  units : ∀ r ∈ p.reportedOus, ∃ f ∈ p.findings,
    f.isFatal = true ∧ f.subject = r ∧ faultOf? (matchOu r ous) = some f.kind
  /-- A reported role has a finding about a missing account. -/
  roles : ∀ role ∈ p.reportedRoles, ∃ f ∈ p.findings,
    f.isFatal = true ∧ f.kind = .missingLegacyAccount

namespace Pass

variable {ous : List LiveOu} {p : Pass} {Q : Tolerance}

/-- A pass that has reported nothing is coherent. -/
theorem Coherent.of_fresh (hous : p.reportedOus = []) (hroles : p.reportedRoles = []) :
    p.Coherent ous := by
  constructor
  · rw [hous]
    exact fun r hr => absurd hr (List.not_mem_nil)
  · rw [hroles]
    exact fun r hr => absurd hr (List.not_mem_nil)

/-- Reporting keeps coherence: nothing is taken back. -/
theorem Coherent.report (h : p.Coherent ous) (f : Finding) : (p.report f).Coherent ous := by
  constructor
  · intro r hr
    obtain ⟨g, hg, hfault⟩ := h.units r hr
    exact ⟨g, List.mem_append_left _ hg, hfault⟩
  · intro role hrole
    obtain ⟨g, hg, hkind⟩ := h.roles role hrole
    exact ⟨g, List.mem_append_left _ hg, hkind⟩

theorem Coherent.status (h : p.Coherent ous) (key : String) (s : MatchStatus) :
    (p.status key s).Coherent ous := ⟨h.units, h.roles⟩

theorem Coherent.addAccount (h : p.Coherent ous) (a : CanonicalAccount) :
    (p.addAccount a).Coherent ous := ⟨h.units, h.roles⟩

theorem Coherent.addOu (h : p.Coherent ous) (o : CanonicalOu) : (p.addOu o).Coherent ous :=
  ⟨h.units, h.roles⟩

/-- Reporting a reference with what is wrong with it keeps coherence. -/
theorem Coherent.reportOu (h : p.Coherent ous) {r m : String} {k : FindingKind}
    (hk : faultOf? (matchOu r ous) = some k) :
    (p.reportOu r (.fatal k r m)).Coherent ous := by
  unfold Pass.reportOu
  split
  · exact h
  · refine ⟨?_, (h.report _).roles⟩
    intro s hs
    rcases List.mem_cons.1 hs with rfl | hs
    · exact ⟨_, List.mem_append_right _ (List.mem_singleton_self _), rfl, rfl, hk⟩
    · exact (h.report _).units s hs

/-- Reporting a role keeps coherence. -/
theorem Coherent.reportRole (h : p.Coherent ous) (role : LegacyRole) (s m : String) :
    (p.reportRole role (.fatal .missingLegacyAccount s m)).Coherent ous := by
  unfold Pass.reportRole
  split
  · exact h
  · refine ⟨(h.report _).units, ?_⟩
    intro t ht
    rcases List.mem_cons.1 ht with rfl | ht
    · exact ⟨_, List.mem_append_right _ (List.mem_singleton_self _), rfl, rfl⟩
    · exact (h.report _).roles t ht

/-- Reporting a reference has to be tolerated, whether it was reported before or not: what was
said before was the same. -/
theorem Coherent.admits_reportOu (h : p.Coherent ous) {r m : String} {k : FindingKind}
    (hk : faultOf? (matchOu r ous) = some k) :
    (p.reportOu r (.fatal k r m)).Admits Q ↔ p.Admits Q ∧ Q k r := by
  unfold Pass.reportOu
  split
  · rename_i hr
    refine ⟨fun hp => ⟨hp, ?_⟩, And.left⟩
    obtain ⟨f, hf, hfatal, rfl, hfault⟩ := h.units r (List.contains_iff_mem.1 hr)
    have hkind : f.kind = k := Option.some.inj (hfault.symm.trans hk)
    exact hkind ▸ hp f hf hfatal
  · exact admits_report_fatal

/-- Reporting a role is never tolerated, whether it was reported before or not. -/
theorem Coherent.not_admits_reportRole (h : p.Coherent ous)
    (hQ : ∀ s, ¬ Q .missingLegacyAccount s) (role : LegacyRole) (s m : String) :
    ¬ (p.reportRole role (.fatal .missingLegacyAccount s m)).Admits Q := by
  unfold Pass.reportRole
  split
  · rename_i hr
    intro hp
    obtain ⟨f, hf, hfatal, hkind⟩ := h.roles role (List.contains_iff_mem.1 hr)
    exact hQ f.subject (hkind ▸ hp f hf hfatal)
  · intro hp
    exact hQ s (admits_report_fatal.1 hp).2

end Pass

/-! ### Records -/

/-- The canonical records that a pass has collected. -/
def Pass.records (p : Pass) : List CanonicalAccount × List CanonicalOu := (p.accounts, p.ous)

/-- What is read off a pass does not depend on what the pass has reported. -/
def Pass.KeptByReports {β : Type} (field : Pass → β) : Prop :=
  ∀ (p : Pass) (findings : List Finding) (reportedOus : List String)
    (reportedRoles : List LegacyRole),
    field { p with findings, reportedOus, reportedRoles } = field p

namespace Pass

section

variable {β : Type} {field : Pass → β}

theorem KeptByReports.report (h : KeptByReports field) (p : Pass) (f : Finding) :
    field (p.report f) = field p := h p _ _ _

theorem KeptByReports.foldl_report (h : KeptByReports field) (fs : List Finding) (p : Pass) :
    field (fs.foldl Pass.report p) = field p :=
  foldl_keeps (fun q => field q = field p) (fun q f hq => (h.report q f).trans hq) fs p rfl

theorem KeptByReports.reportOu (h : KeptByReports field) (p : Pass) (r : String) (f : Finding) :
    field (p.reportOu r f) = field p := by
  unfold Pass.reportOu
  split
  · rfl
  · exact h p _ _ _

theorem KeptByReports.reportRole (h : KeptByReports field) (p : Pass) (role : LegacyRole)
    (f : Finding) : field (p.reportRole role f) = field p := by
  unfold Pass.reportRole
  split
  · rfl
  · exact h p _ _ _

end

/-- The records do not depend on what was reported. -/
theorem records_kept : KeptByReports records := fun _ _ _ _ => rfl

@[simp] theorem records_report (p : Pass) (f : Finding) : (p.report f).records = p.records := rfl

@[simp] theorem records_status (p : Pass) (key : String) (s : MatchStatus) :
    (p.status key s).records = p.records := rfl

@[simp] theorem records_addAccount (p : Pass) (a : CanonicalAccount) :
    (p.addAccount a).records = (p.records.1 ++ [a], p.records.2) := rfl

@[simp] theorem records_addOu (p : Pass) (o : CanonicalOu) :
    (p.addOu o).records = (p.records.1, p.records.2 ++ [o]) := rfl

@[simp] theorem records_reportOu (p : Pass) (r : String) (f : Finding) :
    (p.reportOu r f).records = p.records := records_kept.reportOu p r f

@[simp] theorem records_reportRole (p : Pass) (role : LegacyRole) (f : Finding) :
    (p.reportRole role f).records = p.records := records_kept.reportRole p role f

end Pass

/-! ### Walks -/

/-- A walk whose every step admits what one item admits, admits what all items admit. -/
theorem admits_foldl {α : Type} {step : Pass → α → Pass} (Inv : Pass → Prop) {Q : Tolerance}
    {Good : α → Prop} (hInv : ∀ p a, Inv p → Inv (step p a))
    (hstep : ∀ p a, Inv p → ((step p a).Admits Q ↔ p.Admits Q ∧ Good a))
    (as : List α) (p : Pass) (hp : Inv p) :
    (as.foldl step p).Admits Q ↔ p.Admits Q ∧ ∀ a ∈ as, Good a := by
  induction as generalizing p with
  | nil => simp
  | cons a as ih =>
    rw [List.foldl_cons, ih _ (hInv p a hp), hstep p a hp, List.forall_mem_cons, and_assoc]

end OrgAlign.Reconcile
