import OrgAlign.Proofs.Reconcile.Judgement

/-!
# What a pass remembers

A pass leaves a finding out when its unit reference or its role was reported before, so what it
remembers has to be just what it has reported. Main statements:

* `Pass.Ledger`: the findings about references and roles are those that are remembered, each once;
* `Pass.Advances`: what a stretch of a pass may do, with the references that it goes on to remember;
* `Pass.Advances.trans`, `Pass.Advances.foldl`: stretches one after the other, and along a list;
* `Pass.Advances.reportOu`, `Pass.Advances.reportRole`: a reference or a role is reported.
-/

namespace OrgAlign

/-! ### Findings about references and roles -/

/-- The two texts that say that no account has a role. -/
def LegacyRole.lacking (role : LegacyRole) : List String :=
  ["Could not find Landing Zone account of type \"" ++ role.name ++ "\"",
    "Cannot find Landing Zone account of type " ++ role.name ++ " in the configuration"]

/-- No text is about two roles. -/
theorem LegacyRole.eq_of_lacking {role other : LegacyRole} {m : String} (h : m ∈ role.lacking)
    (h' : m ∈ other.lacking) : role = other := by
  have hall : ∀ role ∈ LegacyRole.all, ∀ other ∈ LegacyRole.all, role ≠ other →
      ∀ m ∈ role.lacking, m ∉ other.lacking := by decide +kernel
  by_contra hne
  exact hall role role.mem_all other other.mem_all hne m h h'

namespace Finding

/-- The finding says that no account has a role. -/
def lacks (f : Finding) (role : LegacyRole) : Bool :=
  f.kind = .missingLegacyAccount && role.lacking.contains f.message

theorem lacks_iff {f : Finding} {role : LegacyRole} :
    f.lacks role = true ↔ f.kind = .missingLegacyAccount ∧ f.message ∈ role.lacking := by
  unfold lacks
  rw [Bool.and_eq_true, decide_eq_true_iff, List.contains_iff_mem]

/-- A finding is about one role. -/
theorem lacks_eq {f : Finding} {role : LegacyRole} (h : f.lacks role = true) (other : LegacyRole) :
    f.lacks other = decide (other = role) := by
  rw [Bool.eq_iff_iff, decide_eq_true_iff]
  constructor
  · intro hother
    exact LegacyRole.eq_of_lacking (lacks_iff.1 hother).2 (lacks_iff.1 h).2
  · rintro rfl
    exact h

/-- The subjects of the findings of a kind, in order. -/
def subjectsOf (k : FindingKind) (fs : List Finding) : List String :=
  (fs.filter (·.kind = k)).map subject

theorem mem_subjectsOf {k : FindingKind} {fs : List Finding} {s : String} :
    s ∈ subjectsOf k fs ↔ ∃ f ∈ fs, f.kind = k ∧ f.subject = s := by
  unfold subjectsOf
  simp only [List.mem_map, List.mem_filter, decide_eq_true_eq, and_assoc]

theorem subjectsOf_append (k : FindingKind) (fs : List Finding) (f : Finding) :
    subjectsOf k (fs ++ [f]) = subjectsOf k fs ++ if f.kind = k then [f.subject] else [] := by
  unfold subjectsOf
  rw [List.filter_append, List.map_append]
  by_cases h : f.kind = k <;> simp [h]

/-- The finding is neither about a reference that resolves to no unit or to several, nor about a
role that no account has. -/
structure Plain (f : Finding) : Prop where
  /-- It is not about a reference that resolves to nothing. -/
  missing : f.kind ≠ .missingOu
  /-- Nor about one that resolves to several units. -/
  ambiguous : f.kind ≠ .ambiguousOu
  /-- Nor about a role. -/
  lacks : ∀ role, f.lacks role = false

/-- Findings of most kinds are plain. -/
theorem Plain.of_kind {f : Finding}
    (h : f.kind ∉ [FindingKind.missingOu, .ambiguousOu, .missingLegacyAccount]) : f.Plain := by
  simp only [List.mem_cons, List.not_mem_nil, or_false, not_or] at h
  obtain ⟨hmissing, hambiguous, hrole⟩ := h
  refine ⟨hmissing, hambiguous, fun role => ?_⟩
  rw [← Bool.not_eq_true, lacks_iff]
  exact fun hboth => hrole hboth.1

theorem Plain.fatal {k : FindingKind} {s m : String}
    (h : k ∉ [FindingKind.missingOu, .ambiguousOu, .missingLegacyAccount]) :
    (Finding.fatal k s m).Plain := .of_kind h

theorem Plain.warning {k : FindingKind} {s m : String}
    (h : k ∉ [FindingKind.missingOu, .ambiguousOu, .missingLegacyAccount]) :
    (Finding.warning k s m).Plain := .of_kind h

/-- A finding about an account of the manifest that is not there is about no role. -/
theorem Plain.unnamed {s name : String} :
    (Finding.fatal .missingLegacyAccount s
      ("Cannot find non-primary account with name \"" ++ name ++
      "\" that is used by Landing Zone")).Plain := by
  refine ⟨nofun, nofun, fun role => ?_⟩
  rw [← Bool.not_eq_true, lacks_iff]
  rintro ⟨-, hmem⟩
  -- the texts differ from the thirteenth character on at the latest
  rcases List.mem_cons.1 hmem with h | hmem
  · have hstart := congrArg (fun text => text.toList.take 13) h
    simp [Finding.fatal, String.toList_append] at hstart
  · have hstart := congrArg (fun text => text.toList.take 13) (List.mem_singleton.1 hmem)
    simp [Finding.fatal, String.toList_append] at hstart

end Finding

namespace Reconcile

open Config Org Finding

/-! ### The ledger -/

/-- A reference is unresolved: it resolves to no unit, or to several. -/
def Unresolved (ous : List LiveOu) (r : String) : Prop := ∃ k, faultOf? (matchOu r ous) = some k

namespace Pass

/-- What a pass remembers is what it has reported: its findings about references are those
remembered, in order, each with what is wrong with it, and it has one fatal finding for each role
remembered. -/
structure Ledger (ous : List LiveOu) (p : Pass) : Prop where
  /-- No reference is remembered twice. -/
  once : p.reportedOus.Nodup
  /-- The findings about references are those remembered. -/
  units : ∀ k, k = .missingOu ∨ k = .ambiguousOu → subjectsOf k p.findings =
    p.reportedOus.reverse.filter fun r => faultOf? (matchOu r ous) = some k
  /-- No role is remembered twice. -/
  rolesOnce : p.reportedRoles.Nodup
  /-- There is one finding for each role remembered. -/
  roles : ∀ role, p.findings.countP (·.lacks role) = p.reportedRoles.count role
  /-- Findings about roles are fatal. -/
  fatal : ∀ role, ∀ f ∈ p.findings, f.lacks role = true → f.isFatal = true

namespace Ledger

variable {ous : List LiveOu} {p : Pass}

/-- A pass that remembers nothing and has plain findings only. -/
theorem of_fresh (hous : p.reportedOus = []) (hroles : p.reportedRoles = [])
    (hplain : ∀ f ∈ p.findings, f.Plain) : p.Ledger ous := by
  refine ⟨by simp [hous], ?_, by simp [hroles], ?_, ?_⟩
  · rintro k hk
    rw [hous, List.reverse_nil, List.filter_nil, List.eq_nil_iff_forall_not_mem]
    intro s hs
    obtain ⟨f, hf, rfl, -⟩ := mem_subjectsOf.1 hs
    exact hk.elim (hplain f hf).missing (hplain f hf).ambiguous
  · intro role
    rw [hroles, List.count_nil, List.countP_eq_zero]
    intro f hf
    rw [(hplain f hf).lacks role]
    exact Bool.false_ne_true
  · intro role f hf hlacks
    rw [(hplain f hf).lacks role] at hlacks
    cases hlacks

/-- A plain finding changes nothing that is remembered. -/
theorem report (h : p.Ledger ous) {f : Finding} (hf : f.Plain) : (p.report f).Ledger ous := by
  refine ⟨h.once, fun k hk => ?_, h.rolesOnce, fun role => ?_, fun role g hg hlacks => ?_⟩
  · have hother : f.kind ≠ k := by
      rcases hk with rfl | rfl
      · exact hf.missing
      · exact hf.ambiguous
    change subjectsOf k (p.findings ++ [f]) = _
    rw [subjectsOf_append, if_neg hother, List.append_nil]
    exact h.units k hk
  · change (p.findings ++ [f]).countP _ = _
    rw [List.countP_append, h.roles role]
    simp [hf.lacks role, Pass.report]
  · rcases List.mem_append.1 hg with hg | hg
    · exact h.fatal role g hg hlacks
    · rw [List.mem_singleton.1 hg, hf.lacks role] at hlacks
      cases hlacks

/-- A reference that is reported with what is wrong with it is remembered. -/
theorem reportOu (h : p.Ledger ous) {r m : String} {k : FindingKind}
    (hk : faultOf? (matchOu r ous) = some k) : (p.reportOu r (.fatal k r m)).Ledger ous := by
  unfold Pass.reportOu
  split
  · exact h
  rename_i hnew
  have hnot : k ≠ .missingLegacyAccount := by
    rintro rfl
    cases hmatch : matchOu r ous <;> rw [hmatch] at hk <;> cases hk
  have hlacks : ∀ role, (Finding.fatal k r m).lacks role = false := fun role => by
    rw [← Bool.not_eq_true, lacks_iff]
    exact fun hboth => hnot hboth.1
  refine ⟨List.nodup_cons.2 ⟨fun hr => hnew (List.contains_iff_mem.2 hr), h.once⟩, fun l hl => ?_,
    h.rolesOnce, fun role => ?_, fun role g hg hgl => ?_⟩
  · change subjectsOf l (p.findings ++ [Finding.fatal k r m]) =
      (r :: p.reportedOus).reverse.filter fun r => faultOf? (matchOu r ous) = some l
    rw [subjectsOf_append, h.units l hl, List.reverse_cons, List.filter_append]
    refine congrArg _ ?_
    by_cases hsame : k = l
    · simp [Finding.fatal, hsame, hsame ▸ hk]
    · simp [Finding.fatal, hsame, hk]
  · change (p.findings ++ [Finding.fatal k r m]).countP _ = _
    rw [List.countP_append, h.roles role]
    simp [hlacks role, Pass.report]
  · rcases List.mem_append.1 hg with hg | hg
    · exact h.fatal role g hg hgl
    · rw [List.mem_singleton.1 hg, hlacks role] at hgl
      cases hgl

/-- So is a role that no account has. -/
theorem reportRole (h : p.Ledger ous) {role : LegacyRole} {f : Finding} (hf : f.lacks role = true)
    (hfatal : f.isFatal = true) : (p.reportRole role f).Ledger ous := by
  unfold Pass.reportRole
  split
  · exact h
  rename_i hnew
  have hkind := (lacks_iff.1 hf).1
  refine ⟨h.once, fun k hk => ?_, ?_, fun other => ?_, fun other g hg hgl => ?_⟩
  · have hother : f.kind ≠ k := by
      rw [hkind]
      rcases hk with rfl | rfl <;> exact nofun
    change subjectsOf k (p.findings ++ [f]) = _
    rw [subjectsOf_append, if_neg hother, List.append_nil]
    exact h.units k hk
  · exact List.nodup_cons.2 ⟨fun hr => hnew (List.contains_iff_mem.2 hr), h.rolesOnce⟩
  · change (p.findings ++ [f]).countP _ = (role :: p.reportedRoles).count other
    rw [List.countP_append, h.roles other, List.countP_singleton, lacks_eq hf, List.count_cons]
    by_cases hsame : other = role
    · simp [hsame]
    · simp [hsame, Ne.symm hsame]
  · rcases List.mem_append.1 hg with hg | hg
    · exact h.fatal other g hg hgl
    · rw [List.mem_singleton.1 hg]
      exact hfatal

end Ledger

/-! ### Stretches of a pass -/

/-- What a stretch of a pass may do, from `p` to `q`: it takes nothing back, goes on to remember the
references of `R`, and what it remembers is what it reported. -/
structure Advances (ous : List LiveOu) (R : String → Prop) (p q : Pass) : Prop where
  /-- No finding is taken back. -/
  findings : p.findings ⊆ q.findings
  /-- Beside the references remembered before, those of `R` are. -/
  marks : ∀ r, r ∈ q.reportedOus ↔ r ∈ p.reportedOus ∨ R r
  /-- No role is forgotten. -/
  roles : p.reportedRoles ⊆ q.reportedRoles
  /-- Whatever is remembered still has a fatal finding. -/
  coherent : p.Coherent ous → q.Coherent ous
  /-- What is remembered is still what was reported. -/
  ledger : p.Ledger ous → q.Ledger ous

/-- A stretch of a pass that goes on to remember no reference. -/
abbrev Continues (ous : List LiveOu) (p q : Pass) : Prop := Advances ous (fun _ => False) p q

namespace Advances

variable {ous : List LiveOu} {R S : String → Prop} {p q s : Pass}

/-- Where the references remembered stay, none is added. -/
theorem marks_of_eq (h : q.reportedOus = p.reportedOus) (r : String) :
    r ∈ q.reportedOus ↔ r ∈ p.reportedOus ∨ False := by rw [h, or_false]

theorem refl (p : Pass) : Continues ous p p :=
  ⟨List.Subset.refl _, marks_of_eq rfl, List.Subset.refl _, id, id⟩

theorem congr (h : Advances ous R p q) (hRS : ∀ r, R r ↔ S r) : Advances ous S p q :=
  ⟨h.findings, fun r => (h.marks r).trans (or_congr_right (hRS r)), h.roles, h.coherent, h.ledger⟩

theorem trans (h : Advances ous R p q) (h' : Advances ous S q s) :
    Advances ous (fun r => R r ∨ S r) p s := by
  refine ⟨List.Subset.trans h.findings h'.findings, fun r => ?_,
    List.Subset.trans h.roles h'.roles, fun hp => h'.coherent (h.coherent hp),
    fun hp => h'.ledger (h.ledger hp)⟩
  rw [h'.marks, h.marks, or_assoc]

/-- A stretch is what it is with one before it that remembers nothing. -/
theorem after (h : Advances ous R q s) (h' : Continues ous p q) : Advances ous R p s :=
  (h'.trans h).congr fun r => by rw [false_or]

/-- A stretch is what it is with one after it that remembers nothing. -/
theorem before (h : Advances ous R p q) (h' : Continues ous q s) : Advances ous R p s :=
  (h.trans h').congr fun r => by rw [or_false]

/-- Along a list, a pass goes on to remember the references of all items. -/
theorem foldl {α : Type} {step : Pass → α → Pass} {R : α → String → Prop} {as : List α}
    (h : ∀ p, ∀ a ∈ as, Advances ous (R a) p (step p a)) (p : Pass) :
    Advances ous (fun r => ∃ a ∈ as, R a r) p (as.foldl step p) := by
  induction as generalizing p with
  | nil => exact (refl p).congr fun r => by simp
  | cons a as ih =>
    have hrest := ih (fun p b hb => h p b (List.mem_cons_of_mem a hb)) (step p a)
    refine ((h p a List.mem_cons_self).trans hrest).congr fun r => ?_
    simp only [List.mem_cons, exists_eq_or_imp]

/-- So it remembers nothing if no item makes it. -/
theorem foldl_continues {α : Type} {step : Pass → α → Pass} (as : List α)
    (h : ∀ p a, Continues ous p (step p a)) (p : Pass) : Continues ous p (as.foldl step p) :=
  (foldl (fun p a _ => h p a) p).congr fun r => by simp

/-! ### What a pass may do at once -/

theorem status (p : Pass) (key : String) (s : MatchStatus) : Continues ous p (p.status key s) :=
  ⟨List.Subset.refl _, marks_of_eq rfl, List.Subset.refl _, fun h => h.status key s,
    fun h => ⟨h.once, h.units, h.rolesOnce, h.roles, h.fatal⟩⟩

theorem addAccount (p : Pass) (a : CanonicalAccount) : Continues ous p (p.addAccount a) :=
  ⟨List.Subset.refl _, marks_of_eq rfl, List.Subset.refl _, fun h => h.addAccount a,
    fun h => ⟨h.once, h.units, h.rolesOnce, h.roles, h.fatal⟩⟩

theorem addOu (p : Pass) (o : CanonicalOu) : Continues ous p (p.addOu o) :=
  ⟨List.Subset.refl _, marks_of_eq rfl, List.Subset.refl _, fun h => h.addOu o,
    fun h => ⟨h.once, h.units, h.rolesOnce, h.roles, h.fatal⟩⟩

theorem report (p : Pass) {f : Finding} (hf : f.Plain) : Continues ous p (p.report f) :=
  ⟨List.subset_append_left _ _, marks_of_eq rfl, List.Subset.refl _, fun h => h.report f,
    fun h => h.report hf⟩

/-- A reference that is reported with what is wrong with it is remembered. -/
theorem reportOu (p : Pass) {r m : String} {k : FindingKind}
    (hk : faultOf? (matchOu r ous) = some k) :
    Advances ous (fun s => r = s) p (p.reportOu r (.fatal k r m)) := by
  refine ⟨?_, fun s => ?_, ?_, fun h => h.reportOu hk, fun h => h.reportOu hk⟩
  · unfold Pass.reportOu
    split
    · exact List.Subset.refl _
    · exact List.subset_append_left _ _
  · unfold Pass.reportOu
    split
    · rename_i hr
      refine ⟨.inl, fun hs => hs.elim id fun heq => ?_⟩
      exact heq ▸ List.contains_iff_mem.1 hr
    · rw [List.mem_cons, or_comm, eq_comm]
  · unfold Pass.reportOu
    split <;> exact List.Subset.refl _

/-- A role that no account has is reported. -/
theorem reportRole (p : Pass) {role : LegacyRole} {s m : String} (hm : m ∈ role.lacking) :
    Continues ous p (p.reportRole role (.fatal .missingLegacyAccount s m)) := by
  have hlacks : (Finding.fatal .missingLegacyAccount s m).lacks role = true :=
    lacks_iff.2 ⟨rfl, hm⟩
  refine ⟨?_, fun r => ?_, ?_, fun h => h.reportRole role s m, fun h => h.reportRole hlacks rfl⟩
  · unfold Pass.reportRole
    split
    · exact List.Subset.refl _
    · exact List.subset_append_left _ _
  · unfold Pass.reportRole
    rw [or_false]
    split <;> rfl
  · unfold Pass.reportRole
    split
    · exact List.Subset.refl _
    · exact List.subset_cons_self _ _

/-- A role that no account has is reported. -/
theorem missingRole (p : Pass) (role : LegacyRole) (s : String) :
    Continues ous p (p.missingRole role s) := reportRole p List.mem_cons_self

end Advances

/-- A role that was reported is remembered. -/
theorem mem_reportedRoles_missingRole (p : Pass) (role : LegacyRole) (s : String) :
    role ∈ (p.missingRole role s).reportedRoles := by
  unfold Pass.missingRole Pass.reportRole
  split
  · rename_i hr
    exact List.contains_iff_mem.1 hr
  · exact List.mem_cons_self

end Pass

end Reconcile
end OrgAlign
