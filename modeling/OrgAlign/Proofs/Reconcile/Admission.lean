import OrgAlign.Proofs.Reconcile.Steps

/-!
# Every item on its own

Units, accounts, policy counts and the manifest, each judged apart from the pass that meets them.
Each has its record, if it gets one, and its own condition of being tolerated by `Q`. Main
statements:

* `duplicateEmails_eq_nil`: nothing is said about shared addresses iff no two accounts share one;
* `unitAdmits_nothing`, `accountRecord?_isSome_iff`: a unit or an account gets a record iff nothing
  fatal is to be said about it;
* `reconcileOu_admits`, `reconcileAccount_admits`, `checkLimit_admits`, `checkCoreOu_admits`,
  `checkRole_admits`: a step of the pass admits what its item admits.
-/

namespace OrgAlign.Reconcile

open Config Org

/-! ### E-mail addresses -/

/-- The address of a declared account in canonical form. -/
def address (d : Declared) : String := Text.lower d.entry.email

/-- Nothing is said about shared addresses iff the accounts' addresses are distinct and none was
seen before. -/
theorem duplicatesFrom_eq_nil {seen : List (String × String)} {ds : List Declared} :
    duplicatesFrom seen ds = [] ↔
      (ds.map address).Nodup ∧ ∀ d ∈ ds, address d ∉ seen.map Prod.fst := by
  induction ds generalizing seen with
  | nil => simp [duplicatesFrom]
  | cons d ds ih =>
    cases hseen : seen.find? (·.1 == Text.lower d.entry.email) with
    | some first =>
      -- the address was seen
      have hfirst := List.find?_some hseen
      have hmem : address d ∈ seen.map Prod.fst :=
        List.mem_map.2 ⟨first, List.mem_of_find?_eq_some hseen, beq_iff_eq.1 hfirst⟩
      simp only [duplicatesFrom, hseen, reduceCtorEq, false_iff, not_and]
      exact fun _ h => h d List.mem_cons_self hmem
    | none =>
      have hnew : address d ∉ seen.map Prod.fst := by
        intro hmem
        obtain ⟨e, he, heq⟩ := List.mem_map.1 hmem
        exact List.find?_eq_none.1 hseen e he (beq_iff_eq.2 heq)
      simp only [duplicatesFrom, hseen, ih, List.map_cons, List.nodup_cons, List.map_append,
        List.map_nil, List.mem_append, List.mem_singleton, List.forall_mem_cons]
      constructor
      · rintro ⟨hnodup, h⟩
        refine ⟨⟨?_, hnodup⟩, hnew, fun e he hmem => h e he (.inl hmem)⟩
        intro hmem
        obtain ⟨e, he, heq⟩ := List.mem_map.1 hmem
        exact h e he (.inr heq)
      · rintro ⟨⟨hd, hnodup⟩, -, h⟩
        refine ⟨hnodup, ?_⟩
        rintro e he (hmem | heq)
        · exact h e he hmem
        · exact hd (List.mem_map.2 ⟨e, he, heq⟩)

/-- Nothing is said about shared addresses iff no two active accounts share one. -/
theorem duplicateEmails_eq_nil {c : Configuration} :
    duplicateEmails c = [] ↔ (c.accounts.map address).Nodup := by
  unfold duplicateEmails
  rw [duplicatesFrom_eq_nil]
  simp

/-- All that is said about shared addresses is fatal. -/
theorem fatal_of_mem_duplicatesFrom {seen : List (String × String)} {ds : List Declared}
    {f : Finding} (h : f ∈ duplicatesFrom seen ds) :
    f.isFatal = true ∧ f.kind = .duplicateEmail := by
  induction ds generalizing seen with
  | nil => exact absurd h (List.not_mem_nil)
  | cons d ds ih =>
    simp only [duplicatesFrom] at h
    split at h
    · rcases List.mem_cons.1 h with rfl | h
      · exact ⟨rfl, rfl⟩
      · exact ih h
    · exact ih h

/-! ### Units -/

/-- The canonical record of a declared reference, if it resolves. -/
def unitRecord? (ous : List LiveOu) (reference : String) : Option CanonicalOu :=
  (matchOu reference ous).ou?.map fun ou => ⟨ou.id, ou.name, reference, ou.path⟩

/-- What is wrong with a reference is tolerated. -/
def UnitAdmits (Q : Tolerance) (ous : List LiveOu) (reference : String) : Prop :=
  ∀ k, faultOf? (matchOu reference ous) = some k → Q k reference

/-- Looking at a unit adds its record. -/
theorem reconcileOu_records (t : OrgTree) (p : Pass) (r : String) :
    (reconcileOu t p r).records =
      (p.records.1, p.records.2 ++ (unitRecord? t.ous r).toList) := by
  cases h : matchOu r t.ous <;>
    simp [reconcileOu, unitRecord?, h, OuMatch.ou?, Pass.ambiguousOu, Pass.missingOu]

/-- Looking at a unit admits what the unit admits. -/
theorem reconcileOu_admits {Q : Tolerance} {t : OrgTree} {p : Pass} (hp : p.Coherent t.ous)
    (r : String) : (reconcileOu t p r).Admits Q ↔ p.Admits Q ∧ UnitAdmits Q t.ous r := by
  unfold reconcileOu UnitAdmits
  split
  · rename_i h
    simp [h, faultOf?]
  · rename_i h
    unfold Pass.ambiguousOu
    rw [hp.admits_reportOu (by rw [h]; rfl), h]
    simp [faultOf?]
  · rename_i h
    unfold Pass.missingOu
    rw [hp.admits_reportOu (by rw [h]; rfl), h]
    simp [faultOf?]

/-- Nothing is wrong with a reference iff it resolves. -/
theorem unitAdmits_nothing {ous : List LiveOu} {r : String} :
    UnitAdmits nothing ous r ↔ ∃ ou, (matchOu r ous).ou? = some ou := by
  unfold UnitAdmits nothing
  cases matchOu r ous <;> simp [faultOf?, OuMatch.ou?]

/-! ### Accounts -/

/-- The live account is where and what its declaration says. A suspended one may be anywhere. -/
def conforms (d : Declared) (ou : LiveOu) (live : LiveAccount) : Bool :=
  live.isSuspended || (live.parent == ou.id && (isPrimary d || live.name == d.entry.name))

/-- The canonical record of a declared account, if nothing is wrong with it. -/
def accountRecord? (i : Input) (d : Declared) : Option CanonicalAccount :=
  if i.config.options.isIgnored (Path.topLevel d.entry.path) then none
  else (matchOu d.entry.path i.tree.ous).ou?.bind fun ou =>
    match matchAccount? d.entry.email i.tree.accounts with
    | none =>
      if (recorded? i.previous d.key).isNone && d.entry.role.isNone then some (canonical d none)
      else none
    | some live => if conforms d ou live then some (canonical d (some live.id)) else none

/-- What is wrong with an account that is not live is tolerated. A missing role never is. -/
def AbsentAdmits (Q : Tolerance) (i : Input) (d : Declared) : Prop :=
  d.entry.role = none ∧ ∀ before id, recorded? i.previous d.key = some (before, id) →
    Q (if (i.tree.accountById? id).isSome then .renamedAccount else .staleAccountRecord) d.key

/-- What is wrong with a live account is tolerated. -/
def PresentAdmits (Q : Tolerance) (d : Declared) (ou : LiveOu) (live : LiveAccount) : Prop :=
  live.isSuspended = true ∨
    (live.parent ≠ ou.id ∧ Q .ouMembershipMismatch d.key) ∨
    (live.parent = ou.id ∧
      (isPrimary d = true ∨ live.name = d.entry.name ∨ Q .nameMismatch d.key))

/-- What is wrong with a declared account is tolerated. -/
def AccountAdmits (Q : Tolerance) (i : Input) (d : Declared) : Prop :=
  if i.config.options.isIgnored (Path.topLevel d.entry.path) then Q .ignoredOuAccount d.key
  else match matchOu d.entry.path i.tree.ous with
  | .ambiguous _ => Q .ambiguousOu d.entry.path
  | .notFound => Q .missingOu d.entry.path
  | .found ou _ =>
    match matchAccount? d.entry.email i.tree.accounts with
    | none => AbsentAdmits Q i d
    | some live => PresentAdmits Q d ou live

/-- Looking at an account that is not live adds its record. -/
theorem reconcileAbsent_records (i : Input) (p : Pass) (d : Declared) :
    (reconcileAbsent i p d).records = (p.records.1 ++
      (if (recorded? i.previous d.key).isNone && d.entry.role.isNone then some (canonical d none)
        else none).toList, p.records.2) := by
  cases hrec : recorded? i.previous d.key with
  | none =>
    cases hrole : d.entry.role <;> simp [reconcileAbsent, hrec, hrole, Pass.missingRole]
  | some found =>
    cases hid : i.tree.accountById? found.2 <;> cases hrole : d.entry.role <;>
      simp [reconcileAbsent, hrec, hid, hrole, Pass.missingRole]

/-- Looking at a live account adds its record. -/
theorem reconcilePresent_records (p : Pass) (d : Declared) (ou : LiveOu) (live : LiveAccount) :
    (reconcilePresent p d ou live).records = (p.records.1 ++
      (if conforms d ou live then some (canonical d (some live.id)) else none).toList,
      p.records.2) := by
  unfold reconcilePresent conforms
  cases hs : live.isSuspended
  · by_cases hparent : live.parent = ou.id
    · by_cases hp : isPrimary d = true <;> by_cases hn : live.name = d.entry.name <;>
        simp [hparent, hp, hn]
    · simp [hparent]
  · simp

/-- Looking at a declared account adds its record. -/
theorem reconcileAccount_records (i : Input) (p : Pass) (d : Declared) :
    (reconcileAccount i p d).records =
      (p.records.1 ++ (accountRecord? i d).toList, p.records.2) := by
  by_cases hig : i.config.options.isIgnored (Path.topLevel d.entry.path) = true
  · simp [reconcileAccount, accountRecord?, hig]
  · cases hou : matchOu d.entry.path i.tree.ous with
    | found ou s =>
      cases hlive : matchAccount? d.entry.email i.tree.accounts with
      | none =>
        simp [reconcileAccount, accountRecord?, hig, hou, hlive, OuMatch.ou?,
          reconcileAbsent_records]
      | some live =>
        simp [reconcileAccount, accountRecord?, hig, hou, hlive, OuMatch.ou?,
          reconcilePresent_records]
    | ambiguous candidates =>
      simp [reconcileAccount, accountRecord?, hig, hou, OuMatch.ou?, Pass.ambiguousOu]
    | notFound => simp [reconcileAccount, accountRecord?, hig, hou, OuMatch.ou?, Pass.missingOu]

/-- Looking at an account that is not live admits what the account admits. -/
theorem reconcileAbsent_admits {Q : Tolerance} (hQ : ∀ s, ¬ Q .missingLegacyAccount s)
    {i : Input} {p : Pass} (hp : p.Coherent i.tree.ous) (d : Declared) :
    (reconcileAbsent i p d).Admits Q ↔ p.Admits Q ∧ AbsentAdmits Q i d := by
  unfold AbsentAdmits
  cases hrec : recorded? i.previous d.key with
  | none =>
    cases hrole : d.entry.role with
    | none => simp [reconcileAbsent, hrec, hrole]
    | some role =>
      have := (hp.status d.key .missingInOrg).not_admits_reportRole hQ role d.key
      simp [reconcileAbsent, hrec, hrole, Pass.missingRole, this]
  | some found =>
    obtain ⟨before, id⟩ := found
    cases hrole : d.entry.role with
    | none => cases hid : i.tree.accountById? id <;> simp [reconcileAbsent, hrec, hid, hrole]
    | some role =>
      -- the role is reported whatever became of the account
      have hbad : ∀ q : Pass, q.Coherent i.tree.ous → ¬ (q.missingRole role d.key).Admits Q :=
        fun q hq => hq.not_admits_reportRole hQ role _ _
      simp only [reconcileAbsent, hrec, hrole, reduceCtorEq, false_and, and_false, iff_false]
      split
      · exact hbad _ ((hp.report _).status _ _)
      · exact hbad _ ((hp.report _).status _ _)

/-- Looking at a live account admits what the account admits. -/
theorem reconcilePresent_admits {Q : Tolerance} {p : Pass} (d : Declared) (ou : LiveOu)
    (live : LiveAccount) :
    (reconcilePresent p d ou live).Admits Q ↔ p.Admits Q ∧ PresentAdmits Q d ou live := by
  unfold reconcilePresent PresentAdmits
  cases hs : live.isSuspended
  · by_cases hparent : live.parent = ou.id
    · by_cases hp : isPrimary d = true <;> by_cases hn : live.name = d.entry.name <;>
        simp [hparent, hp, hn]
    · simp [hparent]
  · simp

/-- Looking at a declared account admits what the account admits. -/
theorem reconcileAccount_admits {Q : Tolerance} (hQ : ∀ s, ¬ Q .missingLegacyAccount s)
    {i : Input} {p : Pass} (hp : p.Coherent i.tree.ous) (d : Declared) :
    (reconcileAccount i p d).Admits Q ↔ p.Admits Q ∧ AccountAdmits Q i d := by
  by_cases hig : i.config.options.isIgnored (Path.topLevel d.entry.path) = true
  · simp [reconcileAccount, AccountAdmits, hig]
  · cases hou : matchOu d.entry.path i.tree.ous with
    | found ou s =>
      cases hlive : matchAccount? d.entry.email i.tree.accounts with
      | none =>
        simp [reconcileAccount, AccountAdmits, hig, hou, hlive, reconcileAbsent_admits hQ hp]
      | some live =>
        simp [reconcileAccount, AccountAdmits, hig, hou, hlive, reconcilePresent_admits]
    | ambiguous candidates =>
      have h : ∀ m, (p.reportOu d.entry.path (.fatal .ambiguousOu d.entry.path m)).Admits Q ↔ _ :=
        fun m => hp.admits_reportOu (m := m) (by rw [hou]; rfl)
      simp [reconcileAccount, AccountAdmits, hig, hou, Pass.ambiguousOu, h]
    | notFound =>
      have h : ∀ m, (p.reportOu d.entry.path (.fatal .missingOu d.entry.path m)).Admits Q ↔ _ :=
        fun m => hp.admits_reportOu (m := m) (by rw [hou]; rfl)
      simp [reconcileAccount, AccountAdmits, hig, hou, Pass.missingOu, h]

/-- Nothing is wrong with an account iff it gets a record. -/
theorem accountRecord?_isSome_iff {i : Input} {d : Declared} :
    (accountRecord? i d).isSome = true ↔ AccountAdmits nothing i d := by
  by_cases hig : i.config.options.isIgnored (Path.topLevel d.entry.path) = true
  · simp [accountRecord?, AccountAdmits, hig, nothing]
  · cases hou : matchOu d.entry.path i.tree.ous with
    | found ou s =>
      cases hlive : matchAccount? d.entry.email i.tree.accounts with
      | none =>
        rcases hrec : recorded? i.previous d.key with _ | ⟨before, id⟩ <;>
          cases hrole : d.entry.role <;>
          simp [accountRecord?, AccountAdmits, AbsentAdmits, hig, hou, hlive, hrec, hrole,
            OuMatch.ou?, nothing]
      | some live =>
        simp [accountRecord?, AccountAdmits, PresentAdmits, conforms, hig, hou, hlive, OuMatch.ou?,
          nothing]
    | ambiguous candidates => simp [accountRecord?, AccountAdmits, hig, hou, OuMatch.ou?, nothing]
    | notFound => simp [accountRecord?, AccountAdmits, hig, hou, OuMatch.ou?, nothing]

/-- An account in an ignored unit is tolerated only as that. -/
theorem AccountAdmits.not_ignored {Q : Tolerance} {i : Input} {d : Declared}
    (h : AccountAdmits Q i d) (hQ : ¬ Q .ignoredOuAccount d.key) :
    i.config.options.isIgnored (Path.topLevel d.entry.path) = false := by
  rw [← Bool.not_eq_true]
  intro hignored
  unfold AccountAdmits at h
  rw [if_pos hignored] at h
  exact hQ h

/-- The path of an account that nothing is wrong with stands for a unit. -/
theorem AccountAdmits.resolves {i : Input} {d : Declared} (h : AccountAdmits nothing i d) :
    ∃ ou, StandsFor i.tree.ous d.entry.path ou := by
  have hignored := h.not_ignored id
  unfold AccountAdmits at h
  rw [hignored, if_neg Bool.false_ne_true] at h
  cases hmatch : matchOu d.entry.path i.tree.ous with
  | found ou s => exact ⟨ou, ou?_matchOu_eq_some.1 (ou?_eq_some.2 ⟨s, hmatch⟩)⟩
  | ambiguous candidates =>
    rw [hmatch] at h
    exact h.elim
  | notFound =>
    rw [hmatch] at h
    exact h.elim

/-- An account whose unit is known, and that is in no ignored one, is judged by what its address
leads to. -/
theorem accountAdmits_iff {Q : Tolerance} {i : Input} {d : Declared} {ou : LiveOu}
    (hignored : i.config.options.isIgnored (Path.topLevel d.entry.path) = false)
    (hou : StandsFor i.tree.ous d.entry.path ou) :
    AccountAdmits Q i d ↔
      (matchAccount? d.entry.email i.tree.accounts = none → AbsentAdmits Q i d) ∧
      ∀ live, matchAccount? d.entry.email i.tree.accounts = some live →
        PresentAdmits Q d ou live := by
  obtain ⟨strategy, hfound⟩ := ou?_eq_some.1 (ou?_matchOu_eq_some.2 hou)
  unfold AccountAdmits
  rw [if_neg (by rw [hignored]; exact Bool.false_ne_true), hfound]
  cases matchAccount? d.entry.email i.tree.accounts with
  | none => simp
  | some live => simp

/-- An account that is not live is as it should be iff it has no role and no identifier was recorded
for it. -/
theorem absentAdmits_iff {Q : Tolerance} {i : Input} {d : Declared}
    (hrenamed : ¬ Q .renamedAccount d.key) (hstale : ¬ Q .staleAccountRecord d.key) :
    AbsentAdmits Q i d ↔ d.entry.role = none ∧ recorded? i.previous d.key = none := by
  unfold AbsentAdmits
  refine and_congr_right fun _ => ?_
  rw [Option.eq_none_iff_forall_not_mem]
  constructor
  · rintro h ⟨before, id⟩ hrec
    have hbad := h before id hrec
    split at hbad
    · exact hrenamed hbad
    · exact hstale hbad
  · exact fun h before id hrec => absurd hrec (h (before, id))

/-! ### Policy limits -/

/-- A target carries no more policies than allowed, its declared ones counted in. One whose
policies cannot be listed is passed over. -/
def WithinLimit (g : GlobalOptions) (o : Organization) (id : String) (scps : List String) : Prop :=
  ∀ attached, o.policiesFor id = .ok attached →
    (attached.filter (countsAgainstLimit g)).length + scps.length ≤ policyLimit

/-- How many policies a target carries follows from the policies and from what is made to fail. -/
theorem withinLimit_congr {g : GlobalOptions} {o o' : Organization}
    (hpolicies : o'.snapshot.policies = o.snapshot.policies) (hfailing : o'.failing = o.failing)
    {id : String} {scps : List String} : WithinLimit g o' id scps ↔ WithinLimit g o id scps := by
  unfold WithinLimit Organization.policiesFor Organization.unavailable?
  rw [hpolicies, hfailing]

/-- What is wrong with the policies of a target is tolerated. -/
def LimitAdmits (Q : Tolerance) (g : GlobalOptions) (o : Organization) (t : LimitTarget) : Prop :=
  WithinLimit g o t.id t.scps ∨ Q .policyLimitExceeded t.key

theorem Pass.KeptByReports.checkLimit {β : Type} {field : Pass → β} (h : KeptByReports field)
    (g : GlobalOptions) (o : Organization) (p : Pass) (t : LimitTarget) :
    field (checkLimit g o p t) = field p := by
  unfold Reconcile.checkLimit
  split
  · rfl
  · simp only
    split
    · exact h.report _ _
    · rfl

/-- Counting a target's policies admits what the target admits. -/
theorem checkLimit_admits {Q : Tolerance} {g : GlobalOptions} {o : Organization} {p : Pass}
    (t : LimitTarget) : (checkLimit g o p t).Admits Q ↔ p.Admits Q ∧ LimitAdmits Q g o t := by
  unfold LimitAdmits WithinLimit
  cases h : o.policiesFor t.id with
  | error e => simp [checkLimit, h]
  | ok attached =>
    by_cases hlimit :
        (attached.filter (countsAgainstLimit g)).length + t.scps.length ≤ policyLimit
    · simp [checkLimit, h, hlimit, Nat.not_lt.2 hlimit]
    · simp [checkLimit, h, hlimit, Nat.not_le.1 hlimit]

/-- What is counted follows from the records alone. -/
theorem limitTargets_congr {c : Configuration} {p q : Pass} (h : p.records = q.records) :
    limitTargets c p = limitTargets c q := by
  have haccounts : p.accounts = q.accounts := congrArg Prod.fst h
  have hous : p.ous = q.ous := congrArg Prod.snd h
  unfold limitTargets
  rw [hous, haccounts]

/-! ### The manifest -/

/-- What is wrong with a core account of a unit that is live is tolerated. A missing account never
is. -/
def CoreAdmits (Q : Tolerance) (tree : OrgTree) (accounts : List CanonicalAccount) (ou : CoreOu)
    (live : LiveOu) (core : CoreAccount) : Prop :=
  match core.role? with
  | none => Q .unknownLegacyAccountType core.name
  | some role =>
    (role = .primary ∨ (tree.accountsIn live.id).any (·.name == core.name) = true) ∧
      ∃ a, accounts.find? (·.role == some role) = some a ∧
        ∀ f ∈ compareCore role ou core a, Q f.kind f.subject

/-- What is wrong with the core accounts of a unit is tolerated. -/
def CoreOuAdmits (Q : Tolerance) (tree : OrgTree) (accounts : List CanonicalAccount)
    (ou : CoreOu) : Prop :=
  ou.accounts = [] ∨
    match matchOu ou.name tree.ous with
    | .found live _ => ∀ core ∈ ou.accounts, CoreAdmits Q tree accounts ou live core
    | .ambiguous _ => Q .ambiguousOu ou.name
    | .notFound => Q .legacyMismatch ou.name

/-- What the manifest has to say is tolerated. -/
structure ManifestAdmits (Q : Tolerance) (i : Input) (accounts : List CanonicalAccount)
    (m : Manifest) : Prop where
  /-- The configuration declares the manifest's units in order. -/
  names : i.config.ous.keys = m.ouNames ∨ Q .legacyMismatch ouListSubject
  /-- The organization has units of these names. -/
  live : (∀ name ∈ m.ouNames, name ∈ i.tree.ous.map LiveOu.name) ∨
    Q .legacyMismatch ouListSubject
  /-- Every unit's core accounts. -/
  units : ∀ ou ∈ m.ous, CoreOuAdmits Q i.tree accounts ou
  /-- Every role has a canonical account. -/
  roles : ∀ role ∈ LegacyRole.all, accounts.any (·.role == some role) = true

theorem Pass.KeptByReports.checkCore {β : Type} {field : Pass → β} (h : KeptByReports field)
    (t : OrgTree) (ou : CoreOu) (live : LiveOu) (p : Pass) (core : CoreAccount) :
    field (checkCore t ou live p core) = field p := by
  unfold Reconcile.checkCore
  split
  · exact h.report _ _
  split
  · exact h.report _ _
  split
  · exact h.reportRole _ _ _
  · exact h.foldl_report _ _

/-- Looking at a core account admits what the account admits. -/
theorem checkCore_admits {Q : Tolerance} (hQ : ∀ s, ¬ Q .missingLegacyAccount s)
    {ous : List LiveOu} {t : OrgTree} {ou : CoreOu} {live : LiveOu} {p : Pass}
    (hp : p.Coherent ous) (core : CoreAccount) :
    (checkCore t ou live p core).Admits Q ↔
      p.Admits Q ∧ CoreAdmits Q t p.accounts ou live core := by
  unfold CoreAdmits
  cases hrole : core.role? with
  | none => simp [checkCore, hrole]
  | some role =>
    by_cases hnamed : role = .primary ∨ (t.accountsIn live.id).any (·.name == core.name) = true
    · have hskip : ¬ (role ≠ .primary ∧
          (!(t.accountsIn live.id).any (·.name == core.name)) = true) := by
        rw [Bool.not_eq_true', ← Bool.not_eq_true]
        tauto
      simp only [checkCore, hrole, if_neg hskip, hnamed, true_and]
      cases ha : p.accounts.find? (·.role == some role) with
      | none =>
        simp only [reduceCtorEq, false_and, exists_false, and_false, iff_false]
        exact hp.not_admits_reportRole hQ role _ _
      | some a =>
        simp only [Option.some.injEq, exists_eq_left']
        rw [Pass.admits_foldl_report]
        refine and_congr_right fun _ => forall₂_congr fun f hf => ?_
        exact ⟨fun h => h (mem_compareCore hf).1, fun h _ => h⟩
    · have hskip : role ≠ .primary ∧
          (!(t.accountsIn live.id).any (·.name == core.name)) = true := by
        rw [Bool.not_eq_true', ← Bool.not_eq_true]
        tauto
      simp only [checkCore, hrole, if_pos hskip, hnamed, false_and, and_false, iff_false]
      exact fun h => hQ _ (Pass.admits_report_fatal.1 h).2

theorem Pass.KeptByReports.checkCoreOu {β : Type} {field : Pass → β} (h : KeptByReports field)
    (t : OrgTree) (p : Pass) (ou : CoreOu) : field (checkCoreOu t p ou) = field p := by
  unfold Reconcile.checkCoreOu
  split
  · rfl
  split
  · exact foldl_keeps (fun q => field q = field p)
      (fun q c hq => (h.checkCore t ou _ q c).trans hq) _ p rfl
  · exact h.reportOu _ _ _
  · exact h.report _ _

/-- Looking at a unit's core accounts admits what they admit. -/
theorem checkCoreOu_admits {Q : Tolerance} (hQ : ∀ s, ¬ Q .missingLegacyAccount s) {t : OrgTree}
    {p : Pass} (hp : p.Coherent t.ous) (ou : CoreOu) :
    (checkCoreOu t p ou).Admits Q ↔ p.Admits Q ∧ CoreOuAdmits Q t p.accounts ou := by
  unfold CoreOuAdmits
  by_cases hnone : ou.accounts = []
  · simp [checkCoreOu, hnone]
  cases hou : matchOu ou.name t.ous with
  | found live s =>
    simp only [checkCoreOu, hou, hnone, if_false, false_or]
    -- the accounts that the core accounts are compared with stay the same on the walk
    refine admits_foldl (fun q : Pass => q.Coherent t.ous ∧ q.accounts = p.accounts)
      (fun q c h => ⟨(checkCore_continues t.ous t ou live q c).coherent h.1,
        (congrArg Prod.fst (Pass.records_kept.checkCore _ _ _ q c)).trans h.2⟩)
      (fun q c h => ?_) _ p ⟨hp, rfl⟩
    rw [checkCore_admits hQ h.1, h.2]
  | ambiguous candidates =>
    simp only [checkCoreOu, hou, hnone, if_false, false_or]
    exact hp.admits_reportOu (by rw [hou]; rfl)
  | notFound => simp [checkCoreOu, hnone, hou]

theorem Pass.KeptByReports.checkRole {β : Type} {field : Pass → β} (h : KeptByReports field)
    (p : Pass) (role : LegacyRole) : field (checkRole p role) = field p := by
  unfold Reconcile.checkRole
  split
  · rfl
  · exact h.reportRole _ _ _

/-- Looking for a role admits that the role has an account. -/
theorem checkRole_admits {Q : Tolerance} (hQ : ∀ s, ¬ Q .missingLegacyAccount s)
    {ous : List LiveOu} {p : Pass} (hp : p.Coherent ous) (role : LegacyRole) :
    (checkRole p role).Admits Q ↔
      p.Admits Q ∧ p.accounts.any (·.role == some role) = true := by
  unfold checkRole
  split
  · rename_i h
    simp [h]
  · rename_i h
    simp only [h, Bool.false_eq_true, and_false, iff_false]
    exact hp.not_admits_reportRole hQ role _ _

end OrgAlign.Reconcile
