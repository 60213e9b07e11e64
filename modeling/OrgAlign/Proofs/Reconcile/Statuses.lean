import OrgAlign.Proofs.Reconcile.CleanPass

/-!
# How each account fares

A pass says of each active account how it fares, whatever it met before. Main statements:

* `reconcile_statuses`: the statuses are those of the accounts taken one by one, in order;
* `accountStatus_eq_matched_iff`: an account is matched iff its reference stands for a unit outside
  the ignored ones and its live account is where and what its declaration says.
-/

namespace OrgAlign.Reconcile

open Config Org

variable {i : Input} {d : Declared}

/-! ### One account -/

/-- How an account fares whose address no live account has. -/
def absentStatus (i : Input) (d : Declared) : MatchStatus :=
  match recorded? i.previous d.key with
  | some (_, id) => if (i.tree.accountById? id).isSome then .renamedDetected else .missingInOrg
  | none => .missingInOrg

/-- How a declared account fares. -/
def accountStatus (i : Input) (d : Declared) : MatchStatus :=
  if i.config.options.isIgnored (Path.topLevel d.entry.path) then .mismatched
  else match (matchOu d.entry.path i.tree.ous).ou? with
  | none => .mismatched
  | some ou =>
    match matchAccount? d.entry.email i.tree.accounts with
    | none => absentStatus i d
    | some live => if conforms d ou live then .matched else .mismatched

/-- An account that is not live is not matched. -/
theorem absentStatus_ne_matched : absentStatus i d ≠ .matched := by
  unfold absentStatus
  split
  · split
    · exact nofun
    · exact nofun
  · exact nofun

/-- **An account is matched iff** its reference stands for a unit outside the ignored ones and its
live account is where and what its declaration says, or suspended. -/
theorem accountStatus_eq_matched_iff : accountStatus i d = .matched ↔
    i.config.options.isIgnored (Path.topLevel d.entry.path) = false ∧
      ∃ ou live, StandsFor i.tree.ous d.entry.path ou ∧
        matchAccount? d.entry.email i.tree.accounts = some live ∧ conforms d ou live = true := by
  unfold accountStatus
  simp only [← ou?_matchOu_eq_some]
  constructor
  · intro h
    split at h
    · cases h
    rename_i hignored
    refine ⟨Bool.not_eq_true _ ▸ hignored, ?_⟩
    split at h
    · cases h
    rename_i ou hou
    split at h
    · exact absurd h absentStatus_ne_matched
    rename_i live hlive
    split at h
    · rename_i hconf
      exact ⟨ou, live, hou, hlive, hconf⟩
    · cases h
  · rintro ⟨hignored, ou, live, hou, hlive, hconf⟩
    rw [hignored, if_neg Bool.false_ne_true, hou]
    simp only [hlive, hconf, if_true]

/-! ### A step of the pass -/

namespace Pass

/-- What was said of the accounts does not depend on what was reported. -/
theorem statuses_kept : KeptByReports statuses := fun _ _ _ _ => rfl

@[simp] theorem statuses_report (p : Pass) (f : Finding) :
    (p.report f).statuses = p.statuses := rfl

@[simp] theorem statuses_status (p : Pass) (key : String) (s : MatchStatus) :
    (p.status key s).statuses = p.statuses ++ [(key, s)] := rfl

@[simp] theorem statuses_addAccount (p : Pass) (a : CanonicalAccount) :
    (p.addAccount a).statuses = p.statuses := rfl

@[simp] theorem statuses_addOu (p : Pass) (o : CanonicalOu) :
    (p.addOu o).statuses = p.statuses := rfl

@[simp] theorem statuses_reportOu (p : Pass) (r : String) (f : Finding) :
    (p.reportOu r f).statuses = p.statuses := statuses_kept.reportOu p r f

@[simp] theorem statuses_reportRole (p : Pass) (role : LegacyRole) (f : Finding) :
    (p.reportRole role f).statuses = p.statuses := statuses_kept.reportRole p role f

end Pass

/-- Looking at a unit says nothing of accounts. -/
theorem reconcileOu_statuses (t : OrgTree) (p : Pass) (r : String) :
    (reconcileOu t p r).statuses = p.statuses := by
  unfold reconcileOu
  split
  · rfl
  · exact Pass.statuses_reportOu _ _ _
  · exact Pass.statuses_reportOu _ _ _

/-- Looking at an account that is not live says how it fares. -/
theorem reconcileAbsent_statuses (p : Pass) :
    (reconcileAbsent i p d).statuses = p.statuses ++ [(d.key, absentStatus i d)] := by
  unfold absentStatus
  cases hrec : recorded? i.previous d.key with
  | none => cases hrole : d.entry.role <;> simp [reconcileAbsent, hrec, hrole, Pass.missingRole]
  | some found =>
    cases hid : i.tree.accountById? found.2 <;> cases hrole : d.entry.role <;>
      simp [reconcileAbsent, hrec, hid, hrole, Pass.missingRole]

/-- Looking at a live account says how it fares. -/
theorem reconcilePresent_statuses (p : Pass) (ou : LiveOu) (live : LiveAccount) :
    (reconcilePresent p d ou live).statuses =
      p.statuses ++ [(d.key, if conforms d ou live then .matched else .mismatched)] := by
  unfold reconcilePresent conforms
  cases hs : live.isSuspended
  · by_cases hparent : live.parent = ou.id
    · by_cases hp : isPrimary d = true <;> by_cases hn : live.name = d.entry.name <;>
        simp [hparent, hp, hn]
    · simp [hparent]
  · simp

/-- Looking at a declared account says how it fares. -/
theorem reconcileAccount_statuses (p : Pass) (d : Declared) :
    (reconcileAccount i p d).statuses = p.statuses ++ [(d.key, accountStatus i d)] := by
  unfold accountStatus
  by_cases hig : i.config.options.isIgnored (Path.topLevel d.entry.path) = true
  · simp [reconcileAccount, hig]
  · cases hou : matchOu d.entry.path i.tree.ous with
    | found ou s =>
      cases hlive : matchAccount? d.entry.email i.tree.accounts with
      | none => simp [reconcileAccount, hig, hou, hlive, OuMatch.ou?, reconcileAbsent_statuses]
      | some live =>
        simp [reconcileAccount, hig, hou, hlive, OuMatch.ou?, reconcilePresent_statuses]
    | ambiguous candidates => simp [reconcileAccount, hig, hou, OuMatch.ou?, Pass.ambiguousOu]
    | notFound => simp [reconcileAccount, hig, hou, OuMatch.ou?, Pass.missingOu]

/-! ### The whole pass -/

/-- **A pass says of each active account how it fares**, in order. -/
theorem reconcile_statuses (i : Input) :
    (reconcile i).statuses = i.config.accounts.map fun d => (d.key, accountStatus i d) := by
  have hous : (reconcileOus i { findings := duplicateEmails i.config }).statuses = [] :=
    foldl_keeps (fun p : Pass => p.statuses = [])
      (fun p r hp => (reconcileOu_statuses i.tree p r).trans hp) _ _ rfl
  have haccounts : ∀ p, (reconcileAccounts i p).statuses =
      p.statuses ++ i.config.accounts.filterMap fun d => some (d.key, accountStatus i d) :=
    foldl_collects Pass.statuses (fun p d => reconcileAccount_statuses p d) _
  change (collected i).statuses = _
  rw [Pass.statuses_kept.collected, haccounts, hous, List.nil_append, List.filterMap_eq_map']

end OrgAlign.Reconcile
