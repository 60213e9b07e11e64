import OrgAlign.Proofs.Org.Attachments

/-!
# Calls are all or nothing

A call is made for what holds afterwards: a unit of a name under a parent, an account under a
parent, a policy on a target or off it (`Call.Holds`). It looks up what it is about (`Call.Finds`),
and carried out it makes one change to the snapshot (`Call.Changes`). Main statements:

* `answer_of_failing`, `answer_of_available`: a call of which a subject is made to fail is refused,
  any other one is answered from the snapshot;
* `answers_applied`: the answer from the snapshot says that nothing was left to do iff what the call
  looks up is there and what it is made for holds already;
* `perform_all_or_nothing`: a call is carried out as a whole or not at all, and is said to leave
  nothing to do just where that is so.
-/

namespace OrgAlign.Org

/-! ### What calls are about -/

namespace Call

/-- What a call looks up is there. Where an account is moved from is not looked up, nor is what a
policy is detached from. -/
def Finds (s : Snapshot) : Call → Prop
  | createOu _ parent => s.isParent parent = true
  | moveAccount account _ target =>
    s.isParent target = true ∧ ∃ a ∈ s.accounts, a.id = account
  | attachPolicy policy target => s.isTarget target = true ∧ ∃ p ∈ s.policies, p.id = policy
  | detachPolicy policy _ => ∃ p ∈ s.policies, p.id = policy

/-- What a call is made for holds. -/
def Holds (s : Snapshot) : Call → Prop
  | createOu name parent => ∃ o ∈ s.ous, o.name = name ∧ o.parent = parent
  | moveAccount account _ target => ∃ a ∈ s.accounts, a.id = account ∧ a.parent = target
  | attachPolicy policy target => ∃ p ∈ s.policies, p.id = policy ∧ target ∈ p.targets
  | detachPolicy policy target => ¬ ∃ p ∈ s.policies, p.id = policy ∧ target ∈ p.targets

/-- All that a call changes in a snapshot when it is carried out, and the unit that it creates, if
it creates one: a unit that is new comes last, one account changes its parent, or one policy gets or
loses one target. -/
def Changes (s s' : Snapshot) (made : Option OuNode) : Call → Prop
  | createOu name parent => ∃ id, s.isOu id = false ∧ made = some ⟨id, name, parent⟩ ∧
      s' = s.addOu ⟨id, name, parent⟩
  | moveAccount account _ target => made = none ∧ s' = s.rehouse account target
  | attachPolicy policy target =>
    made = none ∧ s' = s.retarget policy fun targets => targets ++ [target]
  | detachPolicy policy target =>
    made = none ∧ s' = s.retarget policy fun targets => targets.filter (· ≠ target)

/-- The operation that a call asks for. -/
def operation : Call → Operation
  | createOu _ _ => .createOrganizationalUnit
  | moveAccount _ _ _ => .moveAccount
  | attachPolicy _ _ => .attachPolicy
  | detachPolicy _ _ => .detachPolicy

/-- What a call that is not made to fail does to a snapshot, and the unit that it creates. -/
def applied (s : Snapshot) : Call → Except ClientError (Option OuNode × Snapshot)
  | createOu name parent =>
    (Organization.created s name parent).map fun r => (some r.1, r.2)
  | moveAccount account source target =>
    (Organization.moved s account source target).map fun s' => (none, s')
  | attachPolicy policy target => (Organization.attached s policy target).map fun s' => (none, s')
  | detachPolicy policy target => (Organization.detached s policy target).map fun s' => (none, s')

/-- An answer from a snapshot is right: an error says that nothing was left to do iff what the call
looks up is there and what it is made for holds, and otherwise that comes to hold by the one change
of the call. -/
def Answers (s : Snapshot) (c : Call) : Except ClientError (Option OuNode × Snapshot) → Prop
  | .error e => e.isNoOp = true ↔ c.Finds s ∧ c.Holds s
  | .ok (made, s') => ¬ c.Holds s ∧ c.Holds s' ∧ c.Changes s s' made

end Call

/-! ### Answers from the snapshot -/

variable {s : Snapshot}

/-- Of items with keys of their own, a property of the item with a key is a property of that
item. -/
theorem exists_key_iff {α : Type} {key : α → String} {as : List α} (h : (as.map key).Nodup) {a : α}
    (ha : a ∈ as) (P : α → Prop) : (∃ b ∈ as, key b = key a ∧ P b) ↔ P a := by
  constructor
  · rintro ⟨b, hb, hkey, hP⟩
    rwa [List.inj_on_of_nodup_map h hb ha hkey] at hP
  · intro hP
    exact ⟨a, ha, rfl, hP⟩

/-- Looking for a key finds nothing, or an item that has it. -/
theorem find?_key_cases {α : Type} (key : α → String) (as : List α) (id : String) :
    (as.find? (key · == id) = none ∧ ¬ ∃ a ∈ as, key a = id) ∨
      ∃ a ∈ as, as.find? (key · == id) = some a ∧ key a = id := by
  cases hfind : as.find? (key · == id) with
  | none =>
    refine .inl ⟨rfl, ?_⟩
    rintro ⟨a, ha, hid⟩
    exact List.find?_eq_none.1 hfind a ha (beq_iff_eq.2 hid)
  | some a =>
    have hid : key a = id := by simpa using List.find?_some hfind
    exact .inr ⟨a, List.mem_of_find?_eq_some hfind, rfl, hid⟩

namespace Call.Answers

variable {c : Call} {op : Operation} {m : String}

/-- A call that leaves nothing to do is answered rightly where it finds what it looks up, and what
it is made for holds. -/
theorem of_noOp (h : c.applied s = .error (.noOp op m)) (hfinds : c.Finds s) (hholds : c.Holds s) :
    c.Answers s (c.applied s) := by
  rw [h]
  exact ⟨fun _ => ⟨hfinds, hholds⟩, fun _ => rfl⟩

/-- A call that does not find what it looks up is refused rightly. -/
theorem of_notFound (h : c.applied s = .error (.notFound op m)) (hnot : ¬ c.Finds s) :
    c.Answers s (c.applied s) := by
  rw [h]
  exact ⟨nofun, fun hboth => absurd hboth.1 hnot⟩

/-- A call that cannot be carried out is refused rightly where what it is made for does not hold. -/
theorem of_failed {reason : Option String} (h : c.applied s = .error (.failed op reason))
    (hnot : ¬ c.Holds s) : c.Answers s (c.applied s) := by
  rw [h]
  exact ⟨nofun, fun hboth => absurd hboth.2 hnot⟩

/-- A call is carried out rightly where it brings about what it is made for, by its one change. -/
theorem of_ok {made : Option OuNode} {t : Snapshot} (h : c.applied s = .ok (made, t))
    (hbefore : ¬ c.Holds s) (hafter : c.Holds t) (hchanges : c.Changes s t made) :
    c.Answers s (c.applied s) := by
  rw [h]
  exact ⟨hbefore, hafter, hchanges⟩

end Call.Answers

open Organization (created moved attached detached updateFirst_eq_map)

/-- A unit is created where its parent is there and has no unit of that name. -/
theorem answers_createOu (s : Snapshot) (name parent : String) :
    (Call.createOu name parent).Answers s ((Call.createOu name parent).applied s) := by
  by_cases hparent : s.isParent parent = true
  · by_cases hsibling : ∃ o ∈ s.ous, o.name = name ∧ o.parent = parent
    · have hany : (s.ous.any fun o => o.name == name && o.parent == parent) = true := by
        simpa using hsibling
      apply Call.Answers.of_noOp
      · simp only [Call.applied, created, hparent, hany]
        rfl
      · exact hparent
      · exact hsibling
    · have hroom : s.Vacant name parent :=
        ⟨hparent, fun o ho hpar hname => hsibling ⟨o, ho, hname, hpar⟩⟩
      apply Call.Answers.of_ok
      · simp only [Call.applied, hroom.created]
        rfl
      · exact hsibling
      · exact ⟨_, List.mem_append_right _ (List.mem_singleton_self _), rfl, rfl⟩
      · exact ⟨s.nextOuId, s.nextOuId_fresh, rfl, rfl⟩
  · apply Call.Answers.of_notFound
    · simp only [Call.applied, created, hparent]
      rfl
    · exact hparent

/-- An account is moved where it and its new parent are there, and it is where it is moved from and
not under the new parent yet. -/
theorem answers_moveAccount (hids : (s.accounts.map LiveAccount.id).Nodup)
    (account source target : String) :
    (Call.moveAccount account source target).Answers s
      ((Call.moveAccount account source target).applied s) := by
  by_cases htarget : s.isParent target = true
  · rcases find?_key_cases LiveAccount.id s.accounts account with
      ⟨hfind, hnone⟩ | ⟨a, ha, hfind, rfl⟩
    · apply Call.Answers.of_notFound
      · simp only [Call.applied, moved, htarget, hfind]
        rfl
      · exact fun hfinds => hnone hfinds.2
    · have hthere : (Call.moveAccount a.id source target).Holds s ↔ a.parent = target :=
        exists_key_iff hids ha fun b => b.parent = target
      by_cases hparent : a.parent = target
      · apply Call.Answers.of_noOp
        · simp only [Call.applied, moved, htarget, hfind, if_pos hparent]
          rfl
        · exact ⟨htarget, a, ha, rfl⟩
        · exact hthere.2 hparent
      · by_cases hsource : a.parent = source
        · apply Call.Answers.of_ok (t := s.rehouse a.id target)
          · simp only [Call.applied, moved, htarget, hfind, if_neg hparent,
              if_neg (not_not.2 hsource), updateFirst_eq_map hids]
            rfl
          · exact mt hthere.1 hparent
          · exact ⟨_, Snapshot.mem_rehouse.2 (.inr ⟨a, ha, rfl, rfl⟩), rfl, rfl⟩
          · exact ⟨rfl, rfl⟩
        · apply Call.Answers.of_failed
          · simp only [Call.applied, moved, htarget, hfind, if_neg hparent, if_pos hsource]
            rfl
          · exact mt hthere.1 hparent
  · apply Call.Answers.of_notFound
    · simp only [Call.applied, moved, htarget]
      rfl
    · exact fun hfinds => htarget hfinds.1

/-- After a policy's targets changed, the policy has a target iff that is among the changed ones. -/
theorem on_retarget_iff (hids : (s.policies.map AttachedPolicy.id).Nodup) {p : AttachedPolicy}
    (hp : p ∈ s.policies) (f : List String → List String) (target : String) :
    (∃ q ∈ (s.retarget p.id f).policies, q.id = p.id ∧ target ∈ q.targets) ↔
      target ∈ f p.targets := by
  have hchanged : { p with targets := f p.targets } ∈ (s.retarget p.id f).policies :=
    List.mem_map.2 ⟨p, hp, if_pos rfl⟩
  exact exists_key_iff ((Snapshot.rearranged_retarget s p.id f).policyIds hids) hchanged
    fun q => target ∈ q.targets

/-- A policy is attached where it and its target are there and it is not on the target yet. -/
theorem answers_attachPolicy (hids : (s.policies.map AttachedPolicy.id).Nodup)
    (policy target : String) :
    (Call.attachPolicy policy target).Answers s ((Call.attachPolicy policy target).applied s) := by
  by_cases htarget : s.isTarget target = true
  · rcases find?_key_cases AttachedPolicy.id s.policies policy with
      ⟨hfind, hnone⟩ | ⟨p, hp, hfind, rfl⟩
    · apply Call.Answers.of_notFound
      · simp only [Call.applied, attached, htarget, hfind]
        rfl
      · exact fun hfinds => hnone hfinds.2
    · have hthere : (Call.attachPolicy p.id target).Holds s ↔ target ∈ p.targets :=
        exists_key_iff hids hp fun q => target ∈ q.targets
      by_cases hon : p.isOn target = true
      · apply Call.Answers.of_noOp
        · simp only [Call.applied, attached, htarget, hfind, if_pos hon]
          rfl
        · exact ⟨htarget, p, hp, rfl⟩
        · exact hthere.2 (List.contains_iff_mem.1 hon)
      · apply Call.Answers.of_ok (t := s.retarget p.id fun targets => targets ++ [target])
        · simp only [Call.applied, attached, htarget, hfind, if_neg hon, updateFirst_eq_map hids]
          rfl
        · exact fun hholds => hon (List.contains_iff_mem.2 (hthere.1 hholds))
        · apply (on_retarget_iff hids hp _ target).2
          simp
        · exact ⟨rfl, rfl⟩
  · apply Call.Answers.of_notFound
    · simp only [Call.applied, attached, htarget]
      rfl
    · exact fun hfinds => htarget hfinds.1

/-- A policy is detached where it is there and on the target. -/
theorem answers_detachPolicy (hids : (s.policies.map AttachedPolicy.id).Nodup)
    (policy target : String) :
    (Call.detachPolicy policy target).Answers s ((Call.detachPolicy policy target).applied s) := by
  rcases find?_key_cases AttachedPolicy.id s.policies policy with
    ⟨hfind, hnone⟩ | ⟨p, hp, hfind, rfl⟩
  · apply Call.Answers.of_notFound
    · simp only [Call.applied, detached, hfind]
      rfl
    · exact hnone
  · have hgone : (Call.detachPolicy p.id target).Holds s ↔ target ∉ p.targets :=
      not_congr (exists_key_iff hids hp fun q => target ∈ q.targets)
    by_cases hon : p.isOn target = true
    · apply Call.Answers.of_ok
        (t := s.retarget p.id fun targets => targets.filter (· ≠ target))
      · simp only [Call.applied, detached, hfind, if_pos hon, updateFirst_eq_map hids]
        rfl
      · exact fun hholds => hgone.1 hholds (List.contains_iff_mem.1 hon)
      · apply (not_congr (on_retarget_iff hids hp _ target)).2
        simp
      · exact ⟨rfl, rfl⟩
    · apply Call.Answers.of_noOp
      · simp only [Call.applied, detached, hfind, if_neg hon]
        rfl
      · exact ⟨p, hp, rfl⟩
      · exact hgone.2 (mt List.contains_iff_mem.2 hon)

/-- **Every call is answered rightly from the snapshot**, where accounts and policies have
identifiers of their own. -/
theorem answers_applied (haccounts : (s.accounts.map LiveAccount.id).Nodup)
    (hpolicies : (s.policies.map AttachedPolicy.id).Nodup) (c : Call) :
    c.Answers s (c.applied s) := by
  cases c with
  | createOu name parent => exact answers_createOu s name parent
  | moveAccount account source target => exact answers_moveAccount haccounts account source target
  | attachPolicy policy target => exact answers_attachPolicy hpolicies policy target
  | detachPolicy policy target => exact answers_detachPolicy hpolicies policy target

/-! ### Answers from the organization -/

namespace Organization

variable {o : Organization} {c : Call}

/-- What becomes of a call: why it is refused, or the unit that it creates, if it creates one. -/
def answer (o : Organization) : Call → Except ClientError (Option OuNode)
  | .createOu name parent => (o.createOu name parent).1.map some
  | .moveAccount account source target =>
    (o.moveAccount account source target).1.map fun _ => none
  | .attachPolicy policy target => (o.attachPolicy policy target).1.map fun _ => none
  | .detachPolicy policy target => (o.detachPolicy policy target).1.map fun _ => none

/-- An attempt at a call: it is logged, then refused if one of its subjects is made to fail, and
otherwise answered from the snapshot. -/
def attempt (o : Organization) (c : Call) : Outcome (Option OuNode) :=
  match (o.record c).unavailable? c.operation c.subjects with
  | some e => (o.record c).refuse e
  | none =>
    match c.applied (o.record c).snapshot with
    | .ok (made, s) => (o.record c).commit made s
    | .error e => (o.record c).refuse e

/-- All four mutations are such attempts. -/
theorem attempt_eq (o : Organization) (c : Call) : o.attempt c = (o.answer c, o.perform c) := by
  cases c with
  | createOu name parent =>
    simp only [attempt, answer, perform, createOu, Call.operation, Call.subjects, Call.applied]
    generalize (o.record _).unavailable? _ _ = unavailable
    generalize created _ name parent = result
    cases unavailable <;> cases result <;> rfl
  | moveAccount account source target =>
    simp only [attempt, answer, perform, moveAccount, Call.operation, Call.subjects, Call.applied]
    generalize (o.record _).unavailable? _ _ = unavailable
    generalize moved _ account source target = result
    cases unavailable <;> cases result <;> rfl
  | attachPolicy policy target =>
    simp only [attempt, answer, perform, attachPolicy, Call.operation, Call.subjects, Call.applied]
    generalize (o.record _).unavailable? _ _ = unavailable
    generalize attached _ policy target = result
    cases unavailable <;> cases result <;> rfl
  | detachPolicy policy target =>
    simp only [attempt, answer, perform, detachPolicy, Call.operation, Call.subjects, Call.applied]
    generalize (o.record _).unavailable? _ _ = unavailable
    generalize detached _ policy target = result
    cases unavailable <;> cases result <;> rfl

/-- A call of which a subject is made to fail is refused, and that is no success. -/
theorem answer_of_failing (h : ∃ x ∈ c.subjects, x ∈ o.failing) :
    ∃ e, e.isNoOp = false ∧ o.answer c = .error e ∧ o.perform c = o.after c o.snapshot := by
  obtain ⟨e, hnoOp, he⟩ : ∃ e, e.isNoOp = false ∧
      (o.record c).unavailable? c.operation c.subjects = some e := unavailable?_of_failing h _
  have hattempt := o.attempt_eq c
  unfold attempt at hattempt
  rw [he] at hattempt
  obtain ⟨hanswer, hperform⟩ := Prod.mk.inj hattempt
  exact ⟨e, hnoOp, hanswer.symm, hperform.symm⟩

/-- Any other call is answered from the snapshot. -/
theorem answer_of_available (h : ¬ ∃ x ∈ c.subjects, x ∈ o.failing) :
    (∃ e, c.applied o.snapshot = .error e ∧ o.answer c = .error e ∧
      o.perform c = o.after c o.snapshot) ∨
    ∃ made s, c.applied o.snapshot = .ok (made, s) ∧ o.answer c = .ok made ∧
      o.perform c = o.after c s := by
  have hnone : (o.record c).unavailable? c.operation c.subjects = none :=
    unavailable?_eq_none.2 fun x hx hfailing => h ⟨x, hx, hfailing⟩
  have hattempt := o.attempt_eq c
  unfold attempt at hattempt
  rw [hnone] at hattempt
  rcases hresult : c.applied (o.record c).snapshot with e | ⟨made, s⟩
  · rw [hresult] at hattempt
    obtain ⟨hanswer, hperform⟩ := Prod.mk.inj hattempt
    exact .inl ⟨e, hresult, hanswer.symm, hperform.symm⟩
  · rw [hresult] at hattempt
    obtain ⟨hanswer, hperform⟩ := Prod.mk.inj hattempt
    exact .inr ⟨made, s, hresult, hanswer.symm, hperform.symm⟩

/-- A call that is answered rightly leaves the snapshot, or makes its one change. -/
theorem snapshot_perform_cases (h : c.Answers o.snapshot (c.applied o.snapshot)) :
    (o.perform c).snapshot = o.snapshot ∨
      ∃ made, c.Changes o.snapshot (o.perform c).snapshot made := by
  by_cases hfailing : ∃ x ∈ c.subjects, x ∈ o.failing
  · obtain ⟨e, -, -, hperform⟩ := answer_of_failing hfailing
    exact .inl (by rw [hperform, snapshot_after])
  · rcases answer_of_available hfailing with ⟨e, -, -, hperform⟩ | ⟨made, s, hresult, -, hperform⟩
    · exact .inl (by rw [hperform, snapshot_after])
    · rw [hresult] at h
      obtain ⟨-, -, hchanges⟩ := h
      rw [hperform, snapshot_after]
      exact .inr ⟨made, hchanges⟩

end Organization

/-! ### All or nothing -/

/-- A call is carried out as a whole or not at all. -/
structure AllOrNothing (o : Organization) (c : Call) : Prop where
  /-- The log grows by the call, whatever becomes of it. -/
  logged : (o.perform c).calls = o.calls ++ [c]
  /-- A call that is refused leaves the snapshot as it was. -/
  refused : ∀ e, o.answer c = .error e → (o.perform c).snapshot = o.snapshot
  /-- A call is refused because nothing is left to do iff none of its subjects is made to fail, what
  it looks up is there, and what it is made for holds already. -/
  noOp : (∃ e, o.answer c = .error e ∧ e.isNoOp = true) ↔
    (∀ x ∈ c.subjects, x ∉ o.failing) ∧ c.Finds o.snapshot ∧ c.Holds o.snapshot
  /-- What a call that is carried out is made for did not hold before and holds afterwards, and
  nothing else changed. -/
  carriedOut : ∀ made, o.answer c = .ok made → ¬ c.Holds o.snapshot ∧
    c.Holds (o.perform c).snapshot ∧ c.Changes o.snapshot (o.perform c).snapshot made

/-- **Every call is all or nothing**, and is said to leave nothing to do just where that is so,
whatever is made to fail. Units need no identifiers of their own for that. -/
theorem perform_all_or_nothing (o : Organization)
    (haccounts : (o.snapshot.accounts.map LiveAccount.id).Nodup)
    (hpolicies : (o.snapshot.policies.map AttachedPolicy.id).Nodup) (c : Call) :
    AllOrNothing o c := by
  have hright := answers_applied haccounts hpolicies c
  have hlogged : (o.perform c).calls = o.calls ++ [c] := by
    obtain ⟨s, hs⟩ := o.perform_eq_after c
    rw [hs, Organization.calls_after]
  by_cases hfailing : ∃ x ∈ c.subjects, x ∈ o.failing
  · obtain ⟨e, hnoOp, hanswer, hperform⟩ := o.answer_of_failing hfailing
    refine ⟨hlogged, fun _ _ => by rw [hperform, Organization.snapshot_after], ?_, ?_⟩
    · have hnot : ¬ ∀ x ∈ c.subjects, x ∉ o.failing := by simpa using hfailing
      simp [hanswer, hnoOp, hnot]
    · intro made hmade
      simp [hanswer] at hmade
  · have hnone : ∀ x ∈ c.subjects, x ∉ o.failing := fun x hx hfails => hfailing ⟨x, hx, hfails⟩
    rcases o.answer_of_available hfailing with
      ⟨e, hresult, hanswer, hperform⟩ | ⟨made, s, hresult, hanswer, hperform⟩
    · rw [hresult] at hright
      have hnoOp : e.isNoOp = true ↔ c.Finds o.snapshot ∧ c.Holds o.snapshot := hright
      refine ⟨hlogged, fun _ _ => by rw [hperform, Organization.snapshot_after], ?_, ?_⟩
      · rw [hanswer, ← hnoOp, and_iff_right hnone]
        simp
      · intro made hmade
        simp [hanswer] at hmade
    · rw [hresult] at hright
      obtain ⟨hbefore, hafter, hchanges⟩ := hright
      refine ⟨hlogged, fun e he => ?_, ?_, ?_⟩
      · simp [hanswer] at he
      · simp [hanswer, hbefore]
      · intro made' hmade
        rw [hanswer] at hmade
        rw [hperform, Organization.snapshot_after, ← Except.ok.inj hmade]
        exact ⟨hbefore, hafter, hchanges⟩

/-- Two nested units, an account in the inner one, a policy on the outer one, and an account that is
made to fail. -/
def twoDeep : Organization where
  snapshot :=
    { root := some ⟨"r-1", "Root"⟩
      ous := [⟨"ou-a", "A", "r-1"⟩, ⟨"ou-b", "B", "ou-a"⟩]
      accounts :=
        [⟨"111", "Ops", "ops@x", .active, "ou-b"⟩, ⟨"222", "Log", "log@x", .active, "ou-b"⟩]
      policies := [⟨"p-q", "Quarantine-New-Object", ["ou-a"]⟩] }
  failing := ["222"]

/-- A unit that is created, a policy that is there already, and an account that is made to fail. -/
theorem perform_all_or_nothing_twoDeep :
    twoDeep.answer (.createOu "C" "ou-b") = .ok (some ⟨"ou-0003", "C", "ou-b"⟩) ∧
      AllOrNothing twoDeep (.createOu "C" "ou-b") ∧
      AllOrNothing twoDeep (.attachPolicy "p-q" "ou-a") ∧
      AllOrNothing twoDeep (.moveAccount "222" "ou-b" "ou-a") := by
  have haccounts : (twoDeep.snapshot.accounts.map LiveAccount.id).Nodup := by decide
  have hpolicies : (twoDeep.snapshot.policies.map AttachedPolicy.id).Nodup := by decide
  refine ⟨by decide +kernel, ?_, ?_, ?_⟩
  · exact perform_all_or_nothing twoDeep haccounts hpolicies _
  · exact perform_all_or_nothing twoDeep haccounts hpolicies _
  · exact perform_all_or_nothing twoDeep haccounts hpolicies _

end OrgAlign.Org
