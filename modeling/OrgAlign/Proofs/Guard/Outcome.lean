import OrgAlign.Proofs.Guard.Steps
import OrgAlign.Proofs.Org.Attachments

/-!
# What enforcement leaves

Each target of a plan is seen to on its own: what it carries afterwards is `Due`, and no other
target notices. Main statements:

* `enforceOn_carries`: the work on one target;
* `enforceWith_carries`, `enforceWith_due`: all of the work, also where nothing is made to fail;
* `enforceWith_settles`: afterwards every target carries what it is due;
* `enforceWith_silent`: where every target carries what it is due, nothing is called.
-/

namespace OrgAlign.Guard

open Config Org Snapshot

namespace Enforcement

/-- What a target carries once it was seen to: a quarantined one the quarantine policy and at most
the baseline policy besides it, a declared one whatever it carried but the quarantine policy, an
ignored one what it carried. -/
def Due (quarantine : Policy) (baseline : String) : Reason → Prop → Policy → Prop
  | .ignored, carried, _ => carried
  | .declared, carried, q => carried ∧ q ≠ quarantine
  | _, carried, q => q = quarantine ∨ (carried ∧ isForeign quarantine baseline q = false)

variable {e : Enforcement} {quarantine : Policy} {t : Target}

/-! ### Attempts -/

theorem attach_org (e : Enforcement) (p : Policy) (t : Target) :
    (e.attach p t).org = (e.org.attachPolicy p.id t.id).2 := by
  rcases e.attach_cases p t with ⟨error, -, h⟩ | ⟨-, h⟩
  · rw [h, settle_org]
  · rw [h]

theorem detach_org (e : Enforcement) (p : Policy) (t : Target) :
    (e.detach t p).org = (e.org.detachPolicy p.id t.id).2 := by
  rcases e.detach_cases p t with ⟨error, -, h⟩ | ⟨-, h⟩
  · rw [h, settle_org]
  · rw [h]

theorem failing_attach (e : Enforcement) (p : Policy) (t : Target) :
    (e.attach p t).org.failing = e.org.failing := by
  rw [attach_org]
  exact (Issued.perform e.org (.attachPolicy p.id t.id)).failing_eq

theorem failing_detach (e : Enforcement) (p : Policy) (t : Target) :
    (e.detach t p).org.failing = e.org.failing := by
  rw [detach_org]
  exact (Issued.perform e.org (.detachPolicy p.id t.id)).failing_eq

/-- Policies that are detached from a target one after the other are gone from it, and nothing else
changed. -/
theorem detachAll_carries (ps : List Policy)
    (hids : (e.org.snapshot.policies.map AttachedPolicy.id).Nodup)
    (hps : ∀ p ∈ ps, p ∈ e.org.snapshot.catalog) (hfail : t.id ∉ e.org.failing) :
    Rearranged e.org.snapshot (ps.foldl (detach t) e).org.snapshot ∧
      (ps.foldl (detach t) e).org.failing = e.org.failing ∧
      ∀ x q, (ps.foldl (detach t) e).org.snapshot.Carries x q ↔
        e.org.snapshot.Carries x q ∧ ¬ (x = t.id ∧ q ∈ ps) := by
  induction ps generalizing e with
  | nil => exact ⟨Rearranged.refl _, rfl, by simp⟩
  | cons p ps ih =>
    obtain ⟨hone, hcarries⟩ :=
      Organization.carries_detachPolicy hids (hps p List.mem_cons_self) hfail
    rw [← detach_org] at hone hcarries
    obtain ⟨hrest, hfailing, hall⟩ := ih (hone.policyIds hids)
      (fun q hq => hone.catalog ▸ hps q (List.mem_cons_of_mem _ hq))
      (by rw [failing_detach]; exact hfail)
    rw [List.foldl_cons]
    refine ⟨hone.trans hrest, hfailing.trans (failing_detach e p t), fun x q => ?_⟩
    rw [hall, hcarries, List.mem_cons]
    tauto

/-! ### One target -/

/-- A target that is made to fail stays as it is, and no change of it is noted. -/
theorem enforceOn_of_failing (quarantine : Policy) (baseline : String) (carriers : List String)
    (hfail : t.id ∈ e.org.failing) :
    (enforceOn quarantine baseline carriers e t).org.snapshot = e.org.snapshot ∧
      (enforceOn quarantine baseline carriers e t).org.failing = e.org.failing ∧
      (enforceOn quarantine baseline carriers e t).report.attached = e.report.attached ∧
      (enforceOn quarantine baseline carriers e t).report.detached = e.report.detached := by
  simp only [enforceOn]
  split
  · exact ⟨rfl, rfl, rfl, rfl⟩
  · split
    · obtain ⟨error, hrefused⟩ := Organization.detachPolicy_of_failing quarantine.id hfail
      have hdone : e.detach t quarantine =
          { e with org := e.org.after (.detachPolicy quarantine.id t.id) e.org.snapshot }.settle
            error := by
        simp only [detach, hrefused]
      rw [hdone, settle_org, settle_attached, settle_detached]
      exact ⟨rfl, rfl, rfl, rfl⟩
    · exact ⟨rfl, rfl, rfl, rfl⟩
  · unfold isolate
    split
    · exact ⟨rfl, rfl, rfl, rfl⟩
    · rename_i current hlist
      exact absurd hfail (Organization.policiesFor_eq_ok.1 hlist).1

/-- A quarantined target carries what is due afterwards, and nothing else changed. -/
theorem isolate_carries (baseline : String) {carries : Bool}
    (hids : (e.org.snapshot.policies.map AttachedPolicy.id).Nodup)
    (hquarantine : quarantine ∈ e.org.snapshot.catalog)
    (htarget : e.org.snapshot.isTarget t.id = true)
    (hcarries : carries = true ↔ e.org.snapshot.Carries t.id quarantine)
    (hfail : t.id ∉ e.org.failing) :
    Rearranged e.org.snapshot (isolate quarantine baseline carries e t).org.snapshot ∧
      (isolate quarantine baseline carries e t).org.failing = e.org.failing ∧
      ∀ x q, (isolate quarantine baseline carries e t).org.snapshot.Carries x q ↔
        if x = t.id then
          q = quarantine ∨ (e.org.snapshot.Carries x q ∧ isForeign quarantine baseline q = false)
        else e.org.snapshot.Carries x q := by
  have hcurrent := (Organization.policiesFor_eq_ok (o := e.org)).2 ⟨hfail, rfl⟩
  have hmine : isForeign quarantine baseline quarantine = false := by simp [isForeign]
  -- first the foreign policies go
  obtain ⟨hone, hfailing, hfirst⟩ := detachAll_carries (e := e) (t := t)
    (((e.org.snapshot.policies.filter (·.isOn t.id)).map AttachedPolicy.policy).filter
      (isForeign quarantine baseline)) hids
    (fun p hp => by
      obtain ⟨q, hq, rfl⟩ := List.mem_map.1 (List.mem_of_mem_filter hp)
      exact List.mem_map_of_mem (List.mem_of_mem_filter hq)) hfail
  simp only [List.mem_filter, Organization.mem_policiesFor] at hfirst
  simp only [isolate, hcurrent]
  split
  · rename_i hthere
    refine ⟨hone, hfailing, fun x q => ?_⟩
    rw [hfirst]
    by_cases hx : x = t.id
    · subst hx
      rw [if_pos rfl]
      by_cases hq : q = quarantine
      · subst hq
        simp [hcarries.1 hthere, hmine]
      · simp only [hq, false_or]
        cases isForeign quarantine baseline q <;> simp
    · simp [hx]
  · -- then the quarantine policy comes
    have hstill : (List.foldl (detach t) e _).org.snapshot.isTarget t.id = true :=
      (hone.isTarget t.id).trans htarget
    obtain ⟨htwo, hsecond⟩ := Organization.carries_attachPolicy (hone.policyIds hids)
      (hone.catalog ▸ hquarantine) hstill (hfailing ▸ hfail)
    rw [← attach_org] at htwo hsecond
    refine ⟨hone.trans htwo, (failing_attach _ _ _).trans hfailing, fun x q => ?_⟩
    rw [hsecond, hfirst]
    by_cases hx : x = t.id
    · subst hx
      rw [if_pos rfl]
      by_cases hq : q = quarantine
      · simp [hq]
      · simp only [hq, false_or, and_false, or_false]
        cases isForeign quarantine baseline q <;> simp
    · simp [hx]

/-- The work on one target leaves there what is due, unless it is made to fail, and leaves the
others alone. -/
theorem enforceOn_carries (baseline : String) {carriers : List String}
    (hids : (e.org.snapshot.policies.map AttachedPolicy.id).Nodup)
    (hquarantine : quarantine ∈ e.org.snapshot.catalog)
    (htarget : e.org.snapshot.isTarget t.id = true)
    (hcarriers : carriers.contains t.id = true ↔ e.org.snapshot.Carries t.id quarantine) :
    Rearranged e.org.snapshot (enforceOn quarantine baseline carriers e t).org.snapshot ∧
      (enforceOn quarantine baseline carriers e t).org.failing = e.org.failing ∧
      ∀ x q, (enforceOn quarantine baseline carriers e t).org.snapshot.Carries x q ↔
        if x = t.id ∧ t.id ∉ e.org.failing then
          Due quarantine baseline t.reason (e.org.snapshot.Carries x q) q
        else e.org.snapshot.Carries x q := by
  by_cases hfail : t.id ∈ e.org.failing
  · obtain ⟨hsnapshot, hfailing, -, -⟩ :=
      enforceOn_of_failing quarantine baseline carriers hfail
    rw [hsnapshot, hfailing]
    refine ⟨Rearranged.refl _, rfl, fun x q => ?_⟩
    rw [if_neg fun h => h.2 hfail]
  · simp only [and_iff_left hfail]
    have hisolated := isolate_carries baseline hids hquarantine htarget hcarriers hfail
    cases hreason : t.reason with
    | ignored =>
      have hsame : enforceOn quarantine baseline carriers e t = e := by
        simp only [enforceOn, hreason]
      rw [hsame]
      refine ⟨Rearranged.refl _, rfl, fun x q => ?_⟩
      simp [Due]
    | declared =>
      by_cases hthere : carriers.contains t.id = true
      · have hdone : enforceOn quarantine baseline carriers e t = e.detach t quarantine := by
          simp only [enforceOn, hreason, hthere, if_true]
        obtain ⟨hone, hcarries⟩ := Organization.carries_detachPolicy hids hquarantine hfail
        rw [← detach_org] at hone hcarries
        rw [hdone]
        refine ⟨hone, failing_detach _ _ _, fun x q => ?_⟩
        rw [hcarries]
        by_cases hx : x = t.id <;> simp [hx, Due]
      · have hsame : enforceOn quarantine baseline carriers e t = e := by
          simp only [enforceOn, hreason, hthere, Bool.false_eq_true, if_false]
        rw [hsame]
        refine ⟨Rearranged.refl _, rfl, fun x q => ?_⟩
        by_cases hx : x = t.id
        · subst hx
          rw [if_pos rfl]
          refine ⟨fun h => ⟨h, ?_⟩, And.left⟩
          rintro rfl
          exact hthere (hcarriers.2 h)
        · simp [hx]
    | undeclared =>
      simp only [enforceOn, hreason]
      exact hisolated
    | rootAccount =>
      simp only [enforceOn, hreason]
      exact hisolated
    | suspended =>
      simp only [enforceOn, hreason]
      exact hisolated

/-! ### All targets -/

/-- Targets that can be seen to one by one: they are there, each once, and the carriers were looked
up where they are. -/
structure Lined (quarantine : Policy) (carriers : List String) (ts : List Target)
    (s : Snapshot) : Prop where
  /-- Policies have identifiers of their own. -/
  ids : (s.policies.map AttachedPolicy.id).Nodup
  /-- The quarantine policy is there. -/
  present : quarantine ∈ s.catalog
  /-- Every target is there. -/
  targets : ∀ t ∈ ts, s.isTarget t.id = true
  /-- No target comes twice. -/
  once : (ts.map Target.id).Nodup
  /-- The carriers are those that carry the quarantine policy. -/
  carriers : ∀ t ∈ ts, carriers.contains t.id = true ↔ s.Carries t.id quarantine

section

variable {carriers : List String} {ts : List Target}

/-- No later target is the first one. -/
theorem Lined.ne {s : Snapshot} (h : Lined quarantine carriers (t :: ts) s) {u : Target}
    (hu : u ∈ ts) : u.id ≠ t.id := fun heq =>
  (List.nodup_cons.1 h.once).1 (heq ▸ List.mem_map_of_mem hu)

/-- The work on the first target is noticed there alone. -/
theorem Lined.leaves (baseline : String) (h : Lined quarantine carriers (t :: ts) e.org.snapshot)
    {x : String} (hx : x ≠ t.id) (q : Policy) :
    (enforceOn quarantine baseline carriers e t).org.snapshot.Carries x q ↔
      e.org.snapshot.Carries x q := by
  obtain ⟨-, -, hcarries⟩ := enforceOn_carries baseline h.ids h.present
    (h.targets t List.mem_cons_self) (h.carriers t List.mem_cons_self)
  rw [hcarries, if_neg fun hboth => hx hboth.1]

/-- The later targets can be seen to after the first one. -/
theorem Lined.rest (baseline : String) (h : Lined quarantine carriers (t :: ts) e.org.snapshot) :
    Lined quarantine carriers ts (enforceOn quarantine baseline carriers e t).org.snapshot := by
  obtain ⟨hone, -, -⟩ := enforceOn_carries baseline h.ids h.present
    (h.targets t List.mem_cons_self) (h.carriers t List.mem_cons_self)
  refine ⟨hone.policyIds h.ids, hone.catalog ▸ h.present, fun u hu => ?_,
    (List.nodup_cons.1 h.once).2, fun u hu => ?_⟩
  · exact (hone.isTarget u.id).trans (h.targets u (List.mem_cons_of_mem _ hu))
  · rw [h.leaves baseline (h.ne hu)]
    exact h.carriers u (List.mem_cons_of_mem _ hu)

end

/-- The work on all targets leaves at each of them what is due, unless it is made to fail, and
leaves everything else alone. -/
theorem foldl_enforceOn_carries (baseline : String) {carriers : List String} {ts : List Target}
    (h : Lined quarantine carriers ts e.org.snapshot) :
    Rearranged e.org.snapshot (ts.foldl (enforceOn quarantine baseline carriers) e).org.snapshot ∧
      (∀ x, x ∉ ts.map Target.id → ∀ q,
        (ts.foldl (enforceOn quarantine baseline carriers) e).org.snapshot.Carries x q ↔
          e.org.snapshot.Carries x q) ∧
      ∀ t ∈ ts, ∀ q,
        (ts.foldl (enforceOn quarantine baseline carriers) e).org.snapshot.Carries t.id q ↔
          if t.id ∉ e.org.failing then
            Due quarantine baseline t.reason (e.org.snapshot.Carries t.id q) q
          else e.org.snapshot.Carries t.id q := by
  induction ts generalizing e with
  | nil => exact ⟨Rearranged.refl _, fun _ _ _ => Iff.rfl, fun t ht => absurd ht List.not_mem_nil⟩
  | cons t ts ih =>
    obtain ⟨hone, hfailing, hcarries⟩ := enforceOn_carries baseline h.ids h.present
      (h.targets t List.mem_cons_self) (h.carriers t List.mem_cons_self)
    obtain ⟨hrest, houtside, hinside⟩ := ih (h.rest baseline)
    rw [List.foldl_cons]
    refine ⟨hone.trans hrest, fun x hx q => ?_, ?_⟩
    · rw [List.map_cons, List.mem_cons, not_or] at hx
      rw [houtside x hx.2, h.leaves baseline hx.1]
    · rw [List.forall_mem_cons]
      refine ⟨fun q => ?_, fun u hu q => ?_⟩
      · rw [houtside t.id (List.nodup_cons.1 h.once).1, hcarries]
        simp
      · rw [hinside u hu, h.leaves baseline (h.ne hu), hfailing]

end Enforcement

open Enforcement

/-! ### The plan -/

variable {c : Configuration} {quarantine : Policy} {p : Plan} {o : Organization} {e : Enforcement}

/-- The quarantine policy is one of the organization's and has the name that the configuration
gives. -/
theorem quarantinePolicy_eq_ok (h : quarantinePolicy c o = .ok quarantine) :
    quarantine ∈ o.snapshot.catalog ∧ quarantine.name = c.options.quarantinePolicy := by
  unfold quarantinePolicy at h
  split at h
  · rename_i q qs hq
    cases h
    have hmem : quarantine ∈ o.policies (some c.options.quarantinePolicy) := by simp [hq]
    unfold Organization.policies at hmem
    obtain ⟨hin, hname⟩ := List.mem_filter.1 hmem
    rw [Option.all_some, beq_iff_eq] at hname
    exact ⟨hin, hname.symm⟩
  · cases h

/-- The quarantine policy is found if some policy has its name. -/
theorem exists_quarantinePolicy
    (hpresent : ∃ q ∈ o.snapshot.catalog, q.name = c.options.quarantinePolicy) :
    ∃ quarantine, quarantinePolicy c o = .ok quarantine := by
  obtain ⟨q, hq, hname⟩ := hpresent
  have hin : q ∈ o.policies (some c.options.quarantinePolicy) :=
    List.mem_filter.2 ⟨hq, by simp [hname]⟩
  unfold quarantinePolicy
  split
  · exact ⟨_, rfl⟩
  · rename_i hnone
    rw [hnone] at hin
    exact absurd hin List.not_mem_nil

/-- The quarantine policy depends on the policies alone, not on what they are attached to. -/
theorem quarantinePolicy_congr {o' : Organization} (h : o'.snapshot.catalog = o.snapshot.catalog) :
    quarantinePolicy c o' = quarantinePolicy c o := by
  have hpolicies : o'.policies (some c.options.quarantinePolicy) =
      o.policies (some c.options.quarantinePolicy) := by
    unfold catalog at h
    unfold Organization.policies
    rw [h]
  unfold quarantinePolicy
  rw [hpolicies]

/-- Enforcement changes nothing but what policies are attached to. -/
theorem enforceWith_rearranged (h : enforceWith c quarantine p o = .ok e) :
    Rearranged o.snapshot e.org.snapshot := by
  refine enforceWith_keeps (fun e => Rearranged o.snapshot e.org.snapshot) (fun _ _ he => he) ?_ ?_
    (Rearranged.refl _) h
  · intro e p t he
    rw [Enforcement.attach_org]
    exact he.trans (e.org.rearranged_attachPolicy p.id t.id)
  · intro e t p he
    rw [Enforcement.detach_org]
    exact he.trans (e.org.rearranged_detachPolicy p.id t.id)

/-- What the quarantine policy is attached to. -/
theorem targetsOf_eq_ok {carriers : List String} (h : o.targetsOf quarantine.id = .ok carriers)
    (hids : (o.snapshot.policies.map AttachedPolicy.id).Nodup)
    (hquarantine : quarantine ∈ o.snapshot.catalog) (x : String) :
    carriers.contains x = true ↔ o.snapshot.Carries x quarantine := by
  obtain ⟨q, hq, rfl⟩ := List.mem_map.1 hquarantine
  change o.targetsOf q.id = .ok carriers at h
  unfold Organization.targetsOf at h
  rw [find?_policy hids hq] at h
  cases h
  exact (carries_iff_isOn hids hq).symm

/-- The targets of a policy that is there can be looked up. -/
theorem exists_targetsOf (hids : (o.snapshot.policies.map AttachedPolicy.id).Nodup)
    (hquarantine : quarantine ∈ o.snapshot.catalog) :
    ∃ carriers, o.targetsOf quarantine.id = .ok carriers := by
  obtain ⟨q, hq, rfl⟩ := List.mem_map.1 hquarantine
  refine ⟨q.targets, ?_⟩
  change o.targetsOf q.id = .ok q.targets
  unfold Organization.targetsOf
  rw [find?_policy hids hq]

/-- Enforcement starts, because what the quarantine policy is attached to can be looked up. -/
theorem exists_enforceWith (c : Configuration) (p : Plan)
    (hids : (o.snapshot.policies.map AttachedPolicy.id).Nodup)
    (hquarantine : quarantine ∈ o.snapshot.catalog) :
    ∃ e, enforceWith c quarantine p o = .ok e := by
  obtain ⟨carriers, hlook⟩ := exists_targetsOf hids hquarantine
  exact ⟨_, enforceWith_eq_ok.2 ⟨carriers, hlook, rfl⟩⟩

/-- **Enforcement leaves at every target of the plan what is due there**, unless it is made to fail,
and changes nothing else. -/
theorem enforceWith_carries (h : enforceWith c quarantine p o = .ok e)
    (hids : (o.snapshot.policies.map AttachedPolicy.id).Nodup)
    (hquarantine : quarantine ∈ o.snapshot.catalog)
    (htargets : ∀ t ∈ p.targets, o.snapshot.isTarget t.id = true)
    (honce : (p.targets.map Target.id).Nodup) :
    Rearranged o.snapshot e.org.snapshot ∧
      (∀ x, x ∉ p.targets.map Target.id → ∀ q,
        e.org.snapshot.Carries x q ↔ o.snapshot.Carries x q) ∧
      ∀ t ∈ p.targets, ∀ q, e.org.snapshot.Carries t.id q ↔
        if t.id ∉ o.failing then
          Due quarantine c.options.baselinePolicy t.reason (o.snapshot.Carries t.id q) q
        else o.snapshot.Carries t.id q := by
  obtain ⟨carriers, hcarriers, rfl⟩ := enforceWith_eq_ok.1 h
  exact foldl_enforceOn_carries (e := ⟨o, {}⟩) _
    ⟨hids, hquarantine, htargets, honce, fun t _ => targetsOf_eq_ok hcarriers hids hquarantine t.id⟩

/-- Where nothing is made to fail, every target of the plan carries afterwards what it is due. -/
theorem enforceWith_due (h : enforceWith c quarantine p o = .ok e)
    (hids : (o.snapshot.policies.map AttachedPolicy.id).Nodup)
    (hquarantine : quarantine ∈ o.snapshot.catalog)
    (htargets : ∀ t ∈ p.targets, o.snapshot.isTarget t.id = true)
    (honce : (p.targets.map Target.id).Nodup) (hfailing : o.failing = []) {t : Target}
    (ht : t ∈ p.targets) (q : Policy) : e.org.snapshot.Carries t.id q ↔
      Due quarantine c.options.baselinePolicy t.reason (o.snapshot.Carries t.id q) q := by
  obtain ⟨-, -, hinside⟩ := enforceWith_carries h hids hquarantine htargets honce
  rw [hinside t ht, hfailing, if_pos List.not_mem_nil]

/-- A target carries after enforcement what it carried before, or the quarantine policy. -/
theorem carries_of_enforceWith (h : enforceWith c quarantine p o = .ok e)
    (hids : (o.snapshot.policies.map AttachedPolicy.id).Nodup)
    (hquarantine : quarantine ∈ o.snapshot.catalog)
    (htargets : ∀ t ∈ p.targets, o.snapshot.isTarget t.id = true)
    (honce : (p.targets.map Target.id).Nodup) {x : String} {q : Policy}
    (hq : e.org.snapshot.Carries x q) : o.snapshot.Carries x q ∨ q = quarantine := by
  obtain ⟨-, houtside, hinside⟩ := enforceWith_carries h hids hquarantine htargets honce
  by_cases hx : x ∈ p.targets.map Target.id
  · obtain ⟨t, ht, rfl⟩ := List.mem_map.1 hx
    have hafter := (hinside t ht q).1 hq
    split at hafter
    · cases hreason : t.reason <;> rw [hreason] at hafter
      · exact .inl hafter.1
      · exact .inl hafter
      · exact hafter.symm.imp_left And.left
      · exact hafter.symm.imp_left And.left
      · exact hafter.symm.imp_left And.left
    · exact .inl hafter
  · exact .inl ((houtside x hx q).1 hq)

/-- A target carries what it is due already. -/
def Settled (quarantine : Policy) (baseline : String) (s : Snapshot) (t : Target) : Prop :=
  ∀ q, s.Carries t.id q ↔ Due quarantine baseline t.reason (s.Carries t.id q) q

/-- Seeing to a target once is enough. -/
theorem due_idem (quarantine : Policy) (baseline : String) (r : Reason) (carried : Prop)
    (q : Policy) : Due quarantine baseline r carried q ↔
      Due quarantine baseline r (Due quarantine baseline r carried q) q := by
  cases r <;> simp only [Due] <;> tauto

/-- After enforcement every target carries what it is due, if none is made to fail. -/
theorem enforceWith_settles (h : enforceWith c quarantine p o = .ok e)
    (hids : (o.snapshot.policies.map AttachedPolicy.id).Nodup)
    (hquarantine : quarantine ∈ o.snapshot.catalog)
    (htargets : ∀ t ∈ p.targets, o.snapshot.isTarget t.id = true)
    (honce : (p.targets.map Target.id).Nodup) (hfailing : o.failing = []) :
    ∀ t ∈ p.targets, Settled quarantine c.options.baselinePolicy e.org.snapshot t := by
  intro t ht q
  rw [propext (enforceWith_due h hids hquarantine htargets honce hfailing ht q)]
  exact due_idem quarantine c.options.baselinePolicy t.reason _ q

/-- Nothing is called for a target that carries what it is due. -/
theorem enforceOn_silent {baseline : String} {carriers : List String} {t : Target}
    (hsettled : Settled quarantine baseline e.org.snapshot t) (hfail : t.id ∉ e.org.failing)
    (hcarriers : carriers.contains t.id = true ↔ e.org.snapshot.Carries t.id quarantine) :
    enforceOn quarantine baseline carriers e t = e := by
  have hisolated : (∀ q, e.org.snapshot.Carries t.id q ↔ q = quarantine ∨
      (e.org.snapshot.Carries t.id q ∧ isForeign quarantine baseline q = false)) →
      isolate quarantine baseline (carriers.contains t.id) e t = e := by
    intro hdue
    have hcurrent := (Organization.policiesFor_eq_ok (o := e.org)).2 ⟨hfail, rfl⟩
    have hmine : isForeign quarantine baseline quarantine = false := by simp [isForeign]
    have hnone : ((e.org.snapshot.policies.filter (·.isOn t.id)).map
        AttachedPolicy.policy).filter (isForeign quarantine baseline) = [] := by
      refine List.filter_eq_nil_iff.2 fun q hq => ?_
      rw [Bool.not_eq_true]
      rcases (hdue q).1 (Organization.mem_policiesFor.1 hq) with rfl | ⟨-, h⟩
      · exact hmine
      · exact h
    have hthere : carriers.contains t.id = true := hcarriers.2 ((hdue quarantine).2 (.inl rfl))
    simp only [isolate, hcurrent, hnone, List.foldl_nil, hthere, if_true]
  unfold Settled at hsettled
  cases hreason : t.reason with
  | ignored => simp only [enforceOn, hreason]
  | declared =>
    rw [hreason] at hsettled
    have hnot : ¬ carriers.contains t.id = true := fun h =>
      ((hsettled quarantine).1 (hcarriers.1 h)).2 rfl
    simp only [enforceOn, hreason, hnot, Bool.false_eq_true, if_false]
  | undeclared =>
    rw [hreason] at hsettled
    simp only [enforceOn, hreason]
    exact hisolated hsettled
  | rootAccount =>
    rw [hreason] at hsettled
    simp only [enforceOn, hreason]
    exact hisolated hsettled
  | suspended =>
    rw [hreason] at hsettled
    simp only [enforceOn, hreason]
    exact hisolated hsettled

/-- **Where every target carries what it is due, enforcement calls nothing.** -/
theorem enforceWith_silent (hids : (o.snapshot.policies.map AttachedPolicy.id).Nodup)
    (hquarantine : quarantine ∈ o.snapshot.catalog) (hfailing : o.failing = [])
    (hsettled : ∀ t ∈ p.targets,
      Settled quarantine c.options.baselinePolicy o.snapshot t) :
    enforceWith c quarantine p o = .ok ⟨o, {}⟩ := by
  obtain ⟨carriers, hlook⟩ := exists_targetsOf hids hquarantine
  refine enforceWith_eq_ok.2 ⟨carriers, hlook, ?_⟩
  refine (foldl_keeps_of_mem (fun e : Enforcement => e = ⟨o, {}⟩) ?_ _ rfl).symm
  rintro e t ht rfl
  exact enforceOn_silent (hsettled t ht) (by rw [hfailing]; exact List.not_mem_nil)
    (targetsOf_eq_ok hlook hids hquarantine t.id)

end OrgAlign.Guard
