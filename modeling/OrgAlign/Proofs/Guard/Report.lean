import OrgAlign.Proofs.Guard.Outcome
import OrgAlign.Proofs.Guard.Plan

/-!
# What enforcement reports, and where it ends

Where nothing is made to fail, every call of enforcement changes an attachment, and a target that is
made to fail is left alone. So the report is the difference between the organization before and
after. Main statements:

* `enforceOn_report`: the work on one target reports what that target gained and lost;
* `Reported`, `enforceWith_reported`: all of the work reports what all targets gained and lost;
* `Enforced`, `enforce_reaches_plan`: enforcement reaches exactly what the plan asks for, and a
  second one calls nothing.
-/

namespace OrgAlign.Guard

open Config Org Snapshot

namespace Enforcement

/-- The policies that a target carries after and did not carry before, by name, each with the
target's name. -/
def added (before after : Snapshot) (t : Target) : List (String × String) :=
  (after.catalog.filter fun p => ¬ before.Carries t.id p ∧ after.Carries t.id p).map
    fun p => (p.name, t.name)

/-- What a target gained follows from what it carries. -/
theorem added_congr {before after before' after' : Snapshot} {t : Target}
    (hcatalog : after'.catalog = after.catalog)
    (hbefore : ∀ q, before'.Carries t.id q ↔ before.Carries t.id q)
    (hafter : ∀ q, after'.Carries t.id q ↔ after.Carries t.id q) :
    added before' after' t = added before after t := by
  unfold added
  simp only [hcatalog, hbefore, hafter]

/-- A target gained nothing where it carries nothing new. -/
theorem added_eq_nil {before after : Snapshot} {t : Target}
    (h : ∀ q, after.Carries t.id q → before.Carries t.id q) : added before after t = [] := by
  unfold added
  rw [List.filter_eq_nil_iff.2 fun q _ => by simpa using fun hnot hq => hnot (h q hq)]
  rfl

/-- A target gained one policy where that is all it carries that is new. -/
theorem added_eq_singleton {before after : Snapshot} {t : Target} {p : Policy}
    (hids : (after.policies.map AttachedPolicy.id).Nodup) (hp : p ∈ after.catalog)
    (h : ∀ q, ¬ before.Carries t.id q ∧ after.Carries t.id q ↔ q = p) :
    added before after t = [(p.name, t.name)] := by
  have hnodup : after.catalog.Nodup := (map_id_catalog after ▸ hids).of_map
  unfold added
  rw [filter_eq_singleton hnodup hp fun q _ => by rw [decide_eq_true_iff]; exact h q]
  rfl

variable {e : Enforcement} {quarantine : Policy} {t : Target}

/-! ### Attempts -/

/-- Attaching a policy to a target that does not carry it is noted. -/
theorem attach_report {p : Policy} (hids : (e.org.snapshot.policies.map AttachedPolicy.id).Nodup)
    (hp : p ∈ e.org.snapshot.catalog) (htarget : e.org.snapshot.isTarget t.id = true)
    (hfail : t.id ∉ e.org.failing) (hnot : ¬ e.org.snapshot.Carries t.id p) :
    (e.attach p t).report =
      { e.report with attached := e.report.attached ++ [(p.name, t.name)] } := by
  have hok := Organization.attachPolicy_succeeds hids hp htarget hfail hnot
  rcases e.attach_cases p t with ⟨error, herror, -⟩ | ⟨-, h⟩
  · rw [hok] at herror
    cases herror
  · rw [h]

/-- Detaching a policy from a target that carries it is noted. -/
theorem detach_report {p : Policy} (hids : (e.org.snapshot.policies.map AttachedPolicy.id).Nodup)
    (hfail : t.id ∉ e.org.failing) (hp : e.org.snapshot.Carries t.id p) :
    (e.detach t p).report =
      { e.report with detached := e.report.detached ++ [(p.name, t.name)] } := by
  have hok := Organization.detachPolicy_succeeds hids hfail hp
  rcases e.detach_cases p t with ⟨error, herror, -⟩ | ⟨-, h⟩
  · rw [hok] at herror
    cases herror
  · rw [h]

/-- Detaching policies one after the other is noted for each. -/
theorem detachAll_report {ps : List Policy} (honce : ps.Nodup)
    (hids : (e.org.snapshot.policies.map AttachedPolicy.id).Nodup)
    (hps : ∀ p ∈ ps, e.org.snapshot.Carries t.id p) (hfail : t.id ∉ e.org.failing) :
    (ps.foldl (detach t) e).report =
      { e.report with detached := e.report.detached ++ ps.map fun p => (p.name, t.name) } := by
  induction ps generalizing e with
  | nil => simp
  | cons p ps ih =>
    obtain ⟨hnew, honce⟩ := List.nodup_cons.1 honce
    have hp := hps p List.mem_cons_self
    have hpresent := mem_catalog_of_carries hp
    obtain ⟨hone, hcarries⟩ := Organization.carries_detachPolicy hids hpresent hfail
    rw [← detach_org] at hone hcarries
    rw [List.foldl_cons, ih honce (hone.policyIds hids) (fun q hq => ?_)
      (by rw [failing_detach]; exact hfail), detach_report hids hfail hp]
    · simp [List.append_assoc]
    · -- the policies still to go are others than this one
      exact (hcarries t.id q).2
        ⟨hps q (List.mem_cons_of_mem _ hq), fun h => hnew (h.2 ▸ hq)⟩

/-! ### One target -/

/-- The foreign policies of a target are those that it loses by being quarantined. -/
theorem foreign_eq {baseline : String} {after : Snapshot}
    (hids : (e.org.snapshot.policies.map AttachedPolicy.id).Nodup)
    (hafter : ∀ q, after.Carries t.id q ↔
      q = quarantine ∨ (e.org.snapshot.Carries t.id q ∧ isForeign quarantine baseline q = false)) :
    ((((e.org.snapshot.policies.filter (·.isOn t.id)).map AttachedPolicy.policy).filter
      (isForeign quarantine baseline)).map fun p => (p.name, t.name)) =
      added after e.org.snapshot t := by
  have hmine : isForeign quarantine baseline quarantine = false := by simp [isForeign]
  unfold added catalog
  rw [List.filter_map, List.filter_map, List.filter_filter]
  refine congrArg (fun ps => (ps.map AttachedPolicy.policy).map fun p => (p.name, t.name))
    (List.filter_congr fun r hr => ?_)
  have hcarries : e.org.snapshot.Carries t.id r.policy ↔ r.isOn t.id = true :=
    carries_iff_isOn hids hr
  rw [Bool.eq_iff_iff]
  simp only [Function.comp_apply, Bool.and_eq_true, decide_eq_true_iff, hafter, hcarries, not_or,
    not_and, Bool.not_eq_false]
  constructor
  · rintro ⟨hforeign, hon⟩
    refine ⟨⟨?_, fun _ => hforeign⟩, hon⟩
    rintro heq
    rw [heq, hmine] at hforeign
    cases hforeign
  · rintro ⟨⟨-, hforeign⟩, hon⟩
    exact ⟨hforeign hon, hon⟩

/-- Quarantining a target reports what it gained and lost. -/
theorem isolate_report (baseline : String) {carries : Bool}
    (hids : (e.org.snapshot.policies.map AttachedPolicy.id).Nodup)
    (hquarantine : quarantine ∈ e.org.snapshot.catalog)
    (htarget : e.org.snapshot.isTarget t.id = true)
    (hcarries : carries = true ↔ e.org.snapshot.Carries t.id quarantine)
    (hfail : t.id ∉ e.org.failing) {after : Snapshot}
    (hafter : after = (isolate quarantine baseline carries e t).org.snapshot) :
    (isolate quarantine baseline carries e t).report =
      { attached := e.report.attached ++ added e.org.snapshot after t
        detached := e.report.detached ++ added after e.org.snapshot t
        failures := e.report.failures } := by
  obtain ⟨harranged, -, hdue⟩ := isolate_carries baseline hids hquarantine htarget hcarries hfail
  rw [← hafter] at harranged hdue
  have hafter : ∀ q, after.Carries t.id q ↔ q = quarantine ∨
      (e.org.snapshot.Carries t.id q ∧ isForeign quarantine baseline q = false) := fun q => by
    rw [hdue, if_pos rfl]
  have hcurrent := (Organization.policiesFor_eq_ok (o := e.org)).2 ⟨hfail, rfl⟩
  have hmine : isForeign quarantine baseline quarantine = false := by simp [isForeign]
  -- the policies that go first are carried, each once
  let ps := ((e.org.snapshot.policies.filter (·.isOn t.id)).map AttachedPolicy.policy).filter
    (isForeign quarantine baseline)
  have hps : ∀ p ∈ ps, e.org.snapshot.Carries t.id p := fun p hp =>
    Organization.mem_policiesFor.1 (List.mem_of_mem_filter hp)
  have honce : ps.Nodup := by
    have hnodup : e.org.snapshot.catalog.Nodup := (map_id_catalog e.org.snapshot ▸ hids).of_map
    exact hnodup.sublist (List.filter_sublist.trans (List.filter_sublist.map _))
  have hreport := detachAll_report honce hids hps hfail
  rw [foreign_eq hids hafter] at hreport
  simp only [isolate, hcurrent]
  split
  · rename_i hthere
    have hnone : added e.org.snapshot after t = [] := added_eq_nil fun q hq => by
      rcases (hafter q).1 hq with rfl | ⟨hon, -⟩
      · exact hcarries.1 hthere
      · exact hon
    rw [hreport, hnone, List.append_nil]
  · rename_i hnot
    have hoff : ¬ e.org.snapshot.Carries t.id quarantine := fun h => hnot (hcarries.2 h)
    obtain ⟨hone, hfailing, hfirst⟩ := detachAll_carries (e := e) (t := t) ps hids
      (fun p hp => mem_catalog_of_carries (hps p hp)) hfail
    have hgain : added e.org.snapshot after t = [(quarantine.name, t.name)] := by
      refine added_eq_singleton (harranged.policyIds hids) (harranged.catalog ▸ hquarantine)
        fun q => ?_
      rw [hafter]
      constructor
      · rintro ⟨hnot, rfl | ⟨hon, -⟩⟩
        · rfl
        · exact absurd hon hnot
      · rintro rfl
        exact ⟨hoff, .inl rfl⟩
    have hstill : (ps.foldl (detach t) e).org.snapshot.isTarget t.id = true :=
      (hone.isTarget t.id).trans htarget
    rw [attach_report (hone.policyIds hids) (hone.catalog ▸ hquarantine) hstill (hfailing ▸ hfail)
      fun h => hoff ((hfirst t.id quarantine).1 h).1, hreport, hgain]

/-- **The work on one target reports what the target gained and lost.** -/
theorem enforceOn_report (baseline : String) {carriers : List String}
    (hids : (e.org.snapshot.policies.map AttachedPolicy.id).Nodup)
    (hquarantine : quarantine ∈ e.org.snapshot.catalog)
    (htarget : e.org.snapshot.isTarget t.id = true)
    (hcarriers : carriers.contains t.id = true ↔ e.org.snapshot.Carries t.id quarantine)
    (hfail : t.id ∉ e.org.failing) {after : Snapshot}
    (hafter : after = (enforceOn quarantine baseline carriers e t).org.snapshot) :
    (enforceOn quarantine baseline carriers e t).report =
      { attached := e.report.attached ++ added e.org.snapshot after t
        detached := e.report.detached ++ added after e.org.snapshot t
        failures := e.report.failures } := by
  have hsame : enforceOn quarantine baseline carriers e t = e →
      (enforceOn quarantine baseline carriers e t).report =
        { attached := e.report.attached ++ added e.org.snapshot after t
          detached := e.report.detached ++ added after e.org.snapshot t
          failures := e.report.failures } := by
    intro h
    rw [h] at hafter
    rw [h, hafter, added_eq_nil fun _ => id]
    simp
  cases hreason : t.reason with
  | ignored => exact hsame (by simp only [enforceOn, hreason])
  | declared =>
    by_cases hthere : carriers.contains t.id = true
    · have hdone : enforceOn quarantine baseline carriers e t = e.detach t quarantine := by
        simp only [enforceOn, hreason, hthere, if_true]
      have hcarried := hcarriers.1 hthere
      obtain ⟨-, hcarries⟩ := Organization.carries_detachPolicy hids hquarantine hfail
      rw [← detach_org, ← hdone, ← hafter] at hcarries
      have hnone : added e.org.snapshot after t = [] :=
        added_eq_nil fun q hq => ((hcarries t.id q).1 hq).1
      have hlost : added after e.org.snapshot t = [(quarantine.name, t.name)] := by
        refine added_eq_singleton hids hquarantine fun q => ?_
        rw [hcarries]
        constructor
        · rintro ⟨hnot, hon⟩
          by_contra hne
          exact hnot ⟨hon, fun h => hne h.2⟩
        · rintro rfl
          exact ⟨fun h => h.2 ⟨rfl, rfl⟩, hcarried⟩
      rw [hdone, detach_report hids hfail hcarried, hnone, hlost, List.append_nil]
    · exact hsame (by simp only [enforceOn, hreason, hthere, Bool.false_eq_true, if_false])
  | undeclared =>
    simp only [enforceOn, hreason] at hafter ⊢
    exact isolate_report baseline hids hquarantine htarget hcarriers hfail hafter
  | rootAccount =>
    simp only [enforceOn, hreason] at hafter ⊢
    exact isolate_report baseline hids hquarantine htarget hcarriers hfail hafter
  | suspended =>
    simp only [enforceOn, hreason] at hafter ⊢
    exact isolate_report baseline hids hquarantine htarget hcarriers hfail hafter

/-! ### All targets -/

/-- The report of the work on targets lists what each of them gained and lost, and a failure only
if one of them is made to fail. -/
structure Reported (ts : List Target) (before after : Enforcement) : Prop where
  /-- What the targets gained is listed. -/
  attached : after.report.attached =
    before.report.attached ++ ts.flatMap (added before.org.snapshot after.org.snapshot)
  /-- What the targets lost is listed. -/
  detached : after.report.detached =
    before.report.detached ++ ts.flatMap (added after.org.snapshot before.org.snapshot)
  /-- Nothing else fails. -/
  failures : (∀ t ∈ ts, t.id ∉ before.org.failing) →
    after.report.failures = before.report.failures

/-- The work on one target reports what the target gained and lost, whether it is made to fail or
not. -/
theorem enforceOn_reported (baseline : String) {carriers : List String}
    (hids : (e.org.snapshot.policies.map AttachedPolicy.id).Nodup)
    (hquarantine : quarantine ∈ e.org.snapshot.catalog)
    (htarget : e.org.snapshot.isTarget t.id = true)
    (hcarriers : carriers.contains t.id = true ↔ e.org.snapshot.Carries t.id quarantine) :
    Reported [t] e (enforceOn quarantine baseline carriers e t) := by
  by_cases hfail : t.id ∈ e.org.failing
  · obtain ⟨hsnapshot, -, hattached, hdetached⟩ :=
      enforceOn_of_failing quarantine baseline carriers hfail
    have hnone : added e.org.snapshot e.org.snapshot t = [] := added_eq_nil fun _ => id
    refine ⟨?_, ?_, fun hall => absurd hfail (hall t (List.mem_singleton_self t))⟩
    · simp [hsnapshot, hattached, hnone]
    · simp [hsnapshot, hdetached, hnone]
  · have hreport := enforceOn_report baseline hids hquarantine htarget hcarriers hfail rfl
    refine ⟨?_, ?_, fun _ => ?_⟩
    · rw [hreport, List.flatMap_singleton]
    · rw [hreport, List.flatMap_singleton]
    · rw [hreport]

/-- **All of the work reports what all targets gained and lost.** -/
theorem foldl_enforceOn_reported (baseline : String) {carriers : List String} {ts : List Target}
    (h : Lined quarantine carriers ts e.org.snapshot) :
    Reported ts e (ts.foldl (enforceOn quarantine baseline carriers) e) := by
  induction ts generalizing e with
  | nil => exact ⟨by simp, by simp, fun _ => rfl⟩
  | cons t ts ih =>
    have htarget := h.targets t List.mem_cons_self
    have hcarriers := h.carriers t List.mem_cons_self
    obtain ⟨hone, hfailing₁, -⟩ := enforceOn_carries baseline h.ids h.present htarget hcarriers
    have hreport := enforceOn_reported baseline h.ids h.present htarget hcarriers
    have hrest := h.rest baseline
    have hother : ∀ u ∈ ts, ∀ q,
        (enforceOn quarantine baseline carriers e t).org.snapshot.Carries u.id q ↔
          e.org.snapshot.Carries u.id q := fun u hu => h.leaves baseline (h.ne hu)
    rw [List.foldl_cons]
    generalize enforceOn quarantine baseline carriers e t = e₁ at *
    have hlater := ih hrest
    obtain ⟨harranged, houtside, -⟩ := foldl_enforceOn_carries baseline hrest
    generalize ts.foldl (enforceOn quarantine baseline carriers) e₁ = after at *
    -- this target is left alone from now on, and the later ones were until now
    have hhere := houtside t.id (List.nodup_cons.1 h.once).1
    have hcatalog := harranged.catalog
    have hgained : ts.flatMap (added e₁.org.snapshot after.org.snapshot) =
        ts.flatMap (added e.org.snapshot after.org.snapshot) :=
      List.flatMap_congr fun u hu => added_congr rfl (hother u hu) fun _ => Iff.rfl
    have hlost : ts.flatMap (added after.org.snapshot e₁.org.snapshot) =
        ts.flatMap (added after.org.snapshot e.org.snapshot) :=
      List.flatMap_congr fun u hu => added_congr hone.catalog (fun _ => Iff.rfl) (hother u hu)
    have hgainedHere : added e.org.snapshot e₁.org.snapshot t =
        added e.org.snapshot after.org.snapshot t :=
      (added_congr hcatalog (fun _ => Iff.rfl) hhere).symm
    have hlostHere : added e₁.org.snapshot e.org.snapshot t =
        added after.org.snapshot e.org.snapshot t :=
      (added_congr rfl hhere fun _ => Iff.rfl).symm
    refine ⟨?_, ?_, fun hall => ?_⟩
    · rw [hlater.attached, hreport.attached, hgained, List.flatMap_singleton, hgainedHere,
        List.flatMap_cons, List.append_assoc]
    · rw [hlater.detached, hreport.detached, hlost, List.flatMap_singleton, hlostHere,
        List.flatMap_cons, List.append_assoc]
    · rw [List.forall_mem_cons] at hall
      rw [hlater.failures fun u hu => hfailing₁ ▸ hall.2 u hu,
        hreport.failures (List.forall_mem_singleton.2 hall.1)]

end Enforcement

open Enforcement

variable {c : Configuration} {quarantine : Policy} {p : Plan} {o : Organization} {e : Enforcement}

/-- Enforcement reports what the targets of the plan gained and lost. -/
theorem enforceWith_reported (h : enforceWith c quarantine p o = .ok e)
    (hids : (o.snapshot.policies.map AttachedPolicy.id).Nodup)
    (hquarantine : quarantine ∈ o.snapshot.catalog)
    (htargets : ∀ t ∈ p.targets, o.snapshot.isTarget t.id = true)
    (honce : (p.targets.map Target.id).Nodup) : Reported p.targets ⟨o, {}⟩ e := by
  obtain ⟨carriers, hcarriers, rfl⟩ := enforceWith_eq_ok.1 h
  exact foldl_enforceOn_reported c.options.baselinePolicy
    ⟨hids, hquarantine, htargets, honce, fun t _ => targetsOf_eq_ok hcarriers hids hquarantine t.id⟩

/-! ### The planned state -/

/-- Enforcement reached what a plan asks for and reports just that. -/
structure Enforced (c : Configuration) (quarantine : Policy) (p : Plan) (o : Organization)
    (e : Enforcement) : Prop where
  /-- A quarantined target carries the quarantine policy and, of what it carried before, what has
  the name of the baseline policy. -/
  quarantined : ∀ t ∈ p.quarantined, ∀ q, e.org.snapshot.Carries t.id q ↔
    q = quarantine ∨ (o.snapshot.Carries t.id q ∧ q.name = c.options.baselinePolicy)
  /-- A declared target lost the quarantine policy and nothing else. -/
  declared : ∀ t ∈ p.targets, t.reason = .declared → ∀ q,
    e.org.snapshot.Carries t.id q ↔ o.snapshot.Carries t.id q ∧ q.id ≠ quarantine.id
  /-- What the plan ignores or does not name carries what it carried before. -/
  untouched : ∀ id, (∀ t ∈ p.targets, t.id = id → t.reason = .ignored) → ∀ q,
    e.org.snapshot.Carries id q ↔ o.snapshot.Carries id q
  /-- Nothing but attachments changed. -/
  rearranged : Rearranged o.snapshot e.org.snapshot
  /-- The report lists the attachments that are new. -/
  attached : e.report.attached = p.targets.flatMap (added o.snapshot e.org.snapshot)
  /-- The report lists the attachments that are gone. -/
  detached : e.report.detached = p.targets.flatMap (added e.org.snapshot o.snapshot)
  /-- Nothing failed. -/
  failures : e.report.failures = []

/-- Of the policies that there are, only the quarantine policy has its identifier. -/
theorem id_eq_quarantine_iff (hids : (o.snapshot.policies.map AttachedPolicy.id).Nodup)
    (hquarantine : quarantine ∈ o.snapshot.catalog) {q : Policy} (hq : q ∈ o.snapshot.catalog) :
    q.id = quarantine.id ↔ q = quarantine := by
  refine ⟨fun heq => ?_, congrArg Policy.id⟩
  exact List.inj_on_of_nodup_map (map_id_catalog o.snapshot ▸ hids) hq hquarantine heq

/-- A quarantined target is due the quarantine policy and what it carried under the name of the
baseline policy. -/
theorem due_of_quarantined {baseline : String} {t : Target} {q : Policy}
    (hids : (o.snapshot.policies.map AttachedPolicy.id).Nodup)
    (hquarantine : quarantine ∈ o.snapshot.catalog) (hgoverned : t.governed = false) :
    Due quarantine baseline t.reason (o.snapshot.Carries t.id q) q ↔
      q = quarantine ∨ (o.snapshot.Carries t.id q ∧ q.name = baseline) := by
  have hforeign : o.snapshot.Carries t.id q →
      (isForeign quarantine baseline q = false ↔ q = quarantine ∨ q.name = baseline) := by
    intro hq
    rw [← id_eq_quarantine_iff hids hquarantine (mem_catalog_of_carries hq)]
    unfold isForeign
    by_cases heq : q.id = quarantine.id <;> simp [heq]
  have hmeans : q = quarantine ∨
      (o.snapshot.Carries t.id q ∧ isForeign quarantine baseline q = false) ↔
      q = quarantine ∨ (o.snapshot.Carries t.id q ∧ q.name = baseline) := by
    constructor
    · rintro (heq | ⟨hq, hkept⟩)
      · exact .inl heq
      · exact ((hforeign hq).1 hkept).imp_right fun hname => ⟨hq, hname⟩
    · rintro (heq | ⟨hq, hname⟩)
      · exact .inl heq
      · exact .inr ⟨hq, (hforeign hq).2 (.inr hname)⟩
  unfold Target.governed at hgoverned
  cases hreason : t.reason with
  | declared => simp [hreason, Reason.governs] at hgoverned
  | ignored => simp [hreason, Reason.governs] at hgoverned
  | undeclared => exact hmeans
  | rootAccount => exact hmeans
  | suspended => exact hmeans

/-- A declared target is due what it carried, without the quarantine policy. -/
theorem due_of_declared {baseline : String} {t : Target} {q : Policy}
    (hids : (o.snapshot.policies.map AttachedPolicy.id).Nodup)
    (hquarantine : quarantine ∈ o.snapshot.catalog) (hreason : t.reason = .declared) :
    Due quarantine baseline t.reason (o.snapshot.Carries t.id q) q ↔
      o.snapshot.Carries t.id q ∧ q.id ≠ quarantine.id := by
  rw [hreason]
  unfold Due
  refine and_congr_right fun hq => not_congr ?_
  exact (id_eq_quarantine_iff hids hquarantine (mem_catalog_of_carries hq)).symm

/-- Enforcing a plan whose targets are there reaches what the plan asks for. -/
theorem enforced_of_enforceWith (h : enforceWith c quarantine p o = .ok e)
    (hids : (o.snapshot.policies.map AttachedPolicy.id).Nodup)
    (hquarantine : quarantine ∈ o.snapshot.catalog)
    (htargets : ∀ t ∈ p.targets, o.snapshot.isTarget t.id = true)
    (honce : (p.targets.map Target.id).Nodup) (hfailing : o.failing = []) :
    Enforced c quarantine p o e := by
  obtain ⟨harranged, houtside, -⟩ := enforceWith_carries h hids hquarantine htargets honce
  have hreport := enforceWith_reported h hids hquarantine htargets honce
  have hdue {t : Target} (ht : t ∈ p.targets) (q : Policy) :=
    enforceWith_due h hids hquarantine htargets honce hfailing ht q
  refine ⟨fun t ht q => ?_, fun t ht hreason q => ?_, fun id hignored q => ?_, harranged,
    hreport.attached, hreport.detached, ?_⟩
  · obtain ⟨hin, hgoverned⟩ := List.mem_filter.1 ht
    exact (hdue hin q).trans (due_of_quarantined hids hquarantine (by simpa using hgoverned))
  · exact (hdue ht q).trans (due_of_declared hids hquarantine hreason)
  · by_cases hnamed : id ∈ p.targets.map Target.id
    · obtain ⟨t, ht, rfl⟩ := List.mem_map.1 hnamed
      rw [hdue ht, hignored t ht rfl]
      exact Iff.rfl
    · exact houtside id hnamed q
  · refine hreport.failures fun t _ => ?_
    rw [hfailing]
    exact List.not_mem_nil

/-- **Enforcement reaches exactly the planned state.** In an organization whose root, units,
accounts and policies have identifiers of their own, whose accounts have parents and in which
nothing is made to fail, the hierarchy can be read, its plan is enforced to the letter, and
enforcing the same plan again calls nothing. -/
theorem enforce_reaches_plan (c : Configuration) (o : Organization)
    (hroot : o.snapshot.root.isSome = true)
    (htargets : (o.snapshot.root.toList.map Root.id ++ o.snapshot.ous.map OuNode.id ++
      o.snapshot.accounts.map LiveAccount.id).Nodup)
    (hparents : ∀ a ∈ o.snapshot.accounts, o.snapshot.isParent a.parent = true)
    (hids : (o.snapshot.policies.map AttachedPolicy.id).Nodup)
    (hpresent : ∃ q ∈ o.snapshot.catalog, q.name = c.options.quarantinePolicy)
    (hfailing : o.failing = []) :
    ∃ t quarantine e, OrgTree.read o = .ok t ∧ quarantinePolicy c o = .ok quarantine ∧
      enforce c (Plan.compute c t) o = .ok e ∧ Enforced c quarantine (Plan.compute c t) o e ∧
      enforce c (Plan.compute c t) e.org = .ok ⟨e.org, {}⟩ := by
  obtain ⟨t, hread, -, hplan⟩ := Plan.exists_read hroot htargets hparents
  obtain ⟨hthere, honce⟩ := hplan c
  -- the policy that the configuration names is found, so enforcement starts
  obtain ⟨quarantine, hfound⟩ := exists_quarantinePolicy hpresent
  obtain ⟨hquarantine, -⟩ := quarantinePolicy_eq_ok hfound
  obtain ⟨e, he⟩ := exists_enforceWith c (Plan.compute c t) hids hquarantine
  have hdone := enforced_of_enforceWith he hids hquarantine hthere honce hfailing
  have hstill : e.org.failing = [] := (issued_enforceWith he).failing_eq.trans hfailing
  have hsilent := enforceWith_silent (hdone.rearranged.policyIds hids)
    (hdone.rearranged.catalog ▸ hquarantine) hstill
    (enforceWith_settles he hids hquarantine hthere honce hfailing)
  refine ⟨t, quarantine, e, hread, hfound, ?_, hdone, ?_⟩
  · unfold enforce
    rw [hfound]
    exact he
  · unfold enforce
    rw [quarantinePolicy_congr hdone.rearranged.catalog, hfound]
    exact hsilent

/-- A declared, an ignored and an undeclared unit and an account under the root, each with a policy
that may have to go. -/
def mixedTargets : Organization where
  snapshot :=
    { root := some ⟨"r-1", "Root"⟩
      ous := [⟨"ou-1", "core", "r-1"⟩, ⟨"ou-2", "apps", "r-1"⟩, ⟨"ou-3", "Sandbox", "r-1"⟩]
      accounts := [⟨"9", "Stray", "stray@x", .active, "r-1"⟩]
      policies :=
        [⟨"p-q", "Quarantine-New-Object", ["ou-1"]⟩, ⟨"p-b", "FullAWSAccess", ["ou-2", "9"]⟩,
          ⟨"p-x", "Guardrails", ["ou-1", "ou-2", "ou-3"]⟩] }

/-- A configuration that declares one unit and ignores another. -/
def coreAndSandbox : Configuration :=
  ⟨{ ignoredOus := ["Sandbox"] }, .ofList [("core/Net", {})], .empty, .empty⟩

/-- All four kinds of targets at once. -/
theorem enforce_reaches_plan_mixed_targets :
    mixedTargets.snapshot.root.isSome = true ∧
      (mixedTargets.snapshot.root.toList.map Root.id ++ mixedTargets.snapshot.ous.map OuNode.id ++
        mixedTargets.snapshot.accounts.map LiveAccount.id).Nodup ∧
      (∀ a ∈ mixedTargets.snapshot.accounts, mixedTargets.snapshot.isParent a.parent = true) ∧
      (mixedTargets.snapshot.policies.map AttachedPolicy.id).Nodup ∧
      (∃ q ∈ mixedTargets.snapshot.catalog, q.name = coreAndSandbox.options.quarantinePolicy) ∧
      mixedTargets.failing = [] ∧
      ∃ t quarantine e, OrgTree.read mixedTargets = .ok t ∧
        quarantinePolicy coreAndSandbox mixedTargets = .ok quarantine ∧
        enforce coreAndSandbox (Plan.compute coreAndSandbox t) mixedTargets = .ok e ∧
        Enforced coreAndSandbox quarantine (Plan.compute coreAndSandbox t) mixedTargets e ∧
        enforce coreAndSandbox (Plan.compute coreAndSandbox t) e.org = .ok ⟨e.org, {}⟩ := by
  have hroot : mixedTargets.snapshot.root.isSome = true := rfl
  have htargets : (mixedTargets.snapshot.root.toList.map Root.id ++
      mixedTargets.snapshot.ous.map OuNode.id ++
      mixedTargets.snapshot.accounts.map LiveAccount.id).Nodup := by decide
  have hparents : ∀ a ∈ mixedTargets.snapshot.accounts,
      mixedTargets.snapshot.isParent a.parent = true := by decide
  have hids : (mixedTargets.snapshot.policies.map AttachedPolicy.id).Nodup := by decide
  have hpresent : ∃ q ∈ mixedTargets.snapshot.catalog,
      q.name = coreAndSandbox.options.quarantinePolicy := by decide
  exact ⟨hroot, htargets, hparents, hids, hpresent, rfl,
    enforce_reaches_plan coreAndSandbox mixedTargets hroot htargets hparents hids hpresent rfl⟩

end OrgAlign.Guard
