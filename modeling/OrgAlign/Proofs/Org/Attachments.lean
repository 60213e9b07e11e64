import OrgAlign.Proofs.Org.InStep

/-!
# What policies are attached to

Attaching a policy to a target and detaching it from one change that pair alone. Main statements:

* `Snapshot.Carries`, `Snapshot.Rearranged`: what a target carries, and what stays when only that
  changes;
* `carries_attachPolicy`, `carries_detachPolicy`: what targets carry afterwards;
* `Organization.policiesFor_eq_ok`: listing a target's policies;
* `read_rearranged`: the hierarchy that is read does not depend on the policies.
-/

namespace OrgAlign.Org

namespace Snapshot

/-- The policies without what they are attached to. -/
def catalog (s : Snapshot) : List Policy := s.policies.map AttachedPolicy.policy

/-- A policy is attached to a target. -/
def Carries (s : Snapshot) (target : String) (p : Policy) : Prop :=
  ∃ q ∈ s.policies, q.policy = p ∧ q.isOn target = true

instance (s : Snapshot) (target : String) (p : Policy) : Decidable (s.Carries target p) :=
  inferInstanceAs (Decidable (∃ q ∈ s.policies, q.policy = p ∧ q.isOn target = true))

/-- What a target carries is in the catalog. -/
theorem mem_catalog_of_carries {s : Snapshot} {target : String} {p : Policy}
    (h : s.Carries target p) : p ∈ s.catalog := by
  obtain ⟨q, hq, rfl, -⟩ := h
  exact List.mem_map_of_mem hq

/-- Nothing differs but what policies are attached to. -/
structure Rearranged (s s' : Snapshot) : Prop where
  /-- The root stayed. -/
  root : s'.root = s.root
  /-- The units stayed. -/
  ous : s'.ous = s.ous
  /-- The accounts stayed. -/
  accounts : s'.accounts = s.accounts
  /-- The policies stayed. -/
  catalog : s'.catalog = s.catalog

variable {s s' s'' : Snapshot}

theorem Rearranged.refl (s : Snapshot) : Rearranged s s := ⟨rfl, rfl, rfl, rfl⟩

theorem Rearranged.trans (h : Rearranged s s') (h' : Rearranged s' s'') : Rearranged s s'' :=
  ⟨h'.root.trans h.root, h'.ous.trans h.ous, h'.accounts.trans h.accounts,
    h'.catalog.trans h.catalog⟩

/-- The same identifiers are targets. -/
theorem Rearranged.isTarget (h : Rearranged s s') (id : String) :
    s'.isTarget id = s.isTarget id := by
  unfold Snapshot.isTarget isParent isRoot isOu
  rw [h.root, h.ous, h.accounts]

/-- The policies' identifiers are those of the catalog. -/
theorem map_id_catalog (s : Snapshot) :
    s.catalog.map Policy.id = s.policies.map AttachedPolicy.id := by
  unfold catalog
  rw [List.map_map]
  rfl

/-- Policies keep identifiers of their own. -/
theorem Rearranged.policyIds (h : Rearranged s s')
    (hids : (s.policies.map AttachedPolicy.id).Nodup) :
    (s'.policies.map AttachedPolicy.id).Nodup := by
  rw [← map_id_catalog, h.catalog, map_id_catalog]
  exact hids

/-- Only the policies can differ. -/
theorem Rearranged.eq (h : Rearranged s s') : s' = { s with policies := s'.policies } := by
  obtain ⟨root, ous, accounts, policies⟩ := s'
  obtain ⟨rfl, rfl, rfl, -⟩ := h
  rfl

/-- The hierarchy stays well-formed. -/
theorem Rearranged.rooted (h : Rearranged s s') (hs : s.Rooted) : s'.Rooted := by
  rw [h.eq]
  exact ⟨hs.root, hs.rootApart, hs.ids, hs.parents, hs.acyclic⟩

/-- So do the accounts in it. -/
theorem Rearranged.housed (h : Rearranged s s') (hs : s.Housed) : s'.Housed := by
  rw [h.eq]
  exact ⟨hs.accountIds, hs.accountParents⟩

/-- A tree that shows the hierarchy still shows it. -/
theorem Rearranged.inStep {t : OrgTree} (h : Rearranged s s') (ht : InStep s t) : InStep s' t := by
  have hlocated : s'.located = s.located := located_congr h.ous
  refine ⟨?_, ?_, ht.sorted, fun p => ?_, fun p a => ?_, ht.once⟩
  · rw [h.root]
    exact ht.root
  · rw [hlocated, h.ous]
    exact ht.ous
  · rw [h.eq]
    exact ht.keys p
  · rw [h.accounts]
    exact ht.accounts p a

/-- The snapshot with the targets of one policy changed. -/
def retarget (s : Snapshot) (policy : String) (f : List String → List String) : Snapshot :=
  { s with
    policies := s.policies.map fun p =>
      if p.id = policy then { p with targets := f p.targets } else p }

theorem rearranged_retarget (s : Snapshot) (policy : String) (f : List String → List String) :
    Rearranged s (s.retarget policy f) := by
  refine ⟨rfl, rfl, rfl, ?_⟩
  unfold catalog retarget
  rw [List.map_map]
  refine List.map_congr_left fun p _ => ?_
  simp only [Function.comp_apply]
  split <;> rfl

/-- After a policy's targets changed, a target carries that policy as changed, and the others as
before. -/
theorem carries_retarget (hids : (s.policies.map AttachedPolicy.id).Nodup) {p : AttachedPolicy}
    (hp : p ∈ s.policies) (f : List String → List String) (target : String) (q : Policy) :
    (s.retarget p.id f).Carries target q ↔
      (q = p.policy ∧ target ∈ f p.targets) ∨ (q ≠ p.policy ∧ s.Carries target q) := by
  unfold Carries retarget AttachedPolicy.isOn
  simp only [List.mem_map, exists_exists_and_eq_and, List.contains_iff_mem]
  constructor
  · rintro ⟨r, hr, hpolicy, hon⟩
    by_cases hid : r.id = p.id
    · obtain rfl : r = p := List.inj_on_of_nodup_map hids hr hp hid
      rw [if_pos rfl] at hpolicy hon
      exact .inl ⟨hpolicy.symm, hon⟩
    · rw [if_neg hid] at hpolicy hon
      refine .inr ⟨fun hq => hid ?_, r, hr, hpolicy, hon⟩
      exact congrArg Policy.id (hpolicy.trans hq)
  · rintro (⟨rfl, hon⟩ | ⟨hne, r, hr, hpolicy, hon⟩)
    · refine ⟨p, hp, ?_⟩
      rw [if_pos rfl]
      exact ⟨rfl, hon⟩
    · refine ⟨r, hr, ?_⟩
      have hid : r.id ≠ p.id := by
        intro hid
        rw [List.inj_on_of_nodup_map hids hr hp hid] at hpolicy
        exact hne hpolicy.symm
      rw [if_neg hid]
      exact ⟨hpolicy, hon⟩

/-- The policy of the catalog with an identifier. -/
theorem find?_policy (hids : (s.policies.map AttachedPolicy.id).Nodup) {p : AttachedPolicy}
    (hp : p ∈ s.policies) : s.policies.find? (·.id == p.id) = some p :=
  find?_of_nodup hids hp

/-- A policy carries a target iff it is on it. -/
theorem carries_iff_isOn (hids : (s.policies.map AttachedPolicy.id).Nodup) {p : AttachedPolicy}
    (hp : p ∈ s.policies) {target : String} :
    s.Carries target p.policy ↔ p.isOn target = true := by
  refine ⟨?_, fun h => ⟨p, hp, rfl, h⟩⟩
  rintro ⟨q, hq, hpolicy, hon⟩
  rwa [List.inj_on_of_nodup_map hids hq hp (congrArg Policy.id hpolicy)] at hon

end Snapshot

namespace Organization

open Snapshot

variable {o : Organization}

/-! ### Attaching and detaching -/

/-- Attaching a policy changes nothing but what policies are attached to. -/
theorem rearranged_attachPolicy (o : Organization) (policy target : String) :
    Rearranged o.snapshot (o.attachPolicy policy target).2.snapshot := by
  rcases o.attachPolicy_cases policy target with ⟨e, h⟩ | ⟨s, hs, h⟩
  · rw [h]
    exact Rearranged.refl _
  · rw [h]
    unfold attached at hs
    split at hs
    · cases hs
    split at hs
    · cases hs
    split at hs
    · cases hs
    · cases hs
      refine ⟨rfl, rfl, rfl, map_updateFirst AttachedPolicy.policy ?_ _⟩
      exact fun _ => rfl

/-- Detaching a policy changes nothing but what policies are attached to. -/
theorem rearranged_detachPolicy (o : Organization) (policy target : String) :
    Rearranged o.snapshot (o.detachPolicy policy target).2.snapshot := by
  rcases o.detachPolicy_cases policy target with ⟨e, h⟩ | ⟨s, hs, h⟩
  · rw [h]
    exact Rearranged.refl _
  · rw [h]
    unfold detached at hs
    split at hs
    · cases hs
    split at hs
    · cases hs
      refine ⟨rfl, rfl, rfl, map_updateFirst AttachedPolicy.policy ?_ _⟩
      exact fun _ => rfl
    · cases hs

/-- A call about a target that is not made to fail is not refused. -/
theorem available_target {op : Operation} {target : String} (h : target ∉ o.failing) (c : Call) :
    (o.record c).unavailable? op [target] = none := by
  rw [unavailable?_eq_none]
  intro x hx
  rwa [List.mem_singleton.1 hx]

/-- What attaching a policy to a target leaves: the policy is on the target, and all else as it
was. -/
theorem carries_attachPolicy (hids : (o.snapshot.policies.map AttachedPolicy.id).Nodup)
    {p : Policy} (hp : p ∈ o.snapshot.catalog) {target : String}
    (htarget : o.snapshot.isTarget target = true) (hfail : target ∉ o.failing) :
    Rearranged o.snapshot (o.attachPolicy p.id target).2.snapshot ∧
      ∀ x q, (o.attachPolicy p.id target).2.snapshot.Carries x q ↔
        o.snapshot.Carries x q ∨ (x = target ∧ q = p) := by
  obtain ⟨r, hr, rfl⟩ := List.mem_map.1 hp
  have hstate : (o.attachPolicy r.id target).2.snapshot =
      if r.isOn target then o.snapshot
      else o.snapshot.retarget r.id fun targets => targets ++ [target] := by
    have hsnapshot : (o.record (.attachPolicy r.id target)).snapshot = o.snapshot := rfl
    simp only [attachPolicy, available_target hfail, hsnapshot, attached, htarget,
      find?_policy hids hr]
    cases r.isOn target with
    | true => rfl
    | false => simp [commit, retarget, updateFirst_eq_map hids]
  change Rearranged o.snapshot (o.attachPolicy r.id target).2.snapshot ∧ ∀ x q,
    (o.attachPolicy r.id target).2.snapshot.Carries x q ↔ _
  rw [hstate]
  split
  · rename_i hon
    refine ⟨Rearranged.refl _, fun x q => ⟨.inl, ?_⟩⟩
    rintro (h | ⟨rfl, rfl⟩)
    · exact h
    · exact (carries_iff_isOn hids hr).2 hon
  · refine ⟨rearranged_retarget _ _ _, fun x q => ?_⟩
    rw [carries_retarget hids hr]
    by_cases hq : q = r.policy
    · subst hq
      simp [carries_iff_isOn hids hr, AttachedPolicy.isOn]
    · simp [hq]

/-- What detaching a policy from a target leaves: the policy is not on the target, and all else is
as it was. -/
theorem carries_detachPolicy (hids : (o.snapshot.policies.map AttachedPolicy.id).Nodup)
    {p : Policy} (hp : p ∈ o.snapshot.catalog) {target : String} (hfail : target ∉ o.failing) :
    Rearranged o.snapshot (o.detachPolicy p.id target).2.snapshot ∧
      ∀ x q, (o.detachPolicy p.id target).2.snapshot.Carries x q ↔
        o.snapshot.Carries x q ∧ ¬ (x = target ∧ q = p) := by
  obtain ⟨r, hr, rfl⟩ := List.mem_map.1 hp
  have hstate : (o.detachPolicy r.id target).2.snapshot =
      if r.isOn target then o.snapshot.retarget r.id fun targets => targets.filter (· ≠ target)
      else o.snapshot := by
    have hsnapshot : (o.record (.detachPolicy r.id target)).snapshot = o.snapshot := rfl
    simp only [detachPolicy, available_target hfail, hsnapshot, detached, find?_policy hids hr]
    cases r.isOn target with
    | true => simp [commit, retarget, updateFirst_eq_map hids]
    | false => rfl
  change Rearranged o.snapshot (o.detachPolicy r.id target).2.snapshot ∧ ∀ x q,
    (o.detachPolicy r.id target).2.snapshot.Carries x q ↔ _
  rw [hstate]
  split
  · refine ⟨rearranged_retarget _ _ _, fun x q => ?_⟩
    rw [carries_retarget hids hr]
    by_cases hq : q = r.policy
    · subst hq
      simp [carries_iff_isOn hids hr, AttachedPolicy.isOn]
    · simp [hq]
  · rename_i hoff
    refine ⟨Rearranged.refl _, fun x q => ⟨fun h => ⟨h, ?_⟩, And.left⟩⟩
    rintro ⟨rfl, rfl⟩
    exact hoff ((carries_iff_isOn hids hr).1 h)

/-- Attaching a policy to a target that does not carry it succeeds. -/
theorem attachPolicy_succeeds (hids : (o.snapshot.policies.map AttachedPolicy.id).Nodup)
    {p : Policy} (hp : p ∈ o.snapshot.catalog) {target : String}
    (htarget : o.snapshot.isTarget target = true) (hfail : target ∉ o.failing)
    (hnot : ¬ o.snapshot.Carries target p) : (o.attachPolicy p.id target).1 = .ok () := by
  obtain ⟨r, hr, rfl⟩ := List.mem_map.1 hp
  have hoff : r.isOn target = false := by
    rw [← Bool.not_eq_true]
    exact mt (carries_iff_isOn hids hr).2 hnot
  have hsnapshot : (o.record (.attachPolicy r.id target)).snapshot = o.snapshot := rfl
  change (o.attachPolicy r.id target).1 = .ok ()
  simp only [attachPolicy, available_target hfail, hsnapshot, attached, htarget,
    find?_policy hids hr, hoff]
  rfl

/-- Detaching a policy from a target that carries it succeeds. -/
theorem detachPolicy_succeeds (hids : (o.snapshot.policies.map AttachedPolicy.id).Nodup)
    {p : Policy} {target : String} (hfail : target ∉ o.failing)
    (hp : o.snapshot.Carries target p) : (o.detachPolicy p.id target).1 = .ok () := by
  obtain ⟨r, hr, rfl, hon⟩ := hp
  have hsnapshot : (o.record (.detachPolicy r.id target)).snapshot = o.snapshot := rfl
  change (o.detachPolicy r.id target).1 = .ok ()
  simp only [detachPolicy, available_target hfail, hsnapshot, detached, find?_policy hids hr, hon]
  rfl

/-- Detaching from a target that is made to fail is refused. -/
theorem detachPolicy_of_failing (policy : String) {target : String} (h : target ∈ o.failing) :
    ∃ e, o.detachPolicy policy target =
      (.error e, o.after (.detachPolicy policy target) o.snapshot) := by
  rcases o.detachPolicy_cases policy target with hrefused | ⟨s, -, ho⟩
  · exact hrefused
  · exfalso
    cases hun : (o.record (.detachPolicy policy target)).unavailable? .detachPolicy [target] with
    | none => exact (unavailable?_eq_none.1 hun) target (List.mem_singleton_self _) h
    | some e =>
      simp only [detachPolicy, hun] at ho
      cases ho

/-! ### Listing -/

/-- Listing the policies of a target gives those that it carries, unless that is made to fail. -/
theorem policiesFor_eq_ok {target : String} {current : List Policy} :
    o.policiesFor target = .ok current ↔ target ∉ o.failing ∧
      current = (o.snapshot.policies.filter (·.isOn target)).map AttachedPolicy.policy := by
  unfold policiesFor
  cases hun : o.unavailable? .listPoliciesForTarget [target] with
  | none =>
    have hfail := unavailable?_eq_none.1 hun target (List.mem_singleton_self _)
    simp [hfail, eq_comm]
  | some e =>
    have hfail : target ∈ o.failing := by
      by_contra hnot
      rw [unavailable?_eq_none.2 fun x hx => by rwa [List.mem_singleton.1 hx]] at hun
      cases hun
    simp [hfail]

/-- A policy is listed iff the target carries it. -/
theorem mem_policiesFor {target : String} {p : Policy} :
    p ∈ (o.snapshot.policies.filter (·.isOn target)).map AttachedPolicy.policy ↔
      o.snapshot.Carries target p := by
  unfold Carries
  simp only [List.mem_map, List.mem_filter]
  constructor
  · rintro ⟨q, ⟨hq, hon⟩, rfl⟩
    exact ⟨q, hq, rfl, hon⟩
  · rintro ⟨q, hq, rfl, hon⟩
    exact ⟨q, ⟨hq, hon⟩, rfl⟩

end Organization

/-! ### Reading -/

theorem readBuckets_congr {o o' : Organization} (h : o'.accountsUnder = o.accountsUnder)
    (parents : List String) (bs : Buckets) :
    OrgTree.readBuckets o' parents bs = OrgTree.readBuckets o parents bs := by
  induction parents generalizing bs with
  | nil => rfl
  | cons parent parents ih =>
    unfold OrgTree.readBuckets
    rw [h]
    split
    · exact ih _
    · rfl

/-- Reading gives the same hierarchy whatever policies are attached to. -/
theorem read_rearranged {o o' : Organization} (h : Snapshot.Rearranged o.snapshot o'.snapshot) :
    OrgTree.read o' = OrgTree.read o := by
  have hroots : o'.roots = o.roots := congrArg Option.toList h.root
  have hou : o'.ouWithPath = o.ouWithPath := by
    funext id
    unfold Organization.ouWithPath Snapshot.ou?
    rw [h.ous, Snapshot.located_congr h.ous]
  have haccounts : o'.accountsUnder = o.accountsUnder := by
    funext parent
    unfold Organization.accountsUnder
    rw [h.eq]
    rfl
  unfold OrgTree.read
  rw [hroots, hou, h.ous]
  simp only [readBuckets_congr haccounts]
end OrgAlign.Org
