import OrgAlign.Guard.Plan
import OrgAlign.Proofs.Org.InStep

/-!
# The targets of a plan

A plan made for a hierarchy that is in step with the organization has the accounts under the root
and the top-level units as its targets. Main statements:

* `Plan.isTarget_of_mem`: every target is there;
* `Plan.nodup_targets`: no target comes twice;
* `Plan.exists_read`: both, for the hierarchy that is read from an organization;
* `Plan.quarantined_iff`: which top-level units are quarantined.
-/

namespace OrgAlign.Guard.Plan

open Config Org

variable {s : Snapshot} {t : OrgTree} {c : Configuration}

/-- A target is an account under the root or a top-level unit. -/
theorem mem_targets {x : Target} : x ∈ (compute c t).targets ↔
    (∃ a ∈ t.rootAccounts, x = ⟨a.id, a.name, .account, .rootAccount⟩) ∨
      ∃ ou ∈ t.topLevelOus, x = ⟨ou.id, ou.name, .organizationalUnit, reasonFor c ou.name⟩ := by
  unfold compute
  simp only [List.mem_append, List.mem_map, eq_comm]

/-- Every target of a plan is there. -/
theorem isTarget_of_mem (h : InStep s t) {x : Target} (hx : x ∈ (compute c t).targets) :
    s.isTarget x.id = true := by
  unfold Snapshot.isTarget
  rw [Bool.or_eq_true]
  rcases mem_targets.1 hx with ⟨a, ha, rfl⟩ | ⟨ou, hou, rfl⟩
  · exact .inr (List.any_eq_true.2 ⟨a, (h.mem_rootAccounts.1 ha).1, beq_self_eq_true _⟩)
  · exact .inl (h.charts.isParent_of_mem (List.mem_of_mem_filter hou))

/-- No target of a plan comes twice, where no account has the identifier of a unit. -/
theorem nodup_targets (h : InStep s t) (hids : (s.ous.map OuNode.id).Nodup)
    (hapart : ∀ a ∈ s.accounts, ∀ ou ∈ t.ous, a.id ≠ ou.id) :
    ((compute c t).targets.map Target.id).Nodup := by
  have htargets : (compute c t).targets.map Target.id =
      t.rootAccounts.map LiveAccount.id ++ t.topLevelOus.map LiveOu.id := by
    unfold compute
    rw [List.map_append, List.map_map, List.map_map]
    rfl
  rw [htargets]
  refine List.Nodup.append (h.once t.rootId) ?_ ?_
  · exact (h.charts.map_id_ous hids).sublist (List.filter_sublist.map LiveOu.id)
  · intro id hroot htop
    obtain ⟨a, ha, rfl⟩ := List.mem_map.1 hroot
    obtain ⟨ou, hou, heq⟩ := List.mem_map.1 htop
    exact hapart a (h.mem_rootAccounts.1 ha).1 ou (List.mem_of_mem_filter hou) heq.symm

/-- **The hierarchy of an organization can be read, and the targets of a plan for it are there, each
once**, if its root, units and accounts have identifiers of their own and its accounts have
parents. -/
theorem exists_read {o : Organization} (hroot : o.snapshot.root.isSome = true)
    (htargets : (o.snapshot.root.toList.map Root.id ++ o.snapshot.ous.map OuNode.id ++
      o.snapshot.accounts.map LiveAccount.id).Nodup)
    (hparents : ∀ a ∈ o.snapshot.accounts, o.snapshot.isParent a.parent = true) :
    ∃ t, OrgTree.read o = .ok t ∧ InStep o.snapshot t ∧ ∀ c,
      (∀ x ∈ (compute c t).targets, o.snapshot.isTarget x.id = true) ∧
        ((compute c t).targets.map Target.id).Nodup := by
  obtain ⟨hfront, haccounts, hapart⟩ := List.nodup_append.1 htargets
  have hous : (o.snapshot.ous.map OuNode.id).Nodup := (List.nodup_append.1 hfront).2.1
  obtain ⟨t, hread, hstep⟩ := inStep_read_of_ids hroot hous ⟨haccounts, hparents⟩
  refine ⟨t, hread, hstep, fun c => ⟨fun x hx => isTarget_of_mem hstep hx, ?_⟩⟩
  refine nodup_targets hstep hous fun a ha ou hou heq => ?_
  rw [hstep.ous] at hou
  obtain ⟨node, hnode, rfl⟩ := List.mem_map.1 hou
  exact hapart node.id (List.mem_append_right _ (List.mem_map_of_mem hnode)) a.id
    (List.mem_map_of_mem ha) heq.symm

/-! ### Quarantined units -/

/-- A top-level unit is not governed iff it is the one of suspended accounts, or it is not ignored
and no reference begins with its name. -/
theorem governs_reasonFor_eq_false {name : String} : (reasonFor c name).governs = false ↔
    name = c.options.suspendedOu ∨ c.options.isIgnored name = false ∧
      ∀ reference ∈ c.declaredPaths, Path.topLevel reference ≠ name := by
  have hdeclared : (declaredTops c).contains name = true ↔
      ∃ reference ∈ c.declaredPaths, Path.topLevel reference = name := by
    unfold declaredTops
    rw [List.contains_iff_mem, List.mem_map]
  unfold reasonFor
  split
  · rename_i hsuspended
    exact iff_of_true rfl (.inl hsuspended)
  rename_i hother
  split
  · rename_i hignored
    refine iff_of_false nofun ?_
    rintro (hsuspended | ⟨hnot, -⟩)
    · exact hother hsuspended
    · rw [hignored] at hnot
      cases hnot
  rename_i hnot
  split
  · rename_i hcontains
    obtain ⟨reference, hmem, htop⟩ := hdeclared.1 hcontains
    refine iff_of_false nofun ?_
    rintro (hsuspended | ⟨-, hnone⟩)
    · exact hother hsuspended
    · exact hnone reference hmem htop
  · rename_i hcontains
    refine iff_of_true rfl (.inr ⟨Bool.not_eq_true _ ▸ hnot, fun reference hmem htop => ?_⟩)
    exact hcontains (hdeclared.2 ⟨reference, hmem, htop⟩)

/-- **Which top-level units are quarantined**, where no account has the identifier of a unit. -/
theorem quarantined_iff (h : Charts s t) (hids : (s.ous.map OuNode.id).Nodup) {node : OuNode}
    (hnode : node ∈ s.ous) (htop : (s.located node).isTopLevel = true)
    (hapart : ∀ a ∈ t.rootAccounts, a.id ≠ node.id) :
    node.id ∈ (compute c t).quarantined.map Target.id ↔
      (reasonFor c node.name).governs = false := by
  unfold quarantined
  simp only [List.mem_map, List.mem_filter, mem_targets, Bool.not_eq_true']
  constructor
  · rintro ⟨x, ⟨⟨a, ha, rfl⟩ | ⟨ou, hou, rfl⟩, hreason⟩, hid⟩
    · exact absurd hid (hapart a ha)
    · have hmem := List.mem_of_mem_filter hou
      rw [h.ous] at hmem
      obtain ⟨other, hother, rfl⟩ := List.mem_map.1 hmem
      rwa [← List.inj_on_of_nodup_map hids hother hnode hid]
  · intro hreason
    have hou : s.located node ∈ t.topLevelOus :=
      List.mem_filter.2 ⟨h.ous ▸ List.mem_map_of_mem hnode, htop⟩
    exact ⟨_, ⟨.inr ⟨_, hou, rfl⟩, hreason⟩, rfl⟩

end OrgAlign.Guard.Plan
