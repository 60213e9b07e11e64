import OrgAlign.Proofs.Guard.Plan
import OrgAlign.Proofs.Org.Places

/-!
# The plan and what is right under the root

The plan takes a unit for a top-level one when its path is its name. Where names can stand in a
path, those are the units whose parent is the root, whether siblings share a name or not. Main
statements:

* `topLevelOus_eq`, `rootAccounts_perm`: what a hierarchy that is read has at the top;
* `Plan.mem_governed_iff`: only units are governed, and which;
* `Partitions`, `compute_partitions`: what is right under the root is governed or quarantined, and
  nothing is both.
-/

namespace OrgAlign.Guard

open Config Org Snapshot

/-! ### Right under the root -/

/-- What is right under the root, the accounts first: what it is, its identifier and its name. -/
def atTop (s : Snapshot) : List (TargetKind × String × String) :=
  ((s.accounts.filter fun a => s.isRoot a.parent).map fun a => (.account, a.id, a.name)) ++
    (s.ous.filter fun o => s.isRoot o.parent).map fun o => (.organizationalUnit, o.id, o.name)

section

variable {s : Snapshot} {t : OrgTree}

/-- The root of the tree is the root of the snapshot. -/
theorem isRoot_iff_eq (h : Charts s t) {id : String} : s.isRoot id = true ↔ id = t.rootId := by
  obtain ⟨r, hr, hid⟩ := h.root_eq
  rw [isRoot_iff, hr, ← hid]
  simp [eq_comm]

/-- The top-level units are the units whose parent is the root. -/
theorem topLevelOus_eq (hs : s.Linked) (hn : ∀ o ∈ s.ous, Path.IsName o.name) (h : Charts s t) :
    t.topLevelOus = (s.ous.filter fun o => s.isRoot o.parent).map s.located := by
  unfold OrgTree.topLevelOus
  rw [h.ous, List.filter_map]
  refine congrArg (List.map s.located) (List.filter_congr fun o ho => ?_)
  rw [Function.comp_apply, Bool.eq_iff_iff]
  exact hs.isTopLevel_iff hn ho

/-- The accounts under the root are those whose parent it is, each once. -/
theorem rootAccounts_perm (h : InStep s t) (hids : (s.accounts.map LiveAccount.id).Nodup) :
    t.rootAccounts.Perm (s.accounts.filter fun a => s.isRoot a.parent) := by
  refine (List.perm_ext_iff_of_nodup (h.once t.rootId).of_map (hids.of_map.filter _)).2 ?_
  intro a
  rw [List.mem_filter, isRoot_iff_eq h.charts]
  exact h.mem_rootAccounts

end

/-! ### Two kinds of targets -/

namespace Plan

variable {p : Plan} {c : Configuration} {t : OrgTree}

/-- Every target is governed or quarantined. -/
theorem mem_governed_or_quarantined {id : String} :
    id ∈ p.governed.map Target.id ∨ id ∈ p.quarantined.map Target.id ↔
      id ∈ p.targets.map Target.id := by
  unfold governed quarantined
  rw [← List.mem_append, ← List.map_append]
  exact ((List.filter_append_perm Target.governed p.targets).map Target.id).mem_iff

/-- None is both, where no target comes twice. -/
theorem disjoint_governed_quarantined (honce : (p.targets.map Target.id).Nodup) :
    (p.governed.map Target.id).Disjoint (p.quarantined.map Target.id) := by
  intro id hgoverned hquarantined
  obtain ⟨x, hx, rfl⟩ := List.mem_map.1 hgoverned
  obtain ⟨y, hy, hid⟩ := List.mem_map.1 hquarantined
  obtain ⟨hxin, hxgoverned⟩ := List.mem_filter.1 hx
  obtain ⟨hyin, hyfree⟩ := List.mem_filter.1 hy
  obtain rfl : y = x := List.inj_on_of_nodup_map honce hyin hxin hid
  rw [hxgoverned] at hyfree
  cases hyfree

/-- Only top-level units are governed, and those by their names. -/
theorem mem_governed_iff {id : String} : id ∈ (compute c t).governed.map Target.id ↔
    ∃ ou ∈ t.topLevelOus, ou.id = id ∧ (reasonFor c ou.name).governs = true := by
  unfold governed
  simp only [List.mem_map, List.mem_filter, mem_targets]
  constructor
  · rintro ⟨x, ⟨⟨a, -, rfl⟩ | ⟨ou, hou, rfl⟩, hgoverned⟩, rfl⟩
    · cases hgoverned
    · exact ⟨ou, hou, rfl, hgoverned⟩
  · rintro ⟨ou, hou, rfl, hgoverned⟩
    exact ⟨_, ⟨.inr ⟨ou, hou, rfl⟩, hgoverned⟩, rfl⟩

/-- A name that can stand in a path is governed iff it is not the one of suspended accounts' unit,
and it is ignored or the first segment of a reference. -/
theorem governs_reasonFor_iff {name : String} (hname : Path.IsName name) :
    (reasonFor c name).governs = true ↔ name ≠ c.options.suspendedOu ∧
      (c.options.isIgnored name = true ∨
        ∃ reference ∈ c.declaredPaths, (Path.segments reference).head? = some name) := by
  rw [← Bool.not_eq_false, governs_reasonFor_eq_false]
  simp only [← hname.topLevel_eq_iff]
  push Not
  constructor
  · rintro ⟨hother, hcovered⟩
    refine ⟨hother, ?_⟩
    cases hignored : c.options.isIgnored name with
    | true => exact .inl rfl
    | false => exact .inr (hcovered hignored)
  · rintro ⟨hother, hignored | hdeclared⟩
    · exact ⟨hother, fun hnot => absurd hignored (by simp [hnot])⟩
    · exact ⟨hother, fun _ => hdeclared⟩

end Plan

/-! ### The partition -/

/-- A plan has what is right under the root as its targets and governs some of the units among
them. -/
structure Partitions (c : Configuration) (s : Snapshot) (p : Plan) : Prop where
  /-- The targets are what is right under the root. -/
  lists : (p.targets.map fun x => (x.kind, x.id, x.name)).Perm (atTop s)
  /-- No target comes twice. -/
  once : (p.targets.map Target.id).Nodup
  /-- Nothing is both governed and quarantined. -/
  disjoint : (p.governed.map Target.id).Disjoint (p.quarantined.map Target.id)
  /-- What is right under the root, and nothing else, is one of the two. -/
  covers : ∀ id, id ∈ p.governed.map Target.id ∨ id ∈ p.quarantined.map Target.id ↔
    id ∈ (atTop s).map fun x => x.2.1
  /-- No account is governed. -/
  accounts : ∀ a ∈ s.accounts, a.id ∉ p.governed.map Target.id
  /-- Nor is the unit of suspended accounts. -/
  suspended : ∀ o ∈ s.ous, o.name = c.options.suspendedOu ∨ s.pathOf o = c.options.suspendedOu →
    o.id ∉ p.governed.map Target.id
  /-- Any other top-level unit is governed iff it is ignored or some reference begins with its
  name. -/
  governed : ∀ o ∈ s.ous, s.isRoot o.parent = true → o.name ≠ c.options.suspendedOu →
    (o.id ∈ p.governed.map Target.id ↔ c.options.isIgnored o.name = true ∨
      ∃ reference ∈ c.declaredPaths, (Path.segments reference).head? = some o.name)

variable {s : Snapshot} {t : OrgTree}

/-- What the plan lists is right under the root. -/
theorem targets_perm (c : Configuration) (hs : s.Linked) (hn : ∀ o ∈ s.ous, Path.IsName o.name)
    (hids : (s.accounts.map LiveAccount.id).Nodup) (h : InStep s t) :
    ((Plan.compute c t).targets.map fun x => (x.kind, x.id, x.name)).Perm (atTop s) := by
  unfold Plan.compute atTop
  rw [List.map_append, List.map_map, List.map_map, topLevelOus_eq hs hn h.charts, List.map_map]
  exact ((rootAccounts_perm h hids).map _).append (List.Perm.refl _)

/-- **The plan partitions what is right under the root.** In an organization whose units form a
hierarchy, whose root, units and accounts have identifiers of their own, whose accounts have parents
and whose units have names that can stand in a path, the hierarchy can be read, and the plan for it
lists every account and every unit right under the root once and nothing else, and governs just the
units that the configuration ignores or speaks of. -/
theorem compute_partitions (c : Configuration) (o : Organization) (hs : o.snapshot.Linked)
    (htargets : (o.snapshot.root.toList.map Root.id ++ o.snapshot.ous.map OuNode.id ++
      o.snapshot.accounts.map LiveAccount.id).Nodup)
    (hparents : ∀ a ∈ o.snapshot.accounts, o.snapshot.isParent a.parent = true)
    (hn : ∀ ou ∈ o.snapshot.ous, Path.IsName ou.name) :
    ∃ t, OrgTree.read o = .ok t ∧ Partitions c o.snapshot (Plan.compute c t) := by
  obtain ⟨t, hread, hstep, hplan⟩ := Plan.exists_read hs.root htargets hparents
  obtain ⟨-, honce⟩ := hplan c
  obtain ⟨-, haccounts, hapart⟩ := List.nodup_append.1 htargets
  have hlists := targets_perm c hs hn haccounts hstep
  -- a governed identifier is that of a unit right under the root
  have hgoverned : ∀ {id}, id ∈ (Plan.compute c t).governed.map Target.id ↔
      ∃ ou ∈ o.snapshot.ous, o.snapshot.isRoot ou.parent = true ∧ ou.id = id ∧
        (Plan.reasonFor c ou.name).governs = true := by
    intro id
    rw [Plan.mem_governed_iff, topLevelOus_eq hs hn hstep.charts]
    simp only [List.mem_map, List.mem_filter]
    constructor
    · rintro ⟨-, ⟨ou, ⟨hou, hroot⟩, rfl⟩, hid, hreason⟩
      exact ⟨ou, hou, hroot, hid, hreason⟩
    · rintro ⟨ou, hou, hroot, hid, hreason⟩
      exact ⟨_, ⟨ou, ⟨hou, hroot⟩, rfl⟩, hid, hreason⟩
  refine ⟨t, hread, hlists, honce, Plan.disjoint_governed_quarantined honce, ?_, ?_, ?_, ?_⟩
  · intro id
    rw [Plan.mem_governed_or_quarantined, ← (hlists.map fun x => x.2.1).mem_iff, List.map_map]
    exact Iff.rfl
  · intro a ha hmem
    obtain ⟨ou, hou, -, hid, -⟩ := hgoverned.1 hmem
    exact hapart ou.id (List.mem_append_right _ (List.mem_map_of_mem hou)) a.id
      (List.mem_map_of_mem ha) hid
  · intro ou hou hsuspended hmem
    obtain ⟨other, hother, hroot, hid, hreason⟩ := hgoverned.1 hmem
    obtain rfl : other = ou := List.inj_on_of_nodup_map hs.ids hother hou hid
    have hpath : o.snapshot.pathOf other = other.name :=
      decide_eq_true_iff.1 ((hs.isTopLevel_iff hn hother).2 hroot)
    rw [hpath, or_self] at hsuspended
    exact ((Plan.governs_reasonFor_iff (hn other hother)).1 hreason).1 hsuspended
  · intro ou hou hroot hname
    rw [hgoverned]
    constructor
    · rintro ⟨other, hother, -, hid, hreason⟩
      obtain rfl : other = ou := List.inj_on_of_nodup_map hs.ids hother hou hid
      exact ((Plan.governs_reasonFor_iff (hn other hother)).1 hreason).2
    · intro hcovered
      exact ⟨ou, hou, hroot, rfl, (Plan.governs_reasonFor_iff (hn ou hou)).2 ⟨hname, hcovered⟩⟩

/-- Two units that share a name, one below another, one of suspended accounts and an ignored one,
with an account under the root and one further down. -/
def sharedNames : Organization where
  snapshot :=
    { root := some ⟨"r-1", "Root"⟩
      ous :=
        [⟨"ou-1", "core", "r-1"⟩, ⟨"ou-2", "apps", "ou-1"⟩, ⟨"ou-3", "apps", "r-1"⟩,
          ⟨"ou-4", "apps", "r-1"⟩, ⟨"ou-5", "Suspended", "r-1"⟩, ⟨"ou-6", "Sandbox", "r-1"⟩]
      accounts :=
        [⟨"9", "Stray", "stray@x", .active, "r-1"⟩, ⟨"8", "App", "app@x", .active, "ou-2"⟩]
      policies := [] }

/-- A configuration that speaks of a unit below the first one and of the one of suspended accounts,
and ignores the last one. -/
def coreAndSuspended : Configuration :=
  ⟨{ ignoredOus := ["Sandbox"] }, .ofList [("core/apps", {}), ("Suspended", {})], .empty, .empty⟩

/-- Of the units at the top only the first and the last are governed. -/
theorem compute_partitions_shared_names :
    sharedNames.snapshot.Linked ∧
      (sharedNames.snapshot.root.toList.map Root.id ++ sharedNames.snapshot.ous.map OuNode.id ++
        sharedNames.snapshot.accounts.map LiveAccount.id).Nodup ∧
      (∀ a ∈ sharedNames.snapshot.accounts, sharedNames.snapshot.isParent a.parent = true) ∧
      (∀ ou ∈ sharedNames.snapshot.ous, Path.IsName ou.name) ∧
      ∃ t, OrgTree.read sharedNames = .ok t ∧
        Partitions coreAndSuspended sharedNames.snapshot (Plan.compute coreAndSuspended t) ∧
        (Plan.compute coreAndSuspended t).governed.map Target.id = ["ou-1", "ou-6"] ∧
        (Plan.compute coreAndSuspended t).quarantined.map Target.id =
          ["9", "ou-3", "ou-4", "ou-5"] := by
  have hs : sharedNames.snapshot.Linked := by
    refine ⟨rfl, ?_, by decide, by decide, fun id => if id = "ou-2" then 1 else 0, by decide⟩
    rintro r ⟨⟩
    rfl
  have htargets : (sharedNames.snapshot.root.toList.map Root.id ++
      sharedNames.snapshot.ous.map OuNode.id ++
      sharedNames.snapshot.accounts.map LiveAccount.id).Nodup := by decide
  have hparents : ∀ a ∈ sharedNames.snapshot.accounts,
      sharedNames.snapshot.isParent a.parent = true := by decide
  have hn : ∀ ou ∈ sharedNames.snapshot.ous, Path.IsName ou.name := by decide
  obtain ⟨t, hread, hpartitions⟩ :=
    compute_partitions coreAndSuspended sharedNames hs htargets hparents hn
  obtain ⟨t', hread', hgoverned, hquarantined⟩ : ∃ t, OrgTree.read sharedNames = .ok t ∧
      (Plan.compute coreAndSuspended t).governed.map Target.id = ["ou-1", "ou-6"] ∧
      (Plan.compute coreAndSuspended t).quarantined.map Target.id =
        ["9", "ou-3", "ou-4", "ou-5"] :=
    ⟨_, rfl, by decide +kernel, by decide +kernel⟩
  obtain rfl : t' = t := Except.ok.inj (hread'.symm.trans hread)
  exact ⟨hs, htargets, hparents, hn, t', hread, hpartitions, hgoverned, hquarantined⟩

end OrgAlign.Guard
