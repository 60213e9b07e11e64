import Mathlib.Data.List.Pairwise
import OrgAlign.Proofs.Org.InStep

/-!
# Units by their paths

Where siblings have names of their own that can stand in a path, no two units share a path. Main
statements:

* `segments_pathUp`: a path gives the names on the way down back;
* `Linked.pathAt_inj`, `Linked.nodup_paths`: a path belongs to one unit;
* `Linked.exists_of_mem_ancestry`: every beginning of a unit's path belongs to a unit;
* `Named.addOu`: a unit whose name is new among its siblings leaves it so;
* `Linked.existsUnique_topAbove`: every unit is or lies below one unit right under the root;
* `TopAbove.topLevel_pathAt`: with whose name its path begins.
-/

namespace OrgAlign.Org

namespace Snapshot

variable {s : Snapshot} {id id' : String} {names : List String}

/-- The names on the way up are names of units. -/
theorem LeadsUp.isName (h : LeadsUp s id names) (hn : s.Named) : ∀ n ∈ names, Path.IsName n := by
  induction h with
  | root _ => exact fun n hn => absurd hn List.not_mem_nil
  | ou ho _ ih => exact List.forall_mem_cons.2 ⟨hn.names _ ho, ih⟩

/-- A path gives the names on the way down back. -/
theorem segments_pathUp (h : ∀ n ∈ names, Path.IsName n) :
    Path.segments (pathUp names) = names.reverse := by
  unfold pathUp
  exact Path.segments_foldl_join (fun n hn => h n (List.mem_reverse.1 hn)) ""

/-- The same names lead up from one parent only. -/
theorem LeadsUp.inj (hn : s.Named) (h : LeadsUp s id names) (h' : LeadsUp s id' names) :
    id = id' := by
  induction h generalizing id' with
  | @root r hr =>
    cases h' with
    | @root r' hr' =>
      rw [hr] at hr'
      rw [Option.some.inj hr']
  | @ou o names ho _ ih =>
    generalize hnames : o.name :: names = all at h'
    cases h' with
    | root _ => cases hnames
    | @ou p names' hp hrest =>
      obtain ⟨hname, rfl⟩ := List.cons.inj hnames
      -- they are siblings, so they are the same
      have hparent : o.parent = p.parent := ih hrest
      by_contra hne
      have hsymm : Std.Symm fun o p : OuNode => o.parent = p.parent → o.name ≠ p.name :=
        ⟨fun _ _ hop hpar hnm => hop hpar.symm hnm.symm⟩
      exact hn.siblings.forall ho hp (fun heq => hne (congrArg OuNode.id heq)) hparent hname

/-- **Parents at one path are the same.** -/
theorem Linked.pathAt_inj (hs : s.Linked) (hn : s.Named) (hid : s.isParent id = true)
    (hid' : s.isParent id' = true) (hpath : s.pathAt id = s.pathAt id') : id = id' := by
  obtain ⟨names, hnames, hlen⟩ := hs.exists_leadsUp hid
  obtain ⟨names', hnames', hlen'⟩ := hs.exists_leadsUp hid'
  rw [hs.pathAt_eq_pathUp hnames hlen, hs.pathAt_eq_pathUp hnames' hlen'] at hpath
  have hsegments := congrArg Path.segments hpath
  rw [segments_pathUp (hnames.isName hn), segments_pathUp (hnames'.isName hn),
    List.reverse_inj] at hsegments
  exact hnames.inj hn (hsegments ▸ hnames')

/-- The path of a unit is the path that it has as a parent. -/
theorem Linked.pathAt_id (hs : s.Linked) {o : OuNode} (ho : o ∈ s.ous) :
    s.pathAt o.id = s.pathOf o := by
  unfold pathAt
  rw [hs.ou?_id ho]
  rfl

/-- **Units with one path are the same.** -/
theorem Linked.pathOf_inj (hs : s.Linked) (hn : s.Named) {o p : OuNode} (ho : o ∈ s.ous)
    (hp : p ∈ s.ous) (hpath : s.pathOf o = s.pathOf p) : o = p := by
  refine List.inj_on_of_nodup_map hs.ids ho hp (hs.pathAt_inj hn ?_ ?_ ?_)
  · exact isParent_iff.2 (.inr ⟨o, ho, rfl⟩)
  · exact isParent_iff.2 (.inr ⟨p, hp, rfl⟩)
  · rw [hs.pathAt_id ho, hs.pathAt_id hp, hpath]

/-- No two units share a path. -/
theorem Linked.nodup_paths (hs : s.Linked) (hn : s.Named) : (s.ous.map s.pathOf).Nodup :=
  List.Nodup.map_on (fun _ ho _ hp => hs.pathOf_inj hn ho hp) hs.ids.of_map

/-- On the way down to a parent there is a unit at every path. -/
theorem LeadsUp.exists_pathOf (hs : s.Linked) (h : LeadsUp s id names)
    (hlen : names.length ≤ s.ous.length) :
    ∀ path ∈ Path.descend "" names.reverse, ∃ o ∈ s.ous, s.pathOf o = path := by
  induction h with
  | root _ => exact fun path hpath => absurd hpath List.not_mem_nil
  | @ou o names ho h ih =>
    have hshort : names.length ≤ s.ous.length := Nat.le_of_succ_le hlen
    intro path hpath
    rw [List.reverse_cons, Path.descend_append] at hpath
    rcases List.mem_append.1 hpath with hpath | hpath
    · exact ih hshort path hpath
    · refine ⟨o, ho, ?_⟩
      rw [hs.pathOf_eq_pathUp h hshort, pathUp_cons]
      exact (List.mem_singleton.1 hpath).symm

/-- **Every beginning of a unit's path is a unit's path.** -/
theorem Linked.exists_of_mem_ancestry (hs : s.Linked) (hn : s.Named) {o : OuNode} (ho : o ∈ s.ous)
    {path : String} (h : path ∈ Path.ancestry (s.pathOf o)) : ∃ p ∈ s.ous, s.pathOf p = path := by
  obtain ⟨names, hnames, hlen⟩ := hs.exists_leadsUp_ou ho
  refine hnames.exists_pathOf hs hlen path ?_
  unfold Path.ancestry at h
  rwa [← hs.pathAt_id ho, hs.pathAt_eq_pathUp hnames hlen, segments_pathUp (hnames.isName hn)] at h

/-- A unit whose name can stand in a path and is new among its siblings leaves it so. -/
theorem Named.addOu (hn : s.Named) {node : OuNode} (hname : Path.IsName node.name)
    (hnew : ∀ o ∈ s.ous, o.parent = node.parent → o.name ≠ node.name) : (s.addOu node).Named := by
  constructor
  · refine List.pairwise_append.2 ⟨hn.siblings, List.pairwise_singleton _ _, ?_⟩
    intro o ho p hp
    rw [List.mem_singleton.1 hp]
    exact hnew o ho
  · intro o ho
    rcases List.mem_append.1 ho with ho | ho
    · exact hn.names o ho
    · rwa [List.mem_singleton.1 ho]

/-! ### Right under the root -/

/-- Only the root has no path. -/
theorem Linked.pathAt_eq_empty_iff (hs : s.Linked) (hn : ∀ o ∈ s.ous, Path.IsName o.name)
    (hid : s.isParent id = true) : s.pathAt id = "" ↔ s.isRoot id = true := by
  constructor
  · intro hpath
    rcases isParent_iff.1 hid with hroot | ⟨o, ho, rfl⟩
    · exact isRoot_iff.2 hroot
    · rw [hs.pathAt_id ho, hs.pathOf_eq_join ho] at hpath
      exact absurd hpath (Path.join_ne_empty _ (hn o ho))
  · intro hroot
    obtain ⟨r, hr, rfl⟩ := isRoot_iff.1 hroot
    unfold pathAt
    rw [hs.ou?_root hr]
    rfl

/-- No unit is the root. -/
theorem Linked.isRoot_id (hs : s.Linked) {o : OuNode} (ho : o ∈ s.ous) : s.isRoot o.id = false := by
  rw [← Bool.not_eq_true, isRoot_iff]
  rintro ⟨r, hr, hid⟩
  have hou := isOu_iff.2 ⟨o, ho, hid.symm⟩
  rw [hs.rootApart r hr] at hou
  cases hou

/-- A unit has its name as its path iff it is right under the root. Siblings may share a name. -/
theorem Linked.isTopLevel_iff (hs : s.Linked) (hn : ∀ o ∈ s.ous, Path.IsName o.name) {o : OuNode}
    (ho : o ∈ s.ous) : (s.located o).isTopLevel = true ↔ s.isRoot o.parent = true := by
  rw [← hs.pathAt_eq_empty_iff hn (hs.parents o ho),
    ← Path.join_eq_self_iff (s.pathAt o.parent) (hn o ho), ← hs.pathOf_eq_join ho]
  exact decide_eq_true_iff

/-- So it is where names make paths. -/
theorem Linked.isTopLevel_located (hs : s.Linked) (hn : s.Named) {o : OuNode} (ho : o ∈ s.ous) :
    (s.located o).isTopLevel = true ↔ s.isRoot o.parent = true :=
  hs.isTopLevel_iff hn.names ho

/-- A name is the path of the unit right under the root that has it. -/
theorem Linked.pathOf_eq_name_iff (hs : s.Linked) (hn : s.Named) {o : OuNode} (ho : o ∈ s.ous)
    {name : String} (hname : Path.IsName name) :
    s.pathOf o = name ↔ o.name = name ∧ s.isRoot o.parent = true := by
  rw [hs.pathOf_eq_join ho, ← hs.pathAt_eq_empty_iff hn.names (hs.parents o ho)]
  constructor
  · intro hpath
    have hleaf := Path.leaf_join (s.pathAt o.parent) (hn.names o ho)
    rw [hpath, hname.leaf] at hleaf
    rw [hleaf] at hpath ⊢
    exact ⟨rfl, (Path.join_eq_self_iff _ (hn.names o ho)).1 hpath⟩
  · rintro ⟨rfl, habove⟩
    rw [habove, Path.join_empty]

/-- The unit right under the root that a parent is, or lies below. -/
inductive TopAbove (s : Snapshot) : String → OuNode → Prop
  | self {o : OuNode} (ho : o ∈ s.ous) (h : s.isRoot o.parent = true) : TopAbove s o.id o
  | inside {o top : OuNode} (ho : o ∈ s.ous) (h : TopAbove s o.parent top) : TopAbove s o.id top

namespace TopAbove

variable {top top' : OuNode}

/-- It is a unit right under the root. -/
theorem mem (h : TopAbove s id top) : top ∈ s.ous ∧ s.isRoot top.parent = true := by
  induction h with
  | self ho hroot => exact ⟨ho, hroot⟩
  | inside _ _ ih => exact ih

/-- Nothing is above the root. -/
theorem not_isRoot (hs : s.Linked) (h : TopAbove s id top) : s.isRoot id = false := by
  cases h with
  | self ho _ => exact hs.isRoot_id ho
  | inside ho _ => exact hs.isRoot_id ho

/-- There is no other one. -/
theorem unique (hs : s.Linked) (h : TopAbove s id top) (h' : TopAbove s id top') : top = top' := by
  induction h with
  | @self o ho hroot =>
    generalize hid : o.id = id at h'
    cases h' with
    | self ho' _ => exact List.inj_on_of_nodup_map hs.ids ho ho' hid
    | inside ho' habove =>
      rw [← List.inj_on_of_nodup_map hs.ids ho ho' hid] at habove
      rw [habove.not_isRoot hs] at hroot
      cases hroot
  | @inside o top ho habove ih =>
    generalize hid : o.id = id at h'
    cases h' with
    | self ho' hroot =>
      rw [← List.inj_on_of_nodup_map hs.ids ho ho' hid] at hroot
      rw [habove.not_isRoot hs] at hroot
      cases hroot
    | inside ho' habove' =>
      rw [← List.inj_on_of_nodup_map hs.ids ho ho' hid] at habove'
      exact ih habove'

/-- A path begins with the name of the unit at the top. -/
theorem head?_segments (hs : s.Linked) (hn : s.Named) (h : TopAbove s id top) :
    (Path.segments (s.pathAt id)).head? = some top.name := by
  induction h with
  | @self o ho hroot =>
    rw [hs.pathAt_id ho, hs.pathOf_eq_join ho,
      (hs.pathAt_eq_empty_iff hn.names (hs.parents o ho)).2 hroot,
      Path.segments_join _ (hn.names o ho)]
    rfl
  | @inside o top ho _ ih =>
    rw [hs.pathAt_id ho, hs.pathOf_eq_join ho, Path.segments_join _ (hn.names o ho),
      List.head?_append, ih]
    rfl

/-- A path begins with the name of the unit at the top. -/
theorem topLevel_pathAt (hs : s.Linked) (hn : s.Named) (h : TopAbove s id top) :
    Path.topLevel (s.pathAt id) = top.name := by
  unfold Path.topLevel
  rw [List.headD_eq_head?_getD, h.head?_segments hs hn]
  rfl

end TopAbove

/-- **Every unit is or lies below one unit right under the root.** -/
theorem Linked.existsUnique_topAbove (hs : s.Linked) {o : OuNode} (ho : o ∈ s.ous) :
    ∃ top, ∀ other, TopAbove s o.id other ↔ other = top := by
  have hway : ∀ {id names}, LeadsUp s id names →
      s.isRoot id = true ∨ ∃ top, TopAbove s id top := by
    intro id names h
    induction h with
    | root hr => exact .inl (isRoot_iff.2 ⟨_, hr, rfl⟩)
    | @ou o names ho _ ih =>
      rcases ih with hroot | ⟨top, htop⟩
      · exact .inr ⟨o, .self ho hroot⟩
      · exact .inr ⟨top, .inside ho htop⟩
  obtain ⟨names, hnames, -⟩ := hs.exists_leadsUp_ou ho
  rcases hway hnames with hroot | ⟨top, htop⟩
  · rw [hs.isRoot_id ho] at hroot
    cases hroot
  · refine ⟨top, fun other => ⟨fun h => h.unique hs htop, ?_⟩⟩
    rintro rfl
    exact htop

end Snapshot
end OrgAlign.Org
