import OrgAlign.Proofs.Drift.InPlace
import OrgAlign.Proofs.Drift.References

/-!
# Which accounts convergence moves

Convergence that notes no failure moves the accounts that belong elsewhere, each once, and no other
account: those that are suspended and not in their unit, and then the primary account, if it is
under the root. Main statements:

* `relocateSuspended_moved`, `primaryMove?_of_rootPrimary?`: whom the two stages move, if no failure
  is noted;
* `MovesRight`: the moves that convergence should make, and that it made;
* `converge_movesRight`: it makes them.
-/

namespace OrgAlign.Drift

open Config Org Reconcile

namespace Convergence

variable {c c' : Convergence} {config : Configuration}

/-! ### Creating units moves nothing -/

theorem moved_createDown (declared : String) (paths : List String) (c : Convergence) :
    (createDown declared paths c).report.moved = c.report.moved := by
  induction paths generalizing c with
  | nil => rfl
  | cons path paths ih =>
    have hmade := congrArg Corrections.moved (c.report_createOu path)
    unfold createDown
    split
    · exact ih c
    split
    · rename_i h
      rw [h] at hmade
      exact (ih _).trans hmade
    · rename_i h
      rw [h] at hmade
      exact hmade
    · rename_i h
      rw [h] at hmade
      exact hmade

theorem moved_createMissing (config : Configuration) (c : Convergence) :
    (c.createMissing config).report.moved = c.report.moved := by
  refine foldl_keeps (fun d : Convergence => d.report.moved = c.report.moved) (fun d r hd => ?_)
    config.declaredPaths c rfl
  rcases createDeclared_eq config.options d r with h | ⟨-, -, h⟩
  · rw [h]
    exact hd
  · rw [h, moved_createDown]
    exact hd

theorem moved_suspendedTarget (c : Convergence) (path : String) :
    (c.suspendedTarget path).2.report.moved = c.report.moved := by
  have hmade := congrArg Corrections.moved (c.report_createOu path)
  unfold suspendedTarget
  split
  · rfl
  split
  · rename_i h
    rw [h] at hmade
    exact hmade
  · rename_i h
    rw [h] at hmade
    exact hmade
  · rename_i h
    rw [h] at hmade
    split
    · exact hmade
    · exact hmade

/-! ### The two stages that move accounts -/

/-- The second stage creates the unit of suspended accounts, if that is needed, and moves those that
are out of their place there, if no failure is noted. -/
theorem relocateSuspended_moved (hc : c.Tracks) (hproper : Path.Proper config.options.suspendedOu)
    (hnone : (c.relocateSuspended config).report.failures = []) :
    ∃ c' target, c'.org.snapshot.accounts = c.org.snapshot.accounts ∧
      c'.report.moved = c.report.moved ∧
      Relocates c' (c.relocateSuspended config) ((outOfPlace c.tree config.options.suspendedOu).map
        (⟨·.id, target, config.options.suspendedOu⟩)) ∧
      (outOfPlace c.tree config.options.suspendedOu ≠ [] →
        ∃ ou ∈ (c.relocateSuspended config).tree.ous,
          ou.id = target ∧ ou.path = config.options.suspendedOu) := by
  by_cases hout : outOfPlace c.tree config.options.suspendedOu = []
  · have hstep : c.relocateSuspended config = c := by simp only [relocateSuspended, hout]
    rw [hstep, hout]
    exact ⟨c, "", rfl, rfl, Relocates.refl c, fun h => absurd rfl h⟩
  · obtain ⟨ou, c', htarget, hou, hpath, hmoves⟩ :=
      relocateSuspended_complete hc hproper hnone hout
    have hframe := (suspendedTarget_frame hc config.options.suspendedOu).2
    have hmoved := moved_suspendedTarget c config.options.suspendedOu
    rw [htarget] at hframe hmoved
    exact ⟨c', ou.id, hframe.accounts_eq, hmoved, hmoves,
      fun _ => ⟨ou, hmoves.ous ▸ hou, rfl, hpath⟩⟩

/-- Where the last stage notes no failure, the unit of a primary account under the root is there. -/
theorem primaryMove?_of_rootPrimary? (hkeys : KeysApart config)
    (hnone : (c.relocatePrimary config).report.failures = []) {key : String} {live : LiveAccount}
    (hprimary : rootPrimary? config c.tree = some (key, live)) :
    ∃ d ou, primary? config = some d ∧ d.key = key ∧ StandsFor c.tree.ous d.entry.path ou ∧
      primaryMove? config c.tree = some (live, ou) := by
  obtain ⟨d, hd, hlive⟩ := Option.bind_eq_some_iff.1 hprimary
  obtain ⟨a, -, heq⟩ := Option.map_eq_some_iff.1 hlive
  obtain ⟨rfl, rfl⟩ := Prod.mk.inj heq
  have hin : d ∈ config.allAccounts := (List.mem_filter.1 (List.mem_of_find?_eq_some hd)).1
  have haccount : config.account? d.key = some d := hkeys.account? hin
  cases hou : (matchOu d.entry.path c.tree.ous).ou? with
  | none => simp [relocatePrimary, hprimary, haccount, hou, fail] at hnone
  | some ou =>
    have hstands := ou?_matchOu_eq_some.1 hou
    exact ⟨d, ou, hd, rfl, hstands, primaryMove?_eq_some.2 ⟨d.key, d, hprimary, haccount, hstands⟩⟩

/-- What the last stage moves is the primary account under the root. -/
theorem primaryIn_of_primaryMove? {t : OrgTree} {m : LiveAccount × LiveOu}
    (h : primaryMove? config t = some m) : PrimaryIn config t m.1.id := by
  obtain ⟨key, d, hprimary, -⟩ := primaryMove?_eq_some.1 h
  exact ⟨key, m.1, hprimary, rfl⟩

/-- And if no failure is noted, that account is moved. -/
theorem mem_primaryTransfer_iff (hkeys : KeysApart config)
    (hnone : (c.relocatePrimary config).report.failures = []) {id : String} :
    id ∈ ((primaryMove? config c.tree).toList.map primaryTransfer).map Transfer.account ↔
      PrimaryIn config c.tree id := by
  rw [List.map_map, List.mem_map]
  constructor
  · rintro ⟨m, hmove, rfl⟩
    exact primaryIn_of_primaryMove? (Option.mem_toList.1 hmove)
  · rintro ⟨key, live, hprimary, hid⟩
    obtain ⟨d, ou, -, -, -, hmove⟩ := primaryMove?_of_rootPrimary? hkeys hnone hprimary
    exact ⟨(live, ou), Option.mem_toList.2 hmove, hid⟩

/-- An account that was moved to a unit is not under the root. -/
theorem Relocates.not_primaryIn {ts : List Transfer} (h : Relocates c' c ts) (hc : c.Tracks)
    {t : Transfer} (ht : t ∈ ts) : ¬ PrimaryIn config c.tree t.account := by
  rintro ⟨key, live, hprimary, hid⟩
  obtain ⟨hlive, hroot⟩ := mem_of_rootPrimary? hc hprimary
  obtain ⟨ou, hou, htarget⟩ := h.unit t ht
  have hparent := h.parent_of_mem ht hlive hid.symm
  exact hc.inStep.charts.ne_rootId hc.rooted.linked (h.ous ▸ hou)
    (htarget.trans (hparent.symm.trans hroot))

/-! ### Right under the root -/

/-- The organization has the units that the tree shows. -/
theorem Tracks.exists_node (hc : c.Tracks) {ou : LiveOu} (hou : ou ∈ c.tree.ous) :
    ∃ node ∈ c.org.snapshot.ous, node.id = ou.id ∧ c.org.snapshot.pathOf node = ou.path := by
  rw [hc.inStep.ous] at hou
  obtain ⟨node, hnode, rfl⟩ := List.mem_map.1 hou
  exact ⟨node, hnode, rfl, rfl⟩

/-- An account is right in the unit of that name under the root. -/
def InTopLevel (s : Snapshot) (name : String) (a : LiveAccount) : Prop :=
  ∃ ou ∈ s.ous, ou.name = name ∧ s.isRoot ou.parent = true ∧ a.parent = ou.id

instance (s : Snapshot) (name : String) : DecidablePred (InTopLevel s name) := fun _ =>
  inferInstanceAs (Decidable (∃ ou ∈ s.ous, _))

/-- The unit at a path that is a name is the one of that name under the root. -/
theorem Tracks.inUnit_iff_inTopLevel (hc : c.Tracks) (hn : c.org.snapshot.Named) {name : String}
    (hname : Path.IsName name) {a : LiveAccount} :
    InUnit c.tree name a ↔ InTopLevel c.org.snapshot name a := by
  unfold InUnit InTopLevel
  rw [hc.inStep.ous]
  constructor
  · rintro ⟨_, hou, hpath, hparent⟩
    obtain ⟨node, hnode, rfl⟩ := List.mem_map.1 hou
    obtain ⟨hnamed, hroot⟩ := (hc.rooted.linked.pathOf_eq_name_iff hn hnode hname).1 hpath
    exact ⟨node, hnode, hnamed, hroot, hparent⟩
  · rintro ⟨node, hnode, hnamed, hroot, hparent⟩
    exact ⟨_, List.mem_map_of_mem hnode,
      (hc.rooted.linked.pathOf_eq_name_iff hn hnode hname).2 ⟨hnamed, hroot⟩, hparent⟩

end Convergence

/-! ### All of it -/

open Convergence

/-- Convergence makes these moves and no others, and they are those of the accounts that belong
elsewhere. -/
structure MovesRight (config : Configuration) (org : Organization) (tree : OrgTree)
    (moved : List Transfer) : Prop where
  /-- Every account is there, in the same order, where it was moved to if it was. -/
  accounts : (converge config org tree).org.snapshot.accounts =
    org.snapshot.accounts.map (settled moved)
  /-- Nothing about it but its parent has changed. -/
  same : ∀ a, settled moved a = { a with parent := (settled moved a).parent }
  /-- The moves are noted. -/
  noted : (converge config org tree).report.moved = moved.map fun t => (t.account, t.path)
  /-- No account is moved twice. -/
  once : (moved.map Transfer.account).Nodup
  /-- Each goes to the unit whose path is noted. -/
  arrived : ∀ t ∈ moved, ∃ ou ∈ (converge config org tree).org.snapshot.ous,
    ou.id = t.target ∧ (converge config org tree).org.snapshot.pathOf ou = t.path
  /-- It was elsewhere before. -/
  away : ∀ t ∈ moved, ∀ a ∈ org.snapshot.accounts, a.id = t.account → a.parent ≠ t.target
  /-- Suspended accounts that were not in their unit are moved, and the primary account that was
  then under the root. -/
  which : ∀ id, id ∈ moved.map Transfer.account ↔
    (∃ a ∈ org.snapshot.accounts, a.id = id ∧ a.isSuspended = true ∧
      ¬ InTopLevel org.snapshot config.options.suspendedOu a) ∨
    PrimaryIn config (beforePrimary config org tree).tree id
  /-- Every suspended account ends in its unit. -/
  suspended : ∀ a ∈ (converge config org tree).org.snapshot.accounts, a.isSuspended = true →
    InTopLevel (converge config org tree).org.snapshot config.options.suspendedOu a
  /-- The primary account ends in the unit that its path stands for. -/
  primary : ∀ key live,
    rootPrimary? config (beforePrimary config org tree).tree = some (key, live) →
    ∃ d ou, primary? config = some d ∧ d.key = key ∧
      StandsFor (converge config org tree).tree.ous d.entry.path ou ∧
      { live with parent := ou.id } ∈ (converge config org tree).org.snapshot.accounts ∧
      (live.id, ou.path) ∈ (converge config org tree).report.moved

section

variable {config : Configuration} {org : Organization} {tree : OrgTree}

/-- Creating units changes nothing about which suspended accounts are out of their place. -/
theorem mem_outOfPlace_createMissing (h : (⟨org, tree, {}⟩ : Convergence).Tracks)
    (hn : org.snapshot.Named) (hname : Path.IsName config.options.suspendedOu) {a : LiveAccount} :
    a ∈ outOfPlace ((⟨org, tree, {}⟩ : Convergence).createMissing config).tree
        config.options.suspendedOu ↔
      a ∈ org.snapshot.accounts ∧ a.isSuspended = true ∧
        ¬ InTopLevel org.snapshot config.options.suspendedOu a := by
  obtain ⟨hmade, hgrown⟩ := createMissing_frame config h
  rw [hgrown.mem_outOfPlace h hmade, h.mem_outOfPlace, h.inUnit_iff_inTopLevel hn hname]

/-- **Convergence that notes no failure moves exactly the accounts that belong elsewhere.** -/
theorem converge_movesRight (hname : Path.IsName config.options.suspendedOu)
    (hkeys : KeysApart config) (hs : org.snapshot.Rooted) (hhoused : org.snapshot.Housed)
    (hn : org.snapshot.Named) (hread : OrgTree.read org = .ok tree)
    (hnone : (converge config org tree).report.failures = []) :
    ∃ moved, MovesRight config org tree moved := by
  have h : (⟨org, tree, {}⟩ : Convergence).Tracks := tracks_of_read hs hhoused hread
  obtain ⟨hmade, hgrown⟩ := createMissing_frame config h
  obtain ⟨hmid, hframe⟩ := beforePrimary_frame config h
  obtain ⟨hdone, -⟩ := converge_frame config h
  have hlast : ((beforePrimary config org tree).relocatePrimary config).report.failures = [] :=
    hnone
  have hquiet : (beforePrimary config org tree).report.failures = [] :=
    List.prefix_nil.1 (hlast ▸ failures_relocatePrimary config (beforePrimary config org tree))
  obtain ⟨c', target, hsame, hmoved, hsecond, hunit⟩ :=
    relocateSuspended_moved hmade hname.proper hquiet
  have hthird : Relocates (beforePrimary config org tree) (converge config org tree) _ :=
    relocatePrimary_moved hmid hlast
  have hboth := hsecond.trans hthird fun t ht hprimary =>
    hsecond.not_primaryIn hmid ht ((mem_primaryTransfer_iff hkeys hlast).1 hprimary)
  have haccounts : c'.org.snapshot.accounts = org.snapshot.accounts :=
    hsame.trans hgrown.accounts_eq
  have hstart : c'.report.moved = [] := hmoved.trans (moved_createMissing config _)
  refine ⟨_, ?_, settled_eq _, ?_, hboth.once, ?_, ?_, ?_, ?_, ?_⟩
  · rw [hboth.snapshot, haccounts]
  · rw [hboth.report, hstart, List.nil_append]
  · intro t ht
    rcases List.mem_append.1 ht with ht | ht
    · obtain ⟨a, ha, rfl⟩ := List.mem_map.1 ht
      obtain ⟨ou, hou, rfl, hpath⟩ := hunit (List.ne_nil_of_mem ha)
      obtain ⟨node, hnode, hid, hat⟩ := hdone.exists_node (hthird.ous ▸ hou)
      exact ⟨node, hnode, hid, hat.trans hpath⟩
    · obtain ⟨⟨live, ou⟩, hmove, rfl⟩ := List.mem_map.1 ht
      obtain ⟨key, d, -, -, hstands⟩ := primaryMove?_eq_some.1 (Option.mem_toList.1 hmove)
      exact hdone.exists_node (hthird.ous ▸ hstands.mem)
  · rw [← haccounts]
    exact hboth.away
  · intro id
    rw [List.map_append, List.mem_append, mem_primaryTransfer_iff hkeys hlast, List.map_map,
      List.mem_map]
    refine or_congr_left ⟨?_, ?_⟩
    · rintro ⟨a, ha, hid⟩
      obtain ⟨hin, hastray⟩ := (mem_outOfPlace_createMissing h hn hname).1 ha
      exact ⟨a, hin, hid, hastray⟩
    · rintro ⟨a, hin, hid, hastray⟩
      exact ⟨a, (mem_outOfPlace_createMissing h hn hname).2 ⟨hin, hastray⟩, hid⟩
  · have hnamed : (converge config org tree).org.snapshot.Named :=
      converge_named hn (hname.leaf.symm ▸ hname)
    intro a ha hsuspended
    exact (hdone.inUnit_iff_inTopLevel hnamed hname).1
      (converge_inUnit h hname.proper hnone a ha hsuspended)
  · intro key live hprimary
    obtain ⟨d, ou, hd, hkey, hstands, hmove⟩ := primaryMove?_of_rootPrimary? hkeys hlast hprimary
    have hmem := List.mem_map_of_mem (f := primaryTransfer) (Option.mem_toList.2 hmove)
    refine ⟨d, ou, hd, hkey, hthird.ous ▸ hstands, ?_, ?_⟩
    · exact hthird.mem_moved hmem (mem_of_rootPrimary? hmid hprimary).1 rfl
    · rw [hthird.report]
      exact List.mem_append_right _ (List.mem_map_of_mem hmem)

end

/-- A suspended account and the primary one under the root, a third one in the only unit. -/
def twoAstray : Organization where
  snapshot :=
    { root := some ⟨"r-1", "Root"⟩
      ous := [⟨"u-1", "Core", "r-1"⟩]
      accounts :=
        [⟨"1", "Old", "old@x", .suspended, "r-1"⟩, ⟨"2", "Main", "main@x", .active, "r-1"⟩,
          ⟨"3", "App", "app@x", .active, "u-1"⟩]
      policies := [] }

/-- A configuration that declares the primary account in a unit. -/
def primaryInCore : Configuration where
  options := {}
  ous := .empty
  mandatory :=
    .ofList [("main", { name := "Main", email := "Main@x", ou := "Core", role := some .primary })]
  workload := .empty

/-- The suspended account goes to a unit created for it, the primary one to its own, and the third
one stays. -/
theorem converge_movesRight_twoAstray :
    Path.IsName primaryInCore.options.suspendedOu ∧ KeysApart primaryInCore ∧
      twoAstray.snapshot.Rooted ∧ twoAstray.snapshot.Housed ∧ twoAstray.snapshot.Named ∧
      ∃ t, OrgTree.read twoAstray = .ok t ∧
        (converge primaryInCore twoAstray t).report.failures = [] ∧
        (∃ moved, MovesRight primaryInCore twoAstray t moved) ∧
        (converge primaryInCore twoAstray t).report.moved =
          [("1", "Suspended"), ("2", "Core")] := by
  have hflat : twoAstray.snapshot.Flat ⟨"r-1", "Root"⟩ := by decide +kernel
  have hs := hflat.wellFormed
  have hname : Path.IsName primaryInCore.options.suspendedOu := by decide +kernel
  have hkeys : KeysApart primaryInCore := by decide +kernel
  obtain ⟨t, hread, hnone, hmoved⟩ : ∃ t, OrgTree.read twoAstray = .ok t ∧
      (converge primaryInCore twoAstray t).report.failures = [] ∧
      (converge primaryInCore twoAstray t).report.moved = [("1", "Suspended"), ("2", "Core")] :=
    ⟨_, rfl, by decide +kernel, by decide +kernel⟩
  exact ⟨hname, hkeys, hs.toRooted, hs.toHoused, hs.toNamed, t, hread, hnone,
    converge_movesRight hname hkeys hs.toRooted hs.toHoused hs.toNamed hread hnone, hmoved⟩

end OrgAlign.Drift
