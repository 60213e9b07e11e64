import OrgAlign.Proofs.Drift.Relocation
import OrgAlign.Proofs.Org.Attachments

/-!
# Accounts that are made to fail

What becomes of an account that is made to fail decides about no other one. Units are created as if
nothing failed, every other account goes where it would go, and those that are made to fail stay.
Main statements:

* `Spares`: no unit and no root is among what is made to fail;
* `createMissing_withFailing`, `suspendedTarget_withFailing`: units are created as if nothing
  failed;
* `relocateSuspended_alongside`, `Alongside.relocatePrimary`: the moves are those that are made if
  nothing fails, but for the ones of accounts that are made to fail;
* `converge_isolates`: all of convergence.
-/

namespace OrgAlign.Drift

open Config Org Reconcile

namespace Convergence

variable {c c' : Convergence} {config : Configuration} {failing : List String}

/-! ### Creating units -/

/-- The same, but that some subjects are made to fail. -/
def withFailing (failing : List String) (c : Convergence) : Convergence :=
  { c with org := { c.org with failing } }

/-- Nothing is made to fail, and neither the root nor a unit is, nor will be, among the subjects. -/
structure Spares (failing : List String) (c : Convergence) : Prop where
  /-- Nothing is made to fail. -/
  free : c.org.failing = []
  /-- The root is not among the subjects. -/
  root : c.tree.rootId ∉ failing
  /-- No unit is. -/
  units : ∀ ou ∈ c.tree.ous, ou.id ∉ failing
  /-- Nor will one be. -/
  generated : ∀ n, Snapshot.ouId n ∉ failing

namespace Spares

theorem note (h : Spares failing c) (report : Corrections) :
    Spares failing { c with report } := ⟨h.free, h.root, h.units, h.generated⟩

/-- It stays so when a unit is created. -/
theorem createOu (h : Spares failing c) (path : String) : Spares failing (c.createOu path).2 := by
  have hfree : (c.createOu path).2.org.failing = [] :=
    (c.issued_createOu path).failing_eq.trans h.free
  rcases c.createOu_effect path with ⟨-, ht⟩ | ⟨parent, node, -, hmade, -, ht⟩
  · exact ⟨hfree, ht ▸ h.root, ht ▸ h.units, h.generated⟩
  · obtain ⟨-, hfits, -⟩ := Snapshot.created_eq_ok hmade
    obtain ⟨n, hn⟩ := hfits.generated
    have hous : (c.createOu path).2.tree.ous = c.tree.ous ++ [(c.tree.insertOu node).1] := by
      rw [ht]
      rfl
    refine ⟨hfree, ?_, fun ou hou => ?_, h.generated⟩
    · rw [ht]
      exact h.root
    · rw [hous] at hou
      rcases List.mem_append.1 hou with hou | hou
      · exact h.units ou hou
      · rw [List.mem_singleton.1 hou]
        change node.id ∉ failing
        rw [hn]
        exact h.generated n

/-- No unit is created under a parent that is among the subjects. -/
theorem parentFor (h : Spares failing c) {path parent : String}
    (hparent : parentFor c.tree path = .ok parent) : parent ∉ failing := by
  unfold Convergence.parentFor at hparent
  split at hparent
  · cases hparent
    exact h.root
  · split at hparent
    · rename_i ou hfound
      cases hparent
      exact h.units ou (OrgTree.ouByPath?_eq_some hfound).1
    · cases hparent

end Spares

/-- A unit is created as if nothing failed, if its name is not among what is made to fail. -/
theorem createOu_withFailing (h : Spares failing c) {path : String}
    (hname : Path.leaf path ∉ failing) :
    (c.withFailing failing).createOu path =
      ((c.createOu path).1, (c.createOu path).2.withFailing failing) := by
  cases hparent : parentFor c.tree path with
  | error e => simp only [createOu, withFailing, hparent]
  | ok parent =>
    have hfree : ¬ ∃ x ∈ [Path.leaf path, parent], x ∈ c.org.failing := by
      rw [h.free]
      rintro ⟨x, -, hx⟩
      exact absurd hx List.not_mem_nil
    have hspared : ¬ ∃ x ∈ [Path.leaf path, parent], x ∈ (c.withFailing failing).org.failing := by
      rintro ⟨x, hx, hfailing⟩
      rcases List.mem_cons.1 hx with rfl | hx
      · exact hname hfailing
      · rw [List.mem_singleton.1 hx] at hfailing
        exact h.parentFor hparent hfailing
    have hcall := Organization.createOu_of_available hfree
    have hcall' := Organization.createOu_of_available hspared
    have hparent' : parentFor (c.withFailing failing).tree path = .ok parent := hparent
    have hsame : (c.withFailing failing).org.snapshot = c.org.snapshot := rfl
    rw [hsame] at hcall'
    unfold createOu
    simp only [hparent, hparent', hcall, hcall']
    cases Organization.created c.org.snapshot (Path.leaf path) parent with
    | error e => rfl
    | ok made => rfl

/-- So are the units on the way down to a declared path. -/
theorem createDown_withFailing (declared : String) {paths : List String}
    (hnames : ∀ path ∈ paths, Path.leaf path ∉ failing) (h : Spares failing c) :
    createDown declared paths (c.withFailing failing) =
        (createDown declared paths c).withFailing failing ∧
      Spares failing (createDown declared paths c) := by
  refine ⟨?_, createDown_keeps (Spares failing) (fun _ report h => h.note report) declared
    (fun _ path _ h => h.createOu path) c h⟩
  induction paths generalizing c with
  | nil => rfl
  | cons path paths ih =>
    obtain ⟨hname, hnames⟩ := List.forall_mem_cons.1 hnames
    have hmade := createOu_withFailing h hname
    have hspares := h.createOu path
    cases hthere : (c.tree.ouByPath? path).isSome with
    | true =>
      have hthere' : ((c.withFailing failing).tree.ouByPath? path).isSome = true := hthere
      simp only [createDown, hthere, hthere', if_true]
      exact ih hnames h
    | false =>
      have hthere' : ((c.withFailing failing).tree.ouByPath? path).isSome = false := hthere
      rcases hcalled : c.createOu path with ⟨creation, d⟩
      rw [hcalled] at hmade hspares
      cases creation with
      | created ou =>
        simp only [createDown, hthere, hthere', hcalled, hmade, Bool.false_eq_true, if_false]
        refine ih hnames (c := (d.warn _).addCreated ou) ?_
        exact (hspares.note _).note _
      | present =>
        simp only [createDown, hthere, hthere', hcalled, hmade, Bool.false_eq_true, if_false]
      | failed e =>
        simp only [createDown, hthere, hthere', hcalled, hmade, Bool.false_eq_true, if_false]
        rfl

/-- So are all missing units. -/
theorem createMissing_withFailing
    (hdeclared : ∀ r ∈ config.declaredPaths, ∀ id ∈ failing, id ∉ Path.segments r)
    (h : Spares failing c) :
    (c.withFailing failing).createMissing config = (c.createMissing config).withFailing failing ∧
      Spares failing (c.createMissing config) := by
  unfold createMissing
  generalize config.declaredPaths = rs at hdeclared ⊢
  induction rs generalizing c with
  | nil => exact ⟨rfl, h⟩
  | cons r rs ih =>
    obtain ⟨hfirst, hrest⟩ := List.forall_mem_cons.1 hdeclared
    have hnames : ∀ path ∈ Path.ancestry r, Path.leaf path ∉ failing := fun path hpath hfailing =>
      hfirst _ hfailing (Path.leaf_mem_segments hpath)
    obtain ⟨hdown, hspares⟩ := createDown_withFailing r hnames h
    have hstep : createDeclared config.options (c.withFailing failing) r =
          (createDeclared config.options c r).withFailing failing ∧
        Spares failing (createDeclared config.options c r) := by
      have hous : (c.withFailing failing).tree.ous = c.tree.ous := rfl
      unfold createDeclared
      rw [hous]
      split
      · exact ⟨rfl, h⟩
      split
      · exact ⟨hdown, hspares⟩
      · exact ⟨rfl, h⟩
    rw [List.foldl_cons, List.foldl_cons, hstep.1]
    exact ih hstep.2 hrest

/-- So is the unit of suspended accounts. -/
theorem suspendedTarget_withFailing (h : Spares failing c) {path : String}
    (hname : Path.leaf path ∉ failing) :
    (c.withFailing failing).suspendedTarget path =
        ((c.suspendedTarget path).1, (c.suspendedTarget path).2.withFailing failing) ∧
      Spares failing (c.suspendedTarget path).2 := by
  refine ⟨?_, suspendedTarget_keeps (Spares failing) (fun _ report h => h.note report)
    (fun _ h => h.createOu path) c h⟩
  have hmade := createOu_withFailing h hname
  cases hfound : c.tree.ouByPath? path with
  | some ou =>
    have hfound' : (c.withFailing failing).tree.ouByPath? path = some ou := hfound
    simp only [suspendedTarget, hfound, hfound']
  | none =>
    have hfound' : (c.withFailing failing).tree.ouByPath? path = none := hfound
    rcases hcalled : c.createOu path with ⟨creation, d⟩
    rw [hcalled] at hmade
    simp only [suspendedTarget, hfound, hfound', hcalled, hmade]
    cases creation with
    | created ou => rfl
    | failed e => rfl
    | present =>
      have hread : OrgTree.read (d.withFailing failing).org = OrgTree.read d.org :=
        read_rearranged (Snapshot.Rearranged.refl d.org.snapshot)
      have hreread : reread? (d.withFailing failing).org path = reread? d.org path := by
        simp only [reread?, hread]
      simp only [hreread]
      cases reread? d.org path with
      | none => rfl
      | some id => rfl

/-! ### Moving accounts -/

/-- Without some of the moves, the accounts of these stay. -/
theorem settled_filter (ts : List Transfer) (p : String → Bool) (a : LiveAccount) :
    settled (ts.filter fun t => p t.account) a = if p a.id then settled ts a else a := by
  split
  · rename_i hp
    have hfind : (ts.filter fun t => p t.account).find? (·.account == a.id) =
        ts.find? (·.account == a.id) := by
      rw [List.find?_filter]
      congr 1
      funext t
      by_cases hid : t.account = a.id
      · simp [hid, hp]
      · simp [hid]
    unfold settled
    rw [hfind]
  · rename_i hp
    refine settled_of_not_mem fun hmem => ?_
    obtain ⟨t, ht, hid⟩ := List.mem_map.1 hmem
    exact hp (hid ▸ (List.mem_filter.1 ht).2)

/-- The same moves lead to both states, but that in the second the ones of accounts that are made to
fail were not made. -/
def Alongside (failing : List String) (base c c' : Convergence) : Prop :=
  ∃ ts, Relocates base c ts ∧
    Relocates (base.withFailing failing) c' (ts.filter fun t => t.account ∉ failing)

namespace Alongside

variable {base : Convergence}

/-- Accounts that are not made to fail are at the same place in both. -/
theorem mem_iff (h : Alongside failing base c c') {a : LiveAccount} (ha : a.id ∉ failing) :
    a ∈ c'.org.snapshot.accounts ↔ a ∈ c.org.snapshot.accounts := by
  obtain ⟨ts, hfree, hhampered⟩ := h
  rw [hfree.snapshot, hhampered.snapshot]
  simp only [List.mem_map, settled_filter ts (fun id => id ∉ failing), decide_eq_true_eq]
  refine exists_congr fun b => and_congr_right fun _ => ?_
  split
  · exact Iff.rfl
  · rename_i hb
    rw [not_not] at hb
    constructor
    · rintro rfl
      exact absurd hb ha
    · rintro rfl
      rw [id_settled] at ha
      exact absurd hb ha

/-- The others are where they were. -/
theorem mem_iff_of_failing (h : Alongside failing base c c') {a : LiveAccount}
    (ha : a.id ∈ failing) : a ∈ c'.org.snapshot.accounts ↔ a ∈ base.org.snapshot.accounts := by
  obtain ⟨ts, -, hhampered⟩ := h
  rw [hhampered.snapshot]
  simp only [List.mem_map, settled_filter ts (fun id => id ∉ failing), decide_eq_true_eq]
  constructor
  · rintro ⟨b, hb, hmoved⟩
    split at hmoved
    · rename_i hid
      rw [← hmoved, id_settled] at ha
      exact absurd ha hid
    · exact hmoved ▸ hb
  · intro hin
    exact ⟨a, hin, if_neg (not_not_intro ha)⟩

/-- The primary account under the root is the same one in both, unless it is made to fail. -/
theorem primaryMove?_iff (h : Alongside failing base c c') (hc : c.Tracks) (hc' : c'.Tracks)
    (hemails : c.org.snapshot.DistinctEmails) (hemails' : c'.org.snapshot.DistinctEmails)
    {m : LiveAccount × LiveOu} (hm : m.1.id ∉ failing) :
    primaryMove? config c'.tree = some m ↔ primaryMove? config c.tree = some m := by
  have hmem := h.mem_iff hm
  obtain ⟨ts, hfree, hhampered⟩ := h
  have hroot : c'.tree.rootId = c.tree.rootId := hhampered.rootId.trans hfree.rootId.symm
  have hous : c'.tree.ous = c.tree.ous := hhampered.ous.trans hfree.ous.symm
  obtain ⟨live, ou⟩ := m
  simp only [primaryMove?_eq_some, rootPrimary?_eq_some_iff hc hemails,
    rootPrimary?_eq_some_iff hc' hemails', hroot, hous, hmem]

end Alongside

/-- **The second stage moves the accounts that it would move if nothing failed, but for those that
are made to fail.** -/
theorem relocateSuspended_alongside (hc : c.Tracks) (h : Spares failing c)
    (hname : Path.leaf config.options.suspendedOu ∉ failing) :
    ∃ base, base.org.snapshot.accounts = c.org.snapshot.accounts ∧ Spares failing base ∧
      Alongside failing base (c.relocateSuspended config)
        ((c.withFailing failing).relocateSuspended config) := by
  by_cases hout : outOfPlace c.tree config.options.suspendedOu = []
  · have hout' : outOfPlace (c.withFailing failing).tree config.options.suspendedOu = [] := hout
    simp only [relocateSuspended, hout, hout']
    exact ⟨c, rfl, h, [], Relocates.refl _, Relocates.refl _⟩
  have hc' : (c.withFailing failing).Tracks := hc.congr rfl rfl
  have hout' : outOfPlace (c.withFailing failing).tree config.options.suspendedOu ≠ [] := hout
  have hframe := (suspendedTarget_frame hc config.options.suspendedOu).2
  obtain ⟨htarget', hspares⟩ := suspendedTarget_withFailing h hname
  rcases htarget : c.suspendedTarget config.options.suspendedOu with ⟨id?, d⟩
  rw [htarget] at hframe htarget' hspares
  refine ⟨d, hframe.accounts_eq, hspares, ?_⟩
  cases id? with
  | none =>
    rw [relocateSuspended_of_none hout htarget, relocateSuspended_of_none hout' htarget']
    exact ⟨[], Relocates.refl _, Relocates.refl _⟩
  | some id =>
    obtain ⟨ou, hou, hid, -⟩ := suspendedTarget_found hc htarget
    have hfree := relocateSuspended_relocates hc hout htarget (h.free ▸ List.not_mem_nil)
    have hhampered := relocateSuspended_relocates hc' hout' htarget' (hid ▸ hspares.units ou hou)
    rw [h.free, List.filter_eq_self.2 fun a _ => decide_eq_true List.not_mem_nil] at hfree
    refine ⟨_, hfree, ?_⟩
    rw [List.filter_map]
    exact hhampered

/-- The last stage after other moves. -/
theorem Relocates.relocatePrimary {base : Convergence} {ts : List Transfer}
    (h : Relocates base c ts) (config : Configuration) (hc : c.Tracks)
    (hunits : ∀ ou ∈ c.tree.ous, ou.id ∉ c.org.failing) :
    Relocates base (c.relocatePrimary config)
      (ts ++ ((primaryMove? config c.tree).toList.filter (·.1.id ∉ c.org.failing)).map
        primaryTransfer) := by
  refine h.trans (relocatePrimary_relocates config hc fun m hm => ?_) fun t ht hmoved => ?_
  · obtain ⟨key, d, -, -, hstands⟩ := primaryMove?_eq_some.1 hm
    exact hunits m.2 hstands.mem
  · rw [List.map_map] at hmoved
    obtain ⟨m, hm, hid⟩ := List.mem_map.1 hmoved
    have hsame : m.1.id = t.account := hid
    have hprimary := primaryIn_of_primaryMove? (Option.mem_toList.1 (List.mem_filter.1 hm).1)
    exact h.not_primaryIn hc ht (hsame ▸ hprimary)

/-- **So does the last stage.** -/
theorem Alongside.relocatePrimary {base : Convergence} (h : Alongside failing base c c')
    (config : Configuration) (hspares : Spares failing base) (hc : c.Tracks) (hc' : c'.Tracks)
    (hemails : c.org.snapshot.DistinctEmails) (hemails' : c'.org.snapshot.DistinctEmails) :
    Alongside failing base (c.relocatePrimary config) (c'.relocatePrimary config) := by
  have hprimary : (primaryMove? config c'.tree).toList.filter (·.1.id ∉ failing) =
      (primaryMove? config c.tree).toList.filter (·.1.id ∉ failing) := by
    rw [← Option.toList_filter, ← Option.toList_filter]
    congr 1
    ext m
    simp only [Option.filter_eq_some_iff, decide_eq_true_eq]
    exact and_congr_left fun hm => h.primaryMove?_iff hc hc' hemails hemails' hm
  obtain ⟨ts, hfree, hhampered⟩ := h
  have hnothing : c.org.failing = [] := hfree.failing.trans hspares.free
  have hfailing : c'.org.failing = failing := hhampered.failing
  have hfirst := hfree.relocatePrimary config hc
    (hnothing ▸ fun _ _ => List.not_mem_nil)
  have hsecond := hhampered.relocatePrimary config hc'
    (hfailing ▸ hhampered.ous ▸ hspares.units)
  rw [hnothing, List.filter_eq_self.2 fun m _ => decide_eq_true List.not_mem_nil] at hfirst
  rw [hfailing, hprimary] at hsecond
  refine ⟨_, hfirst, ?_⟩
  rw [List.filter_append, List.filter_map]
  exact hsecond

end Convergence

/-! ### All of it -/

open Convergence

section

variable {config : Configuration} {org : Organization} {tree : OrgTree} {failing : List String}

/-- Accounts are neither the root nor units, if the identifiers say so. -/
theorem spares_of_accounts (hids : (org.snapshot.ous.map OuNode.id).Nodup)
    (hread : OrgTree.read org = .ok tree)
    (htargets : (org.snapshot.root.toList.map Root.id ++ org.snapshot.ous.map OuNode.id ++
      org.snapshot.accounts.map LiveAccount.id).Nodup)
    (hgenerated : ∀ a ∈ org.snapshot.accounts, ∀ n, a.id ≠ Snapshot.ouId n)
    (haccounts : ∀ id ∈ failing, ∃ a ∈ org.snapshot.accounts, a.id = id) :
    Spares failing ⟨{ org with failing := [] }, tree, {}⟩ := by
  have hcharts : Charts org.snapshot tree := charts_of_read hids hread
  obtain ⟨-, -, hapart⟩ := List.nodup_append.1 htargets
  refine ⟨rfl, fun hfailing => ?_, fun ou hou hfailing => ?_, fun n hfailing => ?_⟩
  · obtain ⟨a, ha, hid⟩ := haccounts _ hfailing
    obtain ⟨r, hr, hrid⟩ := hcharts.root_eq
    refine hapart r.id (List.mem_append_left _ ?_) a.id (List.mem_map_of_mem ha)
      (hrid.trans hid.symm)
    exact List.mem_map_of_mem (Option.mem_toList.2 hr)
  · obtain ⟨a, ha, hid⟩ := haccounts _ hfailing
    rw [hcharts.ous] at hou
    obtain ⟨node, hnode, rfl⟩ := List.mem_map.1 hou
    exact hapart node.id (List.mem_append_right _ (List.mem_map_of_mem hnode)) a.id
      (List.mem_map_of_mem ha) hid.symm
  · obtain ⟨a, ha, hid⟩ := haccounts _ hfailing
    exact hgenerated a ha n hid

/-- **Accounts that are made to fail stay, and decide about nothing else**: the units are those that
there are, and every other account is where it is, if nothing fails. No such account may have a name
as its identifier that a unit is created with. -/
theorem converge_isolates (hs : org.snapshot.Rooted) (hhoused : org.snapshot.Housed)
    (htargets : (org.snapshot.root.toList.map Root.id ++ org.snapshot.ous.map OuNode.id ++
      org.snapshot.accounts.map LiveAccount.id).Nodup)
    (hgenerated : ∀ a ∈ org.snapshot.accounts, ∀ n, a.id ≠ Snapshot.ouId n)
    (hemails : org.snapshot.DistinctEmails) (hread : OrgTree.read org = .ok tree)
    (haccounts : ∀ id ∈ failing, ∃ a ∈ org.snapshot.accounts, a.id = id)
    (hdeclared : ∀ r ∈ config.declaredPaths, ∀ id ∈ failing, id ∉ Path.segments r)
    (hsuspended : Path.leaf config.options.suspendedOu ∉ failing) :
    let free := (converge config { org with failing := [] } tree).org.snapshot
    let hampered := (converge config { org with failing } tree).org.snapshot
    hampered.ous = free.ous ∧
      (∀ a, a.id ∉ failing → (a ∈ hampered.accounts ↔ a ∈ free.accounts)) ∧
      ∀ a, a.id ∈ failing → (a ∈ hampered.accounts ↔ a ∈ org.snapshot.accounts) := by
  have h : (⟨{ org with failing := [] }, tree, {}⟩ : Convergence).Tracks :=
    (tracks_of_read hs hhoused hread).congr rfl rfl
  have h' : (⟨{ org with failing }, tree, {}⟩ : Convergence).Tracks := h.congr rfl rfl
  obtain ⟨hmade, hgrown⟩ := createMissing_frame config h
  obtain ⟨hmid, hframe⟩ := beforePrimary_frame config h
  obtain ⟨hmid', hframe'⟩ := beforePrimary_frame config h'
  obtain ⟨hmissing, hspares⟩ := createMissing_withFailing hdeclared
    (spares_of_accounts hs.ids hread htargets hgenerated haccounts)
  obtain ⟨base, haccounts', hbase, hsecond⟩ := relocateSuspended_alongside hmade hspares hsuspended
  rw [← hmissing] at hsecond
  have hlast := hsecond.relocatePrimary config hbase hmid hmid' (hframe.distinctEmails hemails)
    (hframe'.distinctEmails hemails)
  refine ⟨?_, fun a ha => hlast.mem_iff ha, fun a ha => ?_⟩
  · obtain ⟨ts, hfree, hhampered⟩ := hlast
    exact (congrArg Snapshot.ous hhampered.snapshot).trans
      (congrArg Snapshot.ous hfree.snapshot).symm
  · rw [← hgrown.accounts_eq, ← haccounts']
    exact hlast.mem_iff_of_failing ha

end

/-- The suspended account stays if it is made to fail; its unit is there all the same, and the
primary account goes to its own. -/
theorem converge_isolates_twoAstray :
    twoAstray.snapshot.WellFormed ∧ twoAstray.snapshot.DistinctEmails ∧
      (∀ id ∈ ["1"], ∃ a ∈ twoAstray.snapshot.accounts, a.id = id) ∧
      (∀ r ∈ primaryInCore.declaredPaths, ∀ id ∈ ["1"], id ∉ Path.segments r) ∧
      Path.leaf primaryInCore.options.suspendedOu ∉ ["1"] ∧
      ∃ t, OrgTree.read twoAstray = .ok t ∧
        let hampered := (converge primaryInCore { twoAstray with failing := ["1"] } t).org.snapshot
        hampered.ous.map OuNode.name = ["Core", "Suspended"] ∧
          ⟨"1", "Old", "old@x", .suspended, "r-1"⟩ ∈ hampered.accounts ∧
          ⟨"2", "Main", "main@x", .active, "u-1"⟩ ∈ hampered.accounts := by
  have hflat : twoAstray.snapshot.Flat ⟨"r-1", "Root"⟩ := by decide +kernel
  have hemails : twoAstray.snapshot.DistinctEmails := by
    unfold Snapshot.DistinctEmails
    decide +kernel
  have haccounts : ∀ id ∈ ["1"], ∃ a ∈ twoAstray.snapshot.accounts, a.id = id := by decide +kernel
  have hdeclared : ∀ r ∈ primaryInCore.declaredPaths, ∀ id ∈ ["1"], id ∉ Path.segments r := by
    decide +kernel
  have hsuspended : Path.leaf primaryInCore.options.suspendedOu ∉ ["1"] := by decide +kernel
  obtain ⟨t, hread, hnames, hmain⟩ : ∃ t, OrgTree.read twoAstray = .ok t ∧
      (converge primaryInCore { twoAstray with failing := [] } t).org.snapshot.ous.map OuNode.name =
        ["Core", "Suspended"] ∧
      ⟨"2", "Main", "main@x", .active, "u-1"⟩ ∈
        (converge primaryInCore { twoAstray with failing := [] } t).org.snapshot.accounts :=
    ⟨_, rfl, by decide +kernel, by decide +kernel⟩
  have hs := hflat.wellFormed
  obtain ⟨hous, hothers, hstays⟩ := converge_isolates hs.toRooted hs.toHoused hs.targets
    hs.accountsApart hemails hread haccounts hdeclared hsuspended
  refine ⟨hs, hemails, haccounts, hdeclared, hsuspended, t, hread, ?_, ?_, ?_⟩
  · exact (congrArg (List.map OuNode.name) hous).trans hnames
  · exact (hstays _ (by decide +kernel)).2 (by decide +kernel)
  · exact (hothers _ (by decide +kernel)).2 hmain

end OrgAlign.Drift
