import OrgAlign.Proofs.Drift.Steps
import OrgAlign.Proofs.Org.InStep
import OrgAlign.Proofs.Reconcile.Resolution

/-!
# What convergence leaves alone

The tree that convergence keeps stays in step with the organization, whatever fails. Units are only
ever added, policies stay, and accounts keep everything but their parents, which only suspended
accounts and the primary account under the root ever change. Main statements:

* `Convergence.Tracks`, `Convergence.Frame`: the tree is in step, and what stays as it was;
* `converge_frame`: convergence keeps both.
-/

namespace OrgAlign.Drift

open Config Org Reconcile

namespace Convergence

/-! ### In step -/

/-- The units form a hierarchy, and the tree shows them, whatever it shows of the accounts. -/
structure Charted (c : Convergence) : Prop where
  /-- The units form a hierarchy. -/
  rooted : c.org.snapshot.Rooted
  /-- The tree shows them. -/
  charts : Charts c.org.snapshot c.tree

/-- The organization is well linked, and the tree is in step with it. -/
structure Tracks (c : Convergence) : Prop where
  /-- The units form a hierarchy. -/
  rooted : c.org.snapshot.Rooted
  /-- The accounts have parents. -/
  housed : c.org.snapshot.Housed
  /-- The tree shows what there is. -/
  inStep : InStep c.org.snapshot c.tree

variable {c c' : Convergence}

/-- A tree that was just read is in step. -/
theorem tracks_of_read {org : Organization} {tree : OrgTree} (hs : org.snapshot.Rooted)
    (hhoused : org.snapshot.Housed) (hread : OrgTree.read org = .ok tree) :
    (⟨org, tree, {}⟩ : Convergence).Tracks := by
  obtain ⟨t, ht, hstep⟩ := inStep_read hs hhoused
  rw [hread] at ht
  cases ht
  exact ⟨hs, hhoused, hstep⟩

/-- A tree in step shows the units. -/
theorem Tracks.charted (h : c.Tracks) : c.Charted := ⟨h.rooted, h.inStep.charts⟩

/-- Whether the tree shows the units shows in what there is and in the tree. -/
theorem Charted.congr (h : c.Charted) (hsnapshot : c'.org.snapshot = c.org.snapshot)
    (htree : c'.tree = c.tree) : c'.Charted := by
  refine ⟨?_, ?_⟩
  · rw [hsnapshot]
    exact h.rooted
  · rw [hsnapshot, htree]
    exact h.charts

/-- After an attempt to create a unit the tree shows the units. -/
theorem Charted.createOu (h : c.Charted) (path : String) : (c.createOu path).2.Charted := by
  rcases c.createOu_effect path with ⟨hs, ht⟩ | ⟨parent, node, -, hmade, hs, ht⟩
  · exact h.congr hs ht
  · obtain ⟨-, hfits, -⟩ := Snapshot.created_eq_ok hmade
    constructor
    · rw [hs]
      exact h.rooted.addOu hfits
    · rw [hs, ht]
      exact (h.charts.insertOu h.rooted hfits).1

/-- An attempt to move an account leaves the units alone. -/
theorem move_units (c : Convergence) (a : LiveAccount) (targetId targetPath : String) :
    (c.move a targetId targetPath).2.org.snapshot.root = c.org.snapshot.root ∧
      (c.move a targetId targetPath).2.org.snapshot.ous = c.org.snapshot.ous ∧
      (c.move a targetId targetPath).2.tree.rootId = c.tree.rootId ∧
      (c.move a targetId targetPath).2.tree.ous = c.tree.ous := by
  rcases c.move_effect a targetId targetPath with ⟨hs, ht⟩ | ⟨hmoved, ht⟩
  · rw [hs, ht]
    exact ⟨rfl, rfl, rfl, rfl⟩
  · rw [Organization.eq_of_moved hmoved, ht]
    unfold OrgTree.relocate
    split <;> exact ⟨rfl, rfl, rfl, rfl⟩

/-- After an attempt to move an account the tree shows the units. -/
theorem Charted.move (h : c.Charted) (a : LiveAccount) (targetId targetPath : String) :
    (c.move a targetId targetPath).2.Charted := by
  obtain ⟨hroot, hous, hid, htree⟩ := c.move_units a targetId targetPath
  refine ⟨h.rooted.congr hroot hous, ?_, ?_⟩
  · rw [hroot, hid]
    exact h.charts.root
  · rw [htree, hous, Snapshot.located_congr hous]
    exact h.charts.ous

/-- Units are only ever added to a tree. -/
theorem ous_createOu (c : Convergence) (path : String) :
    c.tree.ous <+: (c.createOu path).2.tree.ous := by
  rcases c.createOu_effect path with ⟨-, ht⟩ | ⟨parent, node, -, -, -, ht⟩
  · simp only [ht, List.prefix_rfl]
  · rw [ht]
    exact List.prefix_append _ _

/-- Whether the tree is in step shows in what there is and in the tree. -/
theorem Tracks.congr (h : c.Tracks) (hsnapshot : c'.org.snapshot = c.org.snapshot)
    (htree : c'.tree = c.tree) : c'.Tracks := by
  refine ⟨?_, ?_, ?_⟩
  · rw [hsnapshot]
    exact h.rooted
  · rw [hsnapshot]
    exact h.housed
  · rw [hsnapshot, htree]
    exact h.inStep

/-- An attempt to create a unit leaves the tree in step. -/
theorem Tracks.createOu (h : c.Tracks) (path : String) : (c.createOu path).2.Tracks := by
  rcases c.createOu_effect path with ⟨hs, ht⟩ | ⟨parent, node, -, hmade, hs, ht⟩
  · exact h.congr hs ht
  · obtain ⟨-, hfits, -⟩ := Snapshot.created_eq_ok hmade
    constructor
    · rw [hs]
      exact h.rooted.addOu hfits
    · rw [hs]
      exact h.housed.addOu _
    · rw [hs, ht]
      exact h.inStep.insertOu h.rooted hfits

/-- An attempt to move an account leaves the tree in step. -/
theorem Tracks.move (h : c.Tracks) (a : LiveAccount) (targetId targetPath : String) :
    (c.move a targetId targetPath).2.Tracks := by
  rcases c.move_effect a targetId targetPath with ⟨hs, ht⟩ | ⟨hmoved, ht⟩
  · exact h.congr hs ht
  · obtain ⟨hs, htarget, hne, b, hb, hid, hparent⟩ := Snapshot.moved_eq_ok h.housed hmoved
    rw [← hid] at hs ht
    constructor
    · rw [hs]
      exact h.rooted.congr rfl rfl
    · rw [hs]
      exact h.housed.rehouse htarget
    · rw [hs, ht]
      exact (h.inStep.relocate h.housed hb htarget (hparent ▸ hne)).1

/-! ### Frame -/

/-- An account is as it was but for its parent, and that only if it may be moved. -/
def Rehoused (movable : String → Prop) (a b : LiveAccount) : Prop :=
  b = { a with parent := b.parent } ∧ (b.parent = a.parent ∨ movable a.id)

/-- Whatever else happened, units were only added, policies stayed, and accounts kept everything but
their parents, and these, too, unless they may be moved. -/
structure Frame (movable : String → Prop) (c c' : Convergence) : Prop where
  /-- The root stayed. -/
  root : c'.tree.rootId = c.tree.rootId
  /-- Units were only added. -/
  ous : ∃ more, c'.tree.ous = c.tree.ous ++ more
  /-- Those have identifiers made from numbers. -/
  generated : ∀ ou ∈ c'.tree.ous, ou ∈ c.tree.ous ∨ ∃ n, ou.id = Snapshot.ouId n
  /-- Policies stayed. -/
  policies : c'.org.snapshot.policies = c.org.snapshot.policies
  /-- Accounts stayed, and most of them where they were. -/
  accounts : List.Forall₂ (Rehoused movable) c.org.snapshot.accounts c'.org.snapshot.accounts

variable {movable : String → Prop}

theorem Frame.refl (movable : String → Prop) (c : Convergence) : Frame movable c c := by
  refine ⟨rfl, ⟨[], (List.append_nil _).symm⟩, fun ou hou => .inl hou, rfl, ?_⟩
  exact List.forall₂_same.2 fun a _ => ⟨rfl, .inl rfl⟩

/-- Whether it stays in the frame shows in what there is and in the tree. -/
theorem Frame.congr {d : Convergence} (h : Frame movable c c')
    (hsnapshot : d.org.snapshot = c'.org.snapshot) (htree : d.tree = c'.tree) :
    Frame movable c d := by
  refine ⟨?_, ?_, ?_, ?_, ?_⟩
  · rw [htree]
    exact h.root
  · rw [htree]
    exact h.ous
  · rw [htree]
    exact h.generated
  · rw [hsnapshot]
    exact h.policies
  · rw [hsnapshot]
    exact h.accounts

/-- An attempt to create a unit stays in the frame. -/
theorem Frame.createOu (h : Frame movable c c') (path : String) :
    Frame movable c (c'.createOu path).2 := by
  rcases c'.createOu_effect path with ⟨hs, ht⟩ | ⟨parent, node, -, hmade, hs, ht⟩
  · exact h.congr hs ht
  · obtain ⟨-, hfits, -⟩ := Snapshot.created_eq_ok hmade
    obtain ⟨more, hmore⟩ := h.ous
    have hous : (c'.createOu path).2.tree.ous = c'.tree.ous ++ [(c'.tree.insertOu node).1] := by
      rw [ht]
      rfl
    refine ⟨?_, ⟨more ++ [(c'.tree.insertOu node).1], ?_⟩, fun ou hou => ?_, ?_, ?_⟩
    · rw [ht]
      exact h.root
    · rw [hous, hmore, List.append_assoc]
    · rw [hous] at hou
      rcases List.mem_append.1 hou with hold | hnew
      · exact h.generated ou hold
      · obtain rfl := List.mem_singleton.1 hnew
        exact .inr hfits.generated
    · rw [hs]
      exact h.policies
    · rw [hs]
      exact h.accounts

/-- An attempt to move an account that may be moved stays in the frame. -/
theorem Frame.move (h : Frame movable c c') (hc' : c'.Tracks) {a : LiveAccount}
    (ha : movable a.id) (targetId targetPath : String) :
    Frame movable c (c'.move a targetId targetPath).2 := by
  rcases c'.move_effect a targetId targetPath with ⟨hs, ht⟩ | ⟨hmoved, ht⟩
  · exact h.congr hs ht
  · obtain ⟨hs, htarget, hne, b, hb, hid, hparent⟩ := Snapshot.moved_eq_ok hc'.housed hmoved
    have htree := hc'.inStep.relocate hc'.housed hb htarget (hparent ▸ hne)
    rw [hid, ← ht] at htree
    refine ⟨htree.2.2.trans h.root, ?_, fun ou hou => h.generated ou (htree.2.1 ▸ hou), ?_, ?_⟩
    · obtain ⟨more, hmore⟩ := h.ous
      exact ⟨more, htree.2.1.trans hmore⟩
    · rw [hs]
      exact h.policies
    · rw [hs]
      refine List.forall₂_map_right_iff.2 (h.accounts.imp ?_)
      rintro d e ⟨he, hpar⟩
      split
      · rename_i heid
        have hdid : d.id = a.id := by
          rw [he] at heid
          exact heid
        refine ⟨?_, .inr (hdid ▸ ha)⟩
        rw [he]
      · exact ⟨he, hpar⟩

/-- A frame may let more accounts be moved. -/
theorem Frame.mono (h : Frame movable c c') {movable' : String → Prop}
    (hmono : ∀ id, movable id → movable' id) : Frame movable' c c' :=
  ⟨h.root, h.ous, h.generated, h.policies,
    h.accounts.imp fun _ _ hab => ⟨hab.1, hab.2.imp_right (hmono _)⟩⟩

/-- What two stages leave alone one after the other. -/
theorem Frame.trans {c'' : Convergence} {movable' : String → Prop} (h : Frame movable c c')
    (h' : Frame movable' c' c'') : Frame (fun id => movable id ∨ movable' id) c c'' := by
  obtain ⟨more, hmore⟩ := h.ous
  obtain ⟨more', hmore'⟩ := h'.ous
  refine ⟨h'.root.trans h.root, ⟨more ++ more', ?_⟩, fun ou hou => ?_,
    h'.policies.trans h.policies, ?_⟩
  · rw [hmore', hmore, List.append_assoc]
  · rcases h'.generated ou hou with hold | hnew
    · exact h.generated ou hold
    · exact .inr hnew
  · refine forall₂_trans ?_ h.accounts h'.accounts
    rintro a b d ⟨hb, hbpar⟩ ⟨hd, hdpar⟩
    have hid : b.id = a.id := by rw [hb]
    refine ⟨by rw [hd, hb], ?_⟩
    rcases hdpar with hdpar | hmov
    · rcases hbpar with hbpar | hmov
      · exact .inl (hdpar.trans hbpar)
      · exact .inr (.inl hmov)
    · exact .inr (.inr (hid ▸ hmov))

/-- Where nothing may be moved, the accounts stay as they are. -/
theorem Frame.accounts_eq (h : Frame (fun _ => False) c c') :
    c'.org.snapshot.accounts = c.org.snapshot.accounts := by
  refine (List.forall₂_eq_eq_eq ▸ h.accounts.imp ?_ :).symm
  rintro a b ⟨hb, hpar | hmov⟩
  · rw [hb, hpar]
  · exact hmov.elim

/-! ### The stages -/

/-- The first stage, creating units. -/
theorem createMissing_frame (config : Configuration) (hc : c.Tracks) :
    (c.createMissing config).Tracks ∧ Frame (fun _ => False) c (c.createMissing config) :=
  createMissing_keeps (fun c' => c'.Tracks ∧ Frame (fun _ => False) c c')
    (fun _ _ h => ⟨h.1.congr rfl rfl, h.2.congr rfl rfl⟩) config
    (fun _ path _ h => ⟨h.1.createOu path, h.2.createOu path⟩) c ⟨hc, Frame.refl _ c⟩

/-- A suspended account has the identifier. -/
def SuspendedIn (s : Snapshot) (id : String) : Prop :=
  ∃ a ∈ s.accounts, a.id = id ∧ a.isSuspended = true

/-- A suspended account out of its place has the identifier. -/
def OutOfPlaceIn (config : Configuration) (t : OrgTree) (id : String) : Prop :=
  ∃ a ∈ outOfPlace t config.options.suspendedOu, a.id = id

/-- The second stage, moving suspended accounts that are out of their place. -/
theorem relocateSuspended_frame (config : Configuration) (hc : c.Tracks) :
    (c.relocateSuspended config).Tracks ∧
      Frame (OutOfPlaceIn config c.tree) c (c.relocateSuspended config) := by
  let Inv : Convergence → Prop := fun c' => c'.Tracks ∧ Frame (OutOfPlaceIn config c.tree) c c'
  refine relocateSuspended_keeps Inv ?_ config ?_ c ?_ ⟨hc, Frame.refl _ c⟩
  · intro c' report h
    exact ⟨h.1.congr rfl rfl, h.2.congr rfl rfl⟩
  · intro c' h
    exact ⟨h.1.createOu _, h.2.createOu _⟩
  · intro c' id path a ha h
    exact ⟨h.1.move a id path, h.2.move h.1 ⟨a, ha, rfl⟩ id path⟩

/-- What is out of its place is suspended. -/
theorem OutOfPlaceIn.suspendedIn {config : Configuration} (hc : c.Tracks) {id : String}
    (h : OutOfPlaceIn config c.tree id) : SuspendedIn c.org.snapshot id := by
  obtain ⟨a, ha, hid⟩ := h
  obtain ⟨hin, hout⟩ := List.mem_filter.1 ha
  exact ⟨a, hc.inStep.mem_accounts.1 hin, hid, (Bool.and_eq_true_iff.1 hout).1⟩

/-- The primary account under the root has the identifier. -/
def PrimaryIn (config : Configuration) (t : OrgTree) (id : String) : Prop :=
  ∃ key live, rootPrimary? config t = some (key, live) ∧ live.id = id

/-- The third stage, moving the primary account. -/
theorem relocatePrimary_frame (config : Configuration) (hc : c.Tracks) :
    (c.relocatePrimary config).Tracks ∧
      Frame (PrimaryIn config c.tree) c (c.relocatePrimary config) := by
  let Inv : Convergence → Prop := fun c' => c'.Tracks ∧ Frame (PrimaryIn config c.tree) c c'
  refine relocatePrimary_keeps Inv ?_ config c ?_ ⟨hc, Frame.refl _ c⟩
  · intro c' report h
    exact ⟨h.1.congr rfl rfl, h.2.congr rfl rfl⟩
  · intro key live id path h
    exact ⟨hc.move live id path, (Frame.refl _ c).move hc ⟨key, live, h, rfl⟩ id path⟩

/-- The third stage adds no unit. -/
theorem relocatePrimary_ous (config : Configuration) (c : Convergence) :
    (c.relocatePrimary config).tree.ous = c.tree.ous := by
  refine relocatePrimary_keeps (fun c' => c'.tree.ous = c.tree.ous) (fun _ _ h => h) config c ?_ rfl
  intro key live id path _
  exact (c.move_units live id path).2.2.2

/-- The primary account is under the root. -/
theorem mem_of_rootPrimary? {config : Configuration} (hc : c.Tracks) {key : String}
    {live : LiveAccount} (h : rootPrimary? config c.tree = some (key, live)) :
    live ∈ c.org.snapshot.accounts ∧ live.parent = c.tree.rootId := by
  unfold rootPrimary? at h
  obtain ⟨d, -, hd⟩ := Option.bind_eq_some_iff.1 h
  obtain ⟨a, ha, heq⟩ := Option.map_eq_some_iff.1 hd
  cases heq
  exact hc.inStep.mem_rootAccounts.1 (matchAccount?_eq_some ha).1

end Convergence

/-! ### All of it -/

open Convergence

/-- Convergence before its last stage. -/
def beforePrimary (config : Configuration) (org : Organization) (tree : OrgTree) : Convergence :=
  ((⟨org, tree, {}⟩ : Convergence).createMissing config).relocateSuspended config

/-- The accounts that convergence may move: suspended ones, and the primary account under the
root. -/
def MayMove (config : Configuration) (org : Organization) (tree : OrgTree) (id : String) : Prop :=
  SuspendedIn org.snapshot id ∨ PrimaryIn config (beforePrimary config org tree).tree id

section

variable (config : Configuration) {org : Organization} {tree : OrgTree}

/-- Up to its last stage, convergence keeps the tree in step and moves only suspended accounts. -/
theorem beforePrimary_frame (h : (⟨org, tree, {}⟩ : Convergence).Tracks) :
    (beforePrimary config org tree).Tracks ∧
      Frame (SuspendedIn org.snapshot) ⟨org, tree, {}⟩ (beforePrimary config org tree) := by
  obtain ⟨htracks₁, hframe₁⟩ := createMissing_frame config h
  obtain ⟨htracks₂, hframe₂⟩ := relocateSuspended_frame config htracks₁
  refine ⟨htracks₂, (hframe₁.trans hframe₂).mono ?_⟩
  rintro id (hfalse | hout)
  · exact hfalse.elim
  · obtain ⟨a, ha, hid, hsuspended⟩ := hout.suspendedIn htracks₁
    rw [hframe₁.accounts_eq] at ha
    exact ⟨a, ha, hid, hsuspended⟩

/-- **Convergence keeps its tree in step with the organization, whatever fails**, and leaves alone
what it has no business with. -/
theorem converge_frame (h : (⟨org, tree, {}⟩ : Convergence).Tracks) :
    (converge config org tree).Tracks ∧
      Frame (MayMove config org tree) ⟨org, tree, {}⟩ (converge config org tree) := by
  obtain ⟨htracks, hframe⟩ := beforePrimary_frame config h
  obtain ⟨htracks', hframe'⟩ := relocatePrimary_frame config htracks
  exact ⟨htracks', hframe.trans hframe'⟩

end
end OrgAlign.Drift
