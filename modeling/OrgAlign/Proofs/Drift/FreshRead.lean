import Mathlib.Data.List.Sort
import OrgAlign.Proofs.Drift.Frame

/-!
# The kept tree and a fresh one

Convergence never reads the hierarchy again: it takes every unit and every moved account into the
tree it was given. That tree and one read afresh from the changed organization differ at most in the
order of the accounts under one parent. Main statements:

* `OrgTree.Agrees`: two trees are the same up to that order;
* `InStep.agrees`: trees in step with the same snapshot agree;
* `InStep.housedOnce`, `InStep.accounts_perm`: every account is in the bucket of its parent and in
  no other, and none is lost or doubled;
* `converge_reread`: so it is after convergence, whatever was made to fail.
-/

namespace OrgAlign.Org

/-! ### Trees that agree -/

/-- Two trees are the same up to the order of the accounts under one parent. -/
structure OrgTree.Agrees (t u : OrgTree) : Prop where
  /-- The root is the same. -/
  rootId : u.rootId = t.rootId
  /-- The units are the same, in the same order and with the same paths. -/
  ous : u.ous = t.ous
  /-- The buckets belong to the same parents and hold the same accounts. -/
  buckets : List.Forall₂ (fun b c => c.1 = b.1 ∧ c.2.Perm b.2) t.buckets u.buckets

/-- Every account is in exactly one bucket, the one of its parent. -/
def OrgTree.HousedOnce (t : OrgTree) (accounts : List LiveAccount) : Prop :=
  ∀ a ∈ accounts, ∃ b ∈ t.buckets, b.1 = a.parent ∧ ∀ c ∈ t.buckets, a ∈ c.2 ↔ c = b

namespace InStep

variable {s : Snapshot} {t u : OrgTree}

/-- The buckets are those of the parents in order, each with the accounts under its parent. -/
theorem buckets_eq (h : InStep s t) :
    t.buckets = t.buckets.keys.map fun p => (p, t.accountsIn p) := by
  unfold Buckets.keys
  rw [List.map_map]
  refine (List.map_id t.buckets).symm.trans (List.map_congr_left fun b hb => ?_)
  exact Prod.ext rfl (h.mem_of_bucket hb)

/-- The parents with a bucket follow from the snapshot. -/
theorem keys_eq (h : InStep s t) (h' : InStep s u) : u.buckets.keys = t.buckets.keys := by
  have hmem : ∀ p, p ∈ u.buckets.keys ↔ p ∈ t.buckets.keys := fun p =>
    (h'.keys p).trans (h.keys p).symm
  have hperm : u.buckets.keys.Perm t.buckets.keys :=
    (List.perm_ext_iff_of_nodup h'.sorted.nodup_keys h.sorted.nodup_keys).2 hmem
  refine hperm.eq_of_pairwise (fun p q _ _ hpq hqp => ?_) (List.pairwise_map.2 h'.sorted)
    (List.pairwise_map.2 h.sorted)
  exact absurd (String.lt_trans hpq hqp) (String.lt_irrefl p)

/-- The accounts under a parent follow from the snapshot, up to their order. -/
theorem accountsIn_perm (h : InStep s t) (h' : InStep s u) (p : String) :
    (u.accountsIn p).Perm (t.accountsIn p) := by
  refine (List.perm_ext_iff_of_nodup (h'.once p).of_map (h.once p).of_map).2 fun a => ?_
  rw [h'.accounts, h.accounts]

/-- **Trees in step with the same snapshot agree.** -/
theorem agrees (h : InStep s t) (h' : InStep s u) : t.Agrees u := by
  refine ⟨?_, h'.ous.trans h.ous.symm, ?_⟩
  · exact Option.some.inj (h'.root.symm.trans h.root)
  · rw [h.buckets_eq, h'.buckets_eq, h.keys_eq h', List.forall₂_map_left_iff,
      List.forall₂_map_right_iff]
    exact List.forall₂_same.2 fun p _ => ⟨rfl, h.accountsIn_perm h' p⟩

/-- Every account is in the bucket of its parent, and in no other. -/
theorem housedOnce (h : InStep s t) (hs : s.Housed) : t.HousedOnce s.accounts := by
  intro a ha
  have hkey : a.parent ∈ t.buckets.keys := (h.keys _).2 (hs.accountParents a ha)
  obtain ⟨b, hb, hparent⟩ := List.mem_map.1 hkey
  refine ⟨b, hb, hparent, fun c hc => ?_⟩
  rw [h.mem_of_bucket hc, h.accounts]
  constructor
  · rintro ⟨-, hc'⟩
    exact List.inj_on_of_nodup_map h.sorted.nodup_keys hc hb (hc'.symm.trans hparent.symm)
  · rintro rfl
    exact ⟨ha, hparent.symm⟩

/-- No account is lost and none is doubled. -/
theorem accounts_perm (h : InStep s t) (hs : s.Housed) : t.accounts.Perm s.accounts :=
  (List.perm_ext_iff_of_nodup (h.nodup_accounts hs).of_map hs.accountIds.of_map).2
    fun _ => h.mem_accounts

end InStep
end OrgAlign.Org

namespace OrgAlign.Drift

open Config Org Convergence

/-- Accounts that kept everything but their parents are the same accounts. -/
theorem Convergence.Frame.accountIds {movable : String → Prop} {c c' : Convergence}
    (h : Frame movable c c') : c'.org.snapshot.accounts.map LiveAccount.id =
      c.org.snapshot.accounts.map LiveAccount.id := by
  rw [← List.forall₂_eq_eq_eq, List.forall₂_map_left_iff, List.forall₂_map_right_iff]
  refine h.accounts.flip.imp ?_
  rintro b a ⟨hb, -⟩
  rw [hb]

/-- **The tree that convergence keeps is the one that is there.** Whatever is made to fail, a tree
read before convergence and kept through it agrees with a fresh reading of the organization: the
same units in the same order with the same paths, and every account in exactly one bucket, that of
its parent; and the accounts are those there were before. -/
theorem converge_reread (config : Configuration) (o : Organization) (hs : o.snapshot.Rooted)
    (hhoused : o.snapshot.Housed) :
    ∃ t fresh, OrgTree.read o = .ok t ∧ OrgTree.read (converge config o t).org = .ok fresh ∧
      (converge config o t).tree.Agrees fresh ∧
      (converge config o t).tree.HousedOnce (converge config o t).org.snapshot.accounts ∧
      (converge config o t).tree.accounts.Perm (converge config o t).org.snapshot.accounts ∧
      (converge config o t).org.snapshot.accounts.map LiveAccount.id =
        o.snapshot.accounts.map LiveAccount.id := by
  obtain ⟨t, hread, hstep⟩ := inStep_read hs hhoused
  have hstart : (⟨o, t, {}⟩ : Convergence).Tracks := ⟨hs, hhoused, hstep⟩
  obtain ⟨htracks, hframe⟩ := converge_frame config hstart
  obtain ⟨fresh, hagain, hfresh⟩ := inStep_read htracks.rooted htracks.housed
  exact ⟨t, fresh, hread, hagain, htracks.inStep.agrees hfresh,
    htracks.inStep.housedOnce htracks.housed, htracks.inStep.accounts_perm htracks.housed,
    hframe.accountIds⟩

/-- A unit below the root, two suspended accounts in it, and every call about one of them fails. -/
def haltedMove : Organization where
  snapshot :=
    { root := some ⟨"r-1", "Root"⟩, ous := [⟨"ou-a", "A", "r-1"⟩]
      accounts := [⟨"1", "N", "n@x", .suspended, "ou-a"⟩, ⟨"2", "M", "m@x", .suspended, "ou-a"⟩]
      policies := [] }
  failing := ["1"]

/-- A configuration that asks for a unit two levels below one that is there. -/
def deeperUnit : Configuration := ⟨{}, .ofList [("A/B/C", {})], .empty, .empty⟩

/-- Two units and the unit of suspended accounts are created, and one of two accounts moves. -/
theorem converge_reread_halted_move :
    haltedMove.snapshot.Rooted ∧ haltedMove.snapshot.Housed ∧
      ∃ t fresh, OrgTree.read haltedMove = .ok t ∧
        OrgTree.read (converge deeperUnit haltedMove t).org = .ok fresh ∧
        (converge deeperUnit haltedMove t).tree.Agrees fresh := by
  have hflat : haltedMove.snapshot.Flat ⟨"r-1", "Root"⟩ := by decide +kernel
  have hrooted := hflat.wellFormed.toRooted
  have hhoused := hflat.wellFormed.toHoused
  obtain ⟨t, fresh, hread, hagain, hagrees, -⟩ :=
    converge_reread deeperUnit haltedMove hrooted hhoused
  exact ⟨hrooted, hhoused, t, fresh, hread, hagain, hagrees⟩

end OrgAlign.Drift
