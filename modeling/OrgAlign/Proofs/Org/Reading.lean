import OrgAlign.Org.Tree
import OrgAlign.Proofs.Org.InStep

/-!
# What a reading shows

A hierarchy that could be read shows units and accounts of the organization, however badly the
organization is linked. Main statements:

* `read_eq_ok`: what a reading is put together from;
* `exists_located_of_read`, `charts_of_read`: its units are those of the organization with their
  paths;
* `mem_accounts_of_read`: its accounts are accounts of the organization.
-/

namespace OrgAlign.Org

variable {o : Organization} {t : OrgTree}

/-- A hierarchy is read from the root, the units one by one, and the accounts parent by parent. -/
theorem read_eq_ok (h : OrgTree.read o = .ok t) :
    (∃ r, o.snapshot.root = some r ∧ r.id = t.rootId) ∧
      List.Forall₂ (fun node ou => o.ouWithPath node.id = .ok ou) o.snapshot.ous t.ous ∧
      OrgTree.readBuckets o (t.rootId :: t.ous.map LiveOu.id) [] = .ok t.buckets := by
  unfold OrgTree.read Organization.roots at h
  cases hroot : o.snapshot.root with
  | none =>
    rw [hroot] at h
    cases h
  | some r =>
    rw [hroot] at h
    obtain ⟨root, hr, h⟩ := bind_eq_ok.1 h
    cases hr
    obtain ⟨ous, hous, h⟩ := bind_eq_ok.1 h
    obtain ⟨buckets, hbuckets, h⟩ := bind_eq_ok.1 h
    cases h
    refine ⟨⟨r, rfl, rfl⟩, (mapM_eq_ok.1 hous).imp fun node ou hou => ?_, hbuckets⟩
    split at hou
    · rename_i hpath
      cases hou
      exact hpath
    · cases hou

/-! ### Units -/

/-- A unit with its path is one of the organization. -/
theorem Organization.ouWithPath_eq_ok {id : String} {ou : LiveOu} (h : o.ouWithPath id = .ok ou) :
    ∃ node ∈ o.snapshot.ous, node.id = id ∧ ou = o.snapshot.located node := by
  unfold Organization.ouWithPath at h
  split at h
  · rename_i node hnode
    cases h
    unfold Snapshot.ou? at hnode
    exact ⟨node, List.mem_of_find?_eq_some hnode, by simpa using List.find?_some hnode, rfl⟩
  · cases h

/-- The units of a reading are units of the organization with their paths. -/
theorem exists_located_of_read (h : OrgTree.read o = .ok t) {ou : LiveOu} (hou : ou ∈ t.ous) :
    ∃ node ∈ o.snapshot.ous, ou = o.snapshot.located node := by
  obtain ⟨-, hous, -⟩ := read_eq_ok h
  obtain ⟨node, -, hnode⟩ := forall₂_exists_left hous hou
  obtain ⟨found, hfound, -, heq⟩ := Organization.ouWithPath_eq_ok hnode
  exact ⟨found, hfound, heq⟩

/-- Where units have identifiers of their own, a reading shows each of them. -/
theorem ous_of_read (hids : (o.snapshot.ous.map OuNode.id).Nodup) (h : OrgTree.read o = .ok t) :
    t.ous = o.snapshot.ous.map o.snapshot.located := by
  obtain ⟨-, hous, -⟩ := read_eq_ok h
  refine forall₂_eq_map hous fun node hnode ou hou => ?_
  obtain ⟨found, hfound, hid, heq⟩ := Organization.ouWithPath_eq_ok hou
  rw [heq, List.inj_on_of_nodup_map hids hfound hnode hid]

/-- A reading has the root, and each unit where it is. -/
theorem charts_of_read (hids : (o.snapshot.ous.map OuNode.id).Nodup) (h : OrgTree.read o = .ok t) :
    Charts o.snapshot t := by
  obtain ⟨⟨r, hr, hid⟩, -, -⟩ := read_eq_ok h
  refine ⟨?_, ous_of_read hids h⟩
  rw [hr, ← hid]
  rfl

/-! ### Accounts -/

namespace Buckets

/-- Setting a bucket leaves the others. -/
theorem mem_set {bs : Buckets} {parent : String} {accounts : List LiveAccount}
    {b : String × List LiveAccount} (h : b ∈ bs.set parent accounts) :
    b ∈ bs ∨ b = (parent, accounts) := by
  unfold set at h
  induction bs with
  | nil => exact .inr (List.mem_singleton.1 h)
  | cons c bs ih =>
    unfold alter at h
    split at h
    · rcases List.mem_cons.1 h with rfl | h
      · exact .inr rfl
      · exact .inl (List.mem_cons_of_mem _ h)
    · split at h
      · rcases List.mem_cons.1 h with rfl | h
        · exact .inr rfl
        · exact .inl h
      · rcases List.mem_cons.1 h with rfl | h
        · exact .inl List.mem_cons_self
        · exact (ih h).imp_left (List.mem_cons_of_mem _)

end Buckets

/-- What is read into a bucket are accounts of the organization under the bucket's parent. -/
theorem mem_of_readBuckets {parents : List String} {bs bs' : Buckets}
    (h : OrgTree.readBuckets o parents bs = .ok bs') {b : String × List LiveAccount}
    (hb : b ∈ bs') : b ∈ bs ∨ ∀ a ∈ b.2, a ∈ o.snapshot.accounts ∧ a.parent = b.1 := by
  induction parents generalizing bs with
  | nil =>
    cases h
    exact .inl hb
  | cons parent parents ih =>
    unfold OrgTree.readBuckets at h
    split at h
    · rename_i accounts haccounts
      rcases ih h with hset | hall
      · refine (Buckets.mem_set hset).imp_right ?_
        rintro rfl a ha
        unfold Organization.accountsUnder at haccounts
        split at haccounts
        · cases haccounts
          simpa using ha
        · cases haccounts
      · exact .inr hall
    · cases h

/-- Every account of a tree is in a bucket. -/
theorem OrgTree.exists_bucket {a : LiveAccount} (ha : a ∈ t.accounts) :
    ∃ b ∈ t.buckets, a ∈ b.2 := by
  unfold OrgTree.accounts OrgTree.rootAccounts at ha
  rcases List.mem_append.1 ha with ha | ha
  · obtain ⟨b, hb, -, ha⟩ := OrgTree.exists_bucket_of_mem_accountsIn ha
    exact ⟨b, hb, ha⟩
  · obtain ⟨b, hb, ha⟩ := List.mem_flatMap.1 ha
    exact ⟨b, List.mem_of_mem_filter hb, ha⟩

/-- The accounts of a reading are accounts of the organization. -/
theorem mem_accounts_of_read (h : OrgTree.read o = .ok t) {a : LiveAccount} (ha : a ∈ t.accounts) :
    a ∈ o.snapshot.accounts := by
  obtain ⟨-, -, hbuckets⟩ := read_eq_ok h
  obtain ⟨b, hb, hab⟩ := OrgTree.exists_bucket ha
  rcases mem_of_readBuckets hbuckets hb with hnone | hall
  · exact absurd hnone List.not_mem_nil
  · exact (hall a hab).1

end OrgAlign.Org
