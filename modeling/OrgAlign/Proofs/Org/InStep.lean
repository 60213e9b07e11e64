import OrgAlign.Org.Tree
import OrgAlign.Proofs.Org.CallLog
import OrgAlign.Proofs.Org.Hierarchy

/-!
# Trees in step with their organization

A tree `Charts` a snapshot when it has the snapshot's root and its units with their paths, and is
`InStep` with it when it also has under each parent just the accounts whose parent that is. Main
statements:

* `inStep_read`: a tree read from an organization is in step with it;
* `Charts.insertOu`, `InStep.insertOu`, `InStep.relocate`: a tree that takes a new unit or a moved
  account in stays in step;
* `Charts.ouById?_eq_some`, `InStep.mem_accounts`: what can be looked up in a tree is what there is.
-/

namespace OrgAlign.Org

/-! ### Buckets -/

namespace Buckets

/-- The parents that have a bucket. -/
def keys (bs : Buckets) : List String := bs.map Prod.fst

/-- The buckets are in order of their parents, no parent twice. -/
def Sorted (bs : Buckets) : Prop := bs.Pairwise fun b c => b.1 < c.1

theorem mem_keys_alter {parent q : String} {f : Option (List LiveAccount) → List LiveAccount}
    {bs : Buckets} : q ∈ keys (alter parent f bs) ↔ q = parent ∨ q ∈ keys bs := by
  induction bs with
  | nil => simp [alter, keys]
  | cons b bs ih =>
    unfold alter
    split
    · rename_i h
      simp [keys, h]
    · split
      · simp [keys]
      · simp only [keys, List.map_cons, List.mem_cons] at ih ⊢
        rw [ih]
        tauto

/-- The order depends on the parents alone. -/
theorem Sorted.congr {bs bs' : Buckets} (h : Sorted bs) (hkeys : keys bs' = keys bs) :
    Sorted bs' := by
  have hordered : (keys bs).Pairwise (· < ·) := List.pairwise_map.2 h
  rw [← hkeys] at hordered
  exact List.pairwise_map.1 hordered

/-- No parent has two buckets. -/
theorem Sorted.nodup_keys {bs : Buckets} (h : Sorted bs) : (bs.map Prod.fst).Nodup := by
  refine List.pairwise_map.2 (List.Pairwise.imp ?_ h)
  intro b c hlt heq
  rw [heq] at hlt
  exact String.lt_irrefl c.1 hlt

/-- Changing a bucket keeps the order. -/
theorem Sorted.alter {bs : Buckets} (h : Sorted bs) (parent : String)
    (f : Option (List LiveAccount) → List LiveAccount) : Sorted (alter parent f bs) := by
  unfold Sorted at h ⊢
  induction bs with
  | nil => exact List.pairwise_singleton _ _
  | cons b bs ih =>
    obtain ⟨hb, hbs⟩ := List.pairwise_cons.1 h
    unfold Buckets.alter
    split
    · rename_i heq
      exact List.pairwise_cons.2 ⟨fun c hc => heq ▸ hb c hc, hbs⟩
    · split
      · rename_i hlt
        refine List.pairwise_cons.2 ⟨fun c hc => ?_, h⟩
        rcases List.mem_cons.1 hc with rfl | hc
        · exact hlt
        · exact String.lt_trans hlt (hb c hc)
      · rename_i hne hnlt
        refine List.pairwise_cons.2 ⟨fun c hc => ?_, ih hbs⟩
        have hkey : c.1 ∈ keys (Buckets.alter parent f bs) := List.mem_map_of_mem hc
        rcases mem_keys_alter.1 hkey with heq | hmem
        · rw [heq]
          exact (Std.lt_trichotomy b.1 parent).resolve_right
            fun hor => hor.elim (fun he => hne he.symm) hnlt
        · obtain ⟨d, hd, hdc⟩ := List.mem_map.1 hmem
          exact hdc ▸ hb d hd

theorem get?_cons (b : String × List LiveAccount) (bs : Buckets) (q : String) :
    get? (b :: bs) q = if b.1 = q then some b.2 else get? bs q := by
  unfold get?
  by_cases h : b.1 = q
  · simp [h]
  · simp [h]

theorem get?_eq_none {bs : Buckets} {q : String} (h : q ∉ keys bs) : get? bs q = none := by
  unfold get?
  rw [Option.map_eq_none_iff, List.find?_eq_none]
  intro b hb hq
  exact h (List.mem_map.2 ⟨b, hb, beq_iff_eq.1 hq⟩)

/-- Changing a bucket changes that bucket alone. -/
theorem Sorted.get?_alter {bs : Buckets} (h : Sorted bs) (parent : String)
    (f : Option (List LiveAccount) → List LiveAccount) (q : String) :
    get? (Buckets.alter parent f bs) q =
      if q = parent then some (f (get? bs parent)) else get? bs q := by
  induction bs with
  | nil =>
    unfold Buckets.alter
    rw [get?_cons]
    by_cases hq : parent = q
    · simp [hq, get?]
    · simp [hq, Ne.symm hq, get?]
  | cons b bs ih =>
    obtain ⟨hb, hbs⟩ := List.pairwise_cons.1 h
    unfold Buckets.alter
    split
    · rename_i heq
      simp only [get?_cons, heq, if_true]
      by_cases hq : b.1 = q
      · simp [hq]
      · simp [hq, Ne.symm hq]
    · split
      · rename_i hne hlt
        -- all later parents come after this one, so it has no bucket yet
        have hnew : get? bs parent = none := by
          refine get?_eq_none fun hmem => ?_
          obtain ⟨c, hc, hcp⟩ := List.mem_map.1 hmem
          exact String.lt_irrefl parent (String.lt_trans hlt (hcp ▸ hb c hc))
        rw [get?_cons]
        by_cases hq : parent = q
        · subst hq
          simp [get?_cons, Ne.symm hne, hnew]
        · simp [hq, Ne.symm hq]
      · rename_i hne hnlt
        rw [get?_cons, get?_cons, get?_cons, ih hbs]
        by_cases hq : b.1 = q
        · have : q ≠ parent := fun he => hne (he ▸ hq).symm
          simp [hq, this]
        · simp [hq, Ne.symm hne]

/-- Taking an account out of its bucket. -/
theorem take?_eq_some {id : String} {bs bs' : Buckets} {a : LiveAccount}
    (h : take? id bs = some (a, bs')) :
    ∃ pre parent accounts post, bs = pre ++ (parent, accounts) :: post ∧
      accounts.find? (·.id == id) = some a ∧
      bs' = pre ++ (parent, accounts.eraseP (·.id == id)) :: post := by
  induction bs generalizing bs' with
  | nil => cases h
  | cons b bs ih =>
    obtain ⟨parent, accounts⟩ := b
    unfold take? at h
    split at h
    · rename_i hfind
      cases h
      exact ⟨[], parent, accounts, bs, rfl, hfind, rfl⟩
    · obtain ⟨⟨a', rest⟩, htake, heq⟩ := Option.map_eq_some_iff.1 h
      cases heq
      obtain ⟨pre, q, as, post, hbs, hfind, hrest⟩ := ih htake
      refine ⟨(parent, accounts) :: pre, q, as, post, ?_, hfind, ?_⟩
      · rw [hbs]
        rfl
      · rw [hrest]
        rfl

/-- An account that cannot be taken out is in no bucket. -/
theorem take?_eq_none {id : String} {bs : Buckets} (h : take? id bs = none) :
    ∀ b ∈ bs, ∀ a ∈ b.2, a.id ≠ id := by
  induction bs with
  | nil => exact fun b hb => absurd hb List.not_mem_nil
  | cons b bs ih =>
    unfold take? at h
    split at h
    · cases h
    · rename_i hfind
      intro c hc a ha
      rcases List.mem_cons.1 hc with rfl | hc
      · simpa using List.find?_eq_none.1 hfind a ha
      · exact ih (Option.map_eq_none_iff.1 h) c hc a ha

theorem keys_append (pre post : Buckets) : keys (pre ++ post) = keys pre ++ keys post :=
  List.map_append

/-- Only the bucket in the middle differs. -/
theorem get?_middle {pre post : Buckets} {parent q : String} {accounts : List LiveAccount}
    (h : parent ∉ keys pre) :
    get? (pre ++ (parent, accounts) :: post) q =
      if q = parent then some accounts else (get? pre q).or (get? post q) := by
  induction pre with
  | nil =>
    rw [List.nil_append, get?_cons]
    by_cases hq : q = parent
    · simp [hq]
    · simp [hq, Ne.symm hq, get?]
  | cons b pre ih =>
    have hb : b.1 ≠ parent := fun he => h (he ▸ List.mem_cons_self)
    rw [List.cons_append, get?_cons, ih fun hm => h (List.mem_cons_of_mem _ hm), get?_cons]
    by_cases hq : b.1 = q
    · simp [hq, hq ▸ hb]
    · simp [hq]

end Buckets

/-! ### Moved accounts -/

namespace Snapshot

/-- The snapshot with one account under another parent. -/
def rehouse (s : Snapshot) (account target : String) : Snapshot :=
  { s with
    accounts := s.accounts.map fun a => if a.id = account then { a with parent := target } else a }

variable {s : Snapshot} {account target : String}

/-- Moving an account takes it from the parent it is under to one that is there. -/
theorem moved_eq_ok (hs : s.Housed) {source : String} {s' : Snapshot}
    (h : Organization.moved s account source target = .ok s') :
    s' = s.rehouse account target ∧ s.isParent target = true ∧ source ≠ target ∧
      ∃ a ∈ s.accounts, a.id = account ∧ a.parent = source := by
  unfold Organization.moved at h
  split at h
  · cases h
  rename_i htarget
  split at h
  · cases h
  rename_i a ha
  split at h
  · cases h
  rename_i hnew
  split at h
  · cases h
  rename_i hsource
  cases h
  have hsource' : a.parent = source := not_not.1 hsource
  refine ⟨?_, by simpa using htarget, fun he => hnew (hsource'.trans he), a,
    List.mem_of_find?_eq_some ha, by simpa using List.find?_some ha, hsource'⟩
  unfold rehouse
  rw [Organization.updateFirst_eq_map hs.accountIds]

/-- An account that is under a parent can be moved to another one that is there. -/
theorem moved_of_mem (hs : s.Housed) {a : LiveAccount} (ha : a ∈ s.accounts)
    (htarget : s.isParent target = true) (hne : a.parent ≠ target) :
    Organization.moved s a.id a.parent target = .ok (s.rehouse a.id target) := by
  have hfind : s.accounts.find? (·.id == a.id) = some a := find?_of_nodup hs.accountIds ha
  unfold Organization.moved rehouse
  rw [htarget, hfind, Organization.updateFirst_eq_map hs.accountIds]
  simp [hne]

theorem map_id_rehouse :
    (s.rehouse account target).accounts.map LiveAccount.id = s.accounts.map LiveAccount.id := by
  unfold rehouse
  rw [List.map_map]
  refine List.map_congr_left fun a _ => ?_
  simp only [Function.comp_apply]
  split <;> rfl

/-- An account is there after the move iff it is the moved one under its new parent, or another one
as it was. -/
theorem mem_rehouse {b : LiveAccount} : b ∈ (s.rehouse account target).accounts ↔
    (b ∈ s.accounts ∧ b.id ≠ account) ∨
      ∃ a ∈ s.accounts, a.id = account ∧ b = { a with parent := target } := by
  unfold rehouse
  rw [List.mem_map]
  constructor
  · rintro ⟨a, ha, rfl⟩
    by_cases hid : a.id = account
    · exact .inr ⟨a, ha, hid, if_pos hid⟩
    · rw [if_neg hid]
      exact .inl ⟨ha, hid⟩
  · rintro (⟨hb, hid⟩ | ⟨a, ha, hid, rfl⟩)
    · exact ⟨b, hb, if_neg hid⟩
    · exact ⟨a, ha, if_pos hid⟩

/-- Moving an account to a parent that is there leaves every account housed. -/
theorem Housed.rehouse (hs : s.Housed) (htarget : s.isParent target = true) :
    (s.rehouse account target).Housed := by
  constructor
  · rw [map_id_rehouse]
    exact hs.accountIds
  · intro b hb
    rcases mem_rehouse.1 hb with ⟨hb, -⟩ | ⟨a, -, -, rfl⟩
    · exact hs.accountParents b hb
    · exact htarget

/-- One more unit leaves every account housed. -/
theorem Housed.addOu (hs : s.Housed) (node : OuNode) : (s.addOu node).Housed :=
  ⟨hs.accountIds, fun a ha => isParent_addOu.2 (.inl (hs.accountParents a ha))⟩

end Snapshot

/-! ### Look-ups -/

namespace OrgTree

variable {t : OrgTree} {path : String}

/-- A unit found at a path is at that path. -/
theorem ouByPath?_eq_some {ou : LiveOu} (h : t.ouByPath? path = some ou) :
    ou ∈ t.ous ∧ ou.path = path := by
  unfold ouByPath? at h
  exact ⟨List.mem_of_find?_eq_some h, by simpa using List.find?_some h⟩

/-- None is found iff none is there. -/
theorem ouByPath?_eq_none : t.ouByPath? path = none ↔ ∀ ou ∈ t.ous, ou.path ≠ path := by
  unfold ouByPath?
  simp only [List.find?_eq_none, beq_iff_eq, ne_eq]

/-- An account under a parent is in the bucket of that parent. -/
theorem exists_bucket_of_mem_accountsIn {p : String} {a : LiveAccount} (h : a ∈ t.accountsIn p) :
    ∃ b ∈ t.buckets, b.1 = p ∧ a ∈ b.2 := by
  unfold accountsIn Buckets.get? at h
  cases hfind : t.buckets.find? (·.1 == p) with
  | none =>
    rw [hfind] at h
    exact absurd h List.not_mem_nil
  | some b =>
    rw [hfind] at h
    exact ⟨b, List.mem_of_find?_eq_some hfind, by simpa using List.find?_some hfind, h⟩

end OrgTree

/-! ### Charts -/

/-- A tree has the root of a snapshot, and its units with their paths. -/
structure Charts (s : Snapshot) (t : OrgTree) : Prop where
  /-- The root. -/
  root : s.root.map Root.id = some t.rootId
  /-- The units in order, with their paths. -/
  ous : t.ous = s.ous.map s.located

namespace Charts

variable {s : Snapshot} {t : OrgTree}

/-- The root of the snapshot is the root of the tree. -/
theorem root_eq (h : Charts s t) : ∃ r, s.root = some r ∧ r.id = t.rootId :=
  Option.map_eq_some_iff.1 h.root

/-- Looking a unit up by its identifier. -/
theorem ouById? (h : Charts s t) (id : String) : t.ouById? id = (s.ou? id).map s.located := by
  unfold OrgTree.ouById? Snapshot.ou?
  rw [h.ous, List.find?_map]
  rfl

/-- The units of the tree have identifiers of their own. -/
theorem map_id_ous (h : Charts s t) (hids : (s.ous.map OuNode.id).Nodup) :
    (t.ous.map LiveOu.id).Nodup := by
  rw [h.ous, List.map_map]
  exact hids

/-- Looking a unit up by its identifier gives the one that has it. -/
theorem ouById?_eq_some (h : Charts s t) (hs : s.Linked) {id : String} {ou : LiveOu} :
    t.ouById? id = some ou ↔ ou ∈ t.ous ∧ ou.id = id := by
  constructor
  · intro hfind
    unfold OrgTree.ouById? at hfind
    exact ⟨List.mem_of_find?_eq_some hfind, by simpa using List.find?_some hfind⟩
  · rintro ⟨hou, rfl⟩
    exact find?_of_nodup (h.map_id_ous hs.ids) hou

/-- No unit of the tree is the root. -/
theorem ne_rootId (h : Charts s t) (hs : s.Linked) {ou : LiveOu} (hou : ou ∈ t.ous) :
    ou.id ≠ t.rootId := by
  obtain ⟨r, hr, hid⟩ := h.root_eq
  rw [h.ous] at hou
  obtain ⟨node, hnode, rfl⟩ := List.mem_map.1 hou
  intro heq
  have hroot := hs.rootApart r hr
  rw [Snapshot.isOu_iff.2 ⟨node, hnode, heq.trans hid.symm⟩] at hroot
  cases hroot

/-- A parent is the root or one of the units of the tree. -/
theorem parent_cases (h : Charts s t) {id : String} (hid : s.isParent id = true) :
    id = t.rootId ∨ ∃ ou ∈ t.ous, ou.id = id := by
  rcases Snapshot.isParent_iff.1 hid with ⟨r, hr, rfl⟩ | ⟨node, hnode, rfl⟩
  · obtain ⟨r', hr', hid'⟩ := h.root_eq
    rw [hr] at hr'
    cases hr'
    exact .inl hid'
  · exact .inr ⟨s.located node, h.ous ▸ List.mem_map_of_mem hnode, rfl⟩

/-- The path of a parent. -/
theorem pathAt (h : Charts s t) (id : String) :
    ((t.ouById? id).map LiveOu.path).getD "" = s.pathAt id := by
  unfold Snapshot.pathAt
  rw [h.ouById?, Option.map_map]
  rfl

/-- A unit of the tree holds units and accounts. -/
theorem isParent_of_mem (h : Charts s t) {ou : LiveOu} (hou : ou ∈ t.ous) :
    s.isParent ou.id = true := by
  rw [h.ous] at hou
  obtain ⟨node, hnode, rfl⟩ := List.mem_map.1 hou
  exact Snapshot.isParent_iff.2 (.inr ⟨node, hnode, rfl⟩)

/-- The path of a unit of the tree. -/
theorem pathAt_of_mem (h : Charts s t) (hs : s.Linked) {ou : LiveOu} (hou : ou ∈ t.ous) :
    s.isParent ou.id = true ∧ s.pathAt ou.id = ou.path := by
  refine ⟨h.isParent_of_mem hou, ?_⟩
  rw [h.ous] at hou
  obtain ⟨node, hnode, rfl⟩ := List.mem_map.1 hou
  unfold Snapshot.pathAt
  change ((s.ou? node.id).map s.pathOf).getD "" = s.pathOf node
  rw [hs.ou?_id hnode]
  rfl

/-- The root has no path. -/
theorem pathAt_root (h : Charts s t) (hs : s.Linked) :
    s.isParent t.rootId = true ∧ s.pathAt t.rootId = "" := by
  obtain ⟨r, hr, hid⟩ := h.root_eq
  refine ⟨Snapshot.isParent_iff.2 (.inl ⟨r, hr, hid⟩), ?_⟩
  unfold Snapshot.pathAt
  rw [← hid, hs.ou?_root hr]
  rfl

/-- A tree that takes a new unit in shows it as the organization has it. -/
theorem insertOu (h : Charts s t) (hs : s.Rooted) {node : OuNode} (hfits : s.Fits node) :
    Charts (s.addOu node) (t.insertOu node).2 ∧
      (t.insertOu node).1 = (s.addOu node).located node ∧
      (t.insertOu node).2.ous = t.ous ++ [(s.addOu node).located node] := by
  have hlocated : (t.insertOu node).1 = (s.addOu node).located node := by
    unfold OrgTree.insertOu Snapshot.located
    rw [hs.pathUnder_addOu hfits hfits.parent, h.pathAt]
  have hous : (t.insertOu node).2.ous = t.ous ++ [(s.addOu node).located node] := by
    rw [← hlocated]
    rfl
  refine ⟨⟨h.root, ?_⟩, hlocated, hous⟩
  rw [hous, hs.located_addOu hfits, h.ous]
  unfold Snapshot.located
  rw [hs.pathUnder_addOu hfits hfits.parent]

end Charts

/-! ### Trees in step -/

/-- A tree shows what a snapshot holds. -/
structure InStep (s : Snapshot) (t : OrgTree) : Prop where
  /-- The root. -/
  root : s.root.map Root.id = some t.rootId
  /-- The units in order, with their paths. -/
  ous : t.ous = s.ous.map s.located
  /-- The buckets are in order. -/
  sorted : t.buckets.Sorted
  /-- There is a bucket for every parent. -/
  keys : ∀ p, p ∈ t.buckets.keys ↔ s.isParent p = true
  /-- Under each parent, the accounts whose parent it is. -/
  accounts : ∀ p a, a ∈ t.accountsIn p ↔ a ∈ s.accounts ∧ a.parent = p
  /-- No account twice. -/
  once : ∀ p, ((t.accountsIn p).map LiveAccount.id).Nodup

namespace InStep

variable {s : Snapshot} {t : OrgTree}

/-- A tree in step has the root and the units. -/
theorem charts (h : InStep s t) : Charts s t := ⟨h.root, h.ous⟩

/-- The accounts in a bucket are those under its parent. -/
theorem mem_of_bucket (h : InStep s t) {b : String × List LiveAccount} (hb : b ∈ t.buckets) :
    b.2 = t.accountsIn b.1 := by
  have hfind : t.buckets.find? (·.1 == b.1) = some b := find?_of_nodup h.sorted.nodup_keys hb
  unfold OrgTree.accountsIn Buckets.get?
  rw [hfind]
  rfl

/-- An account is in the bucket of its parent. -/
theorem exists_bucket (h : InStep s t) {a : LiveAccount} (ha : a ∈ s.accounts) :
    ∃ b ∈ t.buckets, b.1 = a.parent ∧ a ∈ b.2 :=
  OrgTree.exists_bucket_of_mem_accountsIn ((h.accounts _ a).2 ⟨ha, rfl⟩)

/-- The accounts of the tree are those of the snapshot. -/
theorem mem_accounts (h : InStep s t) {a : LiveAccount} : a ∈ t.accounts ↔ a ∈ s.accounts := by
  unfold OrgTree.accounts OrgTree.rootAccounts
  simp only [List.mem_append, List.mem_flatMap, List.mem_filter, decide_eq_true_eq]
  constructor
  · rintro (ha | ⟨b, ⟨hb, -⟩, ha⟩)
    · exact ((h.accounts _ a).1 ha).1
    · rw [h.mem_of_bucket hb] at ha
      exact ((h.accounts _ a).1 ha).1
  · intro ha
    by_cases hroot : a.parent = t.rootId
    · exact .inl ((h.accounts _ a).2 ⟨ha, hroot⟩)
    · obtain ⟨b, hb, hkey, hin⟩ := h.exists_bucket ha
      exact .inr ⟨b, ⟨hb, hkey ▸ hroot⟩, hin⟩

/-- No account comes twice. -/
theorem nodup_accounts (h : InStep s t) (hs : s.Housed) :
    (t.accounts.map LiveAccount.id).Nodup := by
  have hbucket : ∀ b ∈ t.buckets, ∀ a ∈ b.2, a.parent = b.1 := by
    intro b hb a ha
    rw [h.mem_of_bucket hb] at ha
    exact ((h.accounts b.1 a).1 ha).2
  have hnodup : t.accounts.Nodup := by
    unfold OrgTree.accounts
    refine List.nodup_append'.2 ⟨(h.once t.rootId).of_map, ?_, ?_⟩
    · refine List.nodup_flatMap.2 ⟨fun b hb => ?_, ?_⟩
      · rw [h.mem_of_bucket (List.mem_of_mem_filter hb)]
        exact (h.once b.1).of_map
      · -- accounts of different buckets have different parents
        have hkeys : (t.buckets.filter (·.1 ≠ t.rootId)).Pairwise fun b c => b.1 ≠ c.1 :=
          List.pairwise_map.1 (h.sorted.nodup_keys.sublist (List.filter_sublist.map _))
        refine hkeys.imp_of_mem fun hb hc hne a hab hac => hne ?_
        exact (hbucket _ (List.mem_of_mem_filter hb) a hab).symm.trans
          (hbucket _ (List.mem_of_mem_filter hc) a hac)
    · intro a hroot hrest
      obtain ⟨b, hb, hab⟩ := List.mem_flatMap.1 hrest
      obtain ⟨hin, hne⟩ := List.mem_filter.1 hb
      exact of_decide_eq_true hne
        ((hbucket b hin a hab).symm.trans ((h.accounts t.rootId a).1 hroot).2)
  refine (List.nodup_map_iff_inj_on hnodup).2 fun a ha b hb hid => ?_
  exact List.inj_on_of_nodup_map hs.accountIds (h.mem_accounts.1 ha) (h.mem_accounts.1 hb) hid

/-- The accounts right under the root. -/
theorem mem_rootAccounts (h : InStep s t) {a : LiveAccount} :
    a ∈ t.rootAccounts ↔ a ∈ s.accounts ∧ a.parent = t.rootId := h.accounts t.rootId a

/-! ### Staying in step -/

/-- A tree that takes a new unit in stays in step. -/
theorem insertOu (h : InStep s t) (hs : s.Rooted) {node : OuNode} (hfits : s.Fits node) :
    InStep (s.addOu node) (t.insertOu node).2 := by
  obtain ⟨hcharts, -, -⟩ := h.charts.insertOu hs hfits
  -- the new bucket is empty, the others stay
  have haccounts : ∀ p, (t.insertOu node).2.accountsIn p = t.accountsIn p := by
    intro p
    have hget := h.sorted.get?_alter node.id (·.getD []) p
    change ((t.buckets.touch node.id).get? p).getD [] = (t.buckets.get? p).getD []
    unfold Buckets.touch
    rw [hget]
    split
    · rename_i hp
      rw [hp]
      rfl
    · rfl
  refine ⟨hcharts.root, hcharts.ous, h.sorted.alter _ _, ?_, ?_, ?_⟩
  · intro p
    change p ∈ Buckets.keys (Buckets.alter node.id _ t.buckets) ↔ _
    rw [Buckets.mem_keys_alter, h.keys, Snapshot.isParent_addOu]
    tauto
  · intro p a
    rw [haccounts]
    exact h.accounts p a
  · intro p
    rw [haccounts]
    exact h.once p

/-- Of accounts with identifiers of their own, the others stay when one is taken out. -/
theorem mem_eraseP {as : List LiveAccount} (h : (as.map LiveAccount.id).Nodup) {id : String}
    {b : LiveAccount} : b ∈ as.eraseP (·.id == id) ↔ b ∈ as ∧ b.id ≠ id := by
  induction as with
  | nil => simp
  | cons a as ih =>
    obtain ⟨ha, has⟩ := List.nodup_cons.1 h
    by_cases hid : a.id = id
    · rw [List.eraseP_cons_of_pos (by simpa using hid), List.mem_cons]
      constructor
      · intro hb
        exact ⟨.inr hb, fun hb' => ha (List.mem_map.2 ⟨b, hb, hb'.trans hid.symm⟩)⟩
      · rintro ⟨rfl | hb, hne⟩
        · exact absurd hid hne
        · exact hb
    · rw [List.eraseP_cons_of_neg (by simpa using hid), List.mem_cons, List.mem_cons, ih has]
      constructor
      · rintro (rfl | ⟨hb, hne⟩)
        · exact ⟨.inl rfl, hid⟩
        · exact ⟨.inr hb, hne⟩
      · rintro ⟨rfl | hb, hne⟩
        · exact .inl rfl
        · exact .inr ⟨hb, hne⟩

/-- An account is found in the bucket of its parent and taken out of it. -/
theorem exists_take? (h : InStep s t) (hs : s.Housed) {a : LiveAccount} (ha : a ∈ s.accounts) :
    ∃ pre post, t.buckets = pre ++ (a.parent, t.accountsIn a.parent) :: post ∧
      t.buckets.take? a.id =
        some (a, pre ++ (a.parent, (t.accountsIn a.parent).eraseP (·.id == a.id)) :: post) := by
  cases htake : t.buckets.take? a.id with
  | none =>
    obtain ⟨b, hb, -, hin⟩ := h.exists_bucket ha
    exact absurd rfl (Buckets.take?_eq_none htake b hb a hin)
  | some taken =>
    obtain ⟨a', bs⟩ := taken
    obtain ⟨pre, parent, accounts, post, hbuckets, hfind, rfl⟩ := Buckets.take?_eq_some htake
    obtain rfl : accounts = t.accountsIn parent :=
      h.mem_of_bucket (b := (parent, accounts)) (by rw [hbuckets]; simp)
    -- the account found is the one looked for, since no other has its identifier
    obtain ⟨hin, rfl⟩ := (h.accounts parent a').1 (List.mem_of_find?_eq_some hfind)
    obtain rfl : a' = a := List.inj_on_of_nodup_map hs.accountIds hin ha
      (by simpa using List.find?_some hfind)
    exact ⟨pre, post, hbuckets, rfl⟩

/-- An account can be taken out of the bucket of its parent, and no other bucket changes. -/
theorem take?_of_mem (h : InStep s t) (hs : s.Housed) {a : LiveAccount} (ha : a ∈ s.accounts) :
    ∃ bs, t.buckets.take? a.id = some (a, bs) ∧ bs.Sorted ∧ bs.keys = t.buckets.keys ∧
      ∀ p, (bs.get? p).getD [] =
        if p = a.parent then (t.accountsIn a.parent).eraseP (·.id == a.id) else t.accountsIn p := by
  obtain ⟨pre, post, hbuckets, htake⟩ := h.exists_take? hs ha
  have hpre : a.parent ∉ Buckets.keys pre := by
    have hnodup := h.sorted.nodup_keys
    rw [hbuckets, List.map_append] at hnodup
    intro hmem
    exact (List.nodup_append.1 hnodup).2.2 _ hmem _ List.mem_cons_self rfl
  have hkeys : ∀ as as' : List LiveAccount, Buckets.keys (pre ++ (a.parent, as) :: post) =
      Buckets.keys (pre ++ (a.parent, as') :: post) := by
    intro as as'
    rw [Buckets.keys_append, Buckets.keys_append]
    rfl
  have hget : ∀ (as : List LiveAccount) (p : String),
      Buckets.get? (pre ++ (a.parent, as) :: post) p = _ := fun as p => Buckets.get?_middle hpre
  refine ⟨_, htake, h.sorted.congr ?_, ?_, fun p => ?_⟩
  · rw [hbuckets]
    exact hkeys _ _
  · rw [hbuckets]
    exact hkeys _ _
  · rw [hget]
    by_cases hp : p = a.parent
    · simp [hp]
    · have hother : t.accountsIn p = ((pre.get? p).or (Buckets.get? post p)).getD [] := by
        unfold OrgTree.accountsIn
        rw [hbuckets, hget, if_neg hp]
      rw [if_neg hp, if_neg hp, hother]

/-- The accounts under each parent once one of them has moved. -/
def accountsMoved (t : OrgTree) (a : LiveAccount) (target p : String) : List LiveAccount :=
  if p = target then t.accountsIn target ++ [{ a with parent := target }]
  else if p = a.parent then (t.accountsIn a.parent).eraseP (·.id == a.id)
  else t.accountsIn p

/-- A moved account is taken from one bucket and added to another one. -/
theorem relocate_eq (h : InStep s t) (hs : s.Housed) {a : LiveAccount} (ha : a ∈ s.accounts)
    {target : String} (hne : a.parent ≠ target) :
    ∃ bs, t.relocate a.id target = { t with buckets := bs } ∧ bs.Sorted ∧
      (∀ p, p ∈ bs.keys ↔ p = target ∨ p ∈ t.buckets.keys) ∧
      ∀ p, (bs.get? p).getD [] = accountsMoved t a target p := by
  obtain ⟨bs, htake, hsorted, hkeys, hbs⟩ := h.take?_of_mem hs ha
  refine ⟨Buckets.add bs { a with parent := target }, ?_, hsorted.alter _ _, fun p => ?_,
    fun p => ?_⟩
  · unfold OrgTree.relocate
    rw [htake]
  · change p ∈ Buckets.keys (Buckets.alter target _ bs) ↔ _
    rw [Buckets.mem_keys_alter, hkeys]
  · unfold Buckets.add accountsMoved
    rw [hsorted.get?_alter]
    by_cases hp : p = target
    · simp only [hp, if_true, Option.getD_some]
      rw [hbs, if_neg hne.symm]
    · simp only [hp, if_false]
      exact hbs p

/-- These are the accounts that the organization has under each parent. -/
theorem mem_accountsMoved (h : InStep s t) (hs : s.Housed) {a : LiveAccount} (ha : a ∈ s.accounts)
    {target : String} (hne : a.parent ≠ target) {p : String} {b : LiveAccount} :
    b ∈ accountsMoved t a target p ↔ b ∈ (s.rehouse a.id target).accounts ∧ b.parent = p := by
  -- nobody else has the identifier of the account
  have honly : ∀ b ∈ s.accounts, b.id = a.id → b = a :=
    fun b hb hid => List.inj_on_of_nodup_map hs.accountIds hb ha hid
  unfold accountsMoved
  rw [Snapshot.mem_rehouse]
  by_cases hp : p = target
  · subst hp
    simp only [if_true, List.mem_append, List.mem_singleton, h.accounts]
    constructor
    · rintro (⟨hb, hpar⟩ | rfl)
      · exact ⟨.inl ⟨hb, fun hid => hne (honly b hb hid ▸ hpar)⟩, hpar⟩
      · exact ⟨.inr ⟨a, ha, rfl, rfl⟩, rfl⟩
    · rintro ⟨⟨hb, -⟩ | ⟨c, hc, hid, rfl⟩, hpar⟩
      · exact .inl ⟨hb, hpar⟩
      · rw [honly c hc hid]
        exact .inr rfl
  · have hother : (b ∈ s.accounts ∧ b.id ≠ a.id ∨
        ∃ c ∈ s.accounts, c.id = a.id ∧ b = { c with parent := target }) ∧ b.parent = p ↔
        (b ∈ s.accounts ∧ b.id ≠ a.id) ∧ b.parent = p := by
      constructor
      · rintro ⟨hb | ⟨c, -, -, rfl⟩, hpar⟩
        · exact ⟨hb, hpar⟩
        · exact absurd hpar.symm hp
      · rintro ⟨hb, hpar⟩
        exact ⟨.inl hb, hpar⟩
    rw [if_neg hp, hother]
    by_cases hpar : p = a.parent
    · rw [if_pos hpar, mem_eraseP (h.once _), h.accounts, hpar]
      tauto
    · rw [if_neg hpar, h.accounts]
      constructor
      · rintro ⟨hb, hbp⟩
        exact ⟨⟨hb, fun hid => hpar (hbp.symm.trans (congrArg _ (honly b hb hid)))⟩, hbp⟩
      · rintro ⟨⟨hb, -⟩, hbp⟩
        exact ⟨hb, hbp⟩

/-- No account is under a parent twice. -/
theorem nodup_accountsMoved (h : InStep s t) (hs : s.Housed) {a : LiveAccount}
    (ha : a ∈ s.accounts) {target : String} (hne : a.parent ≠ target) (p : String) :
    ((accountsMoved t a target p).map LiveAccount.id).Nodup := by
  unfold accountsMoved
  by_cases hp : p = target
  · rw [if_pos hp, List.map_append, List.map_singleton]
    refine List.nodup_append.2 ⟨h.once target, List.nodup_singleton _, ?_⟩
    intro id hid id' hid' heq
    obtain ⟨b, hb, rfl⟩ := List.mem_map.1 hid
    obtain ⟨hb, hpar⟩ := (h.accounts _ b).1 hb
    obtain rfl : b = a :=
      List.inj_on_of_nodup_map hs.accountIds hb ha (heq.trans (List.mem_singleton.1 hid'))
    exact hne hpar
  · rw [if_neg hp]
    split
    · exact (h.once _).sublist (List.eraseP_sublist.map _)
    · exact h.once p

/-- A tree that takes a moved account in stays in step. -/
theorem relocate (h : InStep s t) (hs : s.Housed) {a : LiveAccount} (ha : a ∈ s.accounts)
    {target : String} (htarget : s.isParent target = true) (hne : a.parent ≠ target) :
    InStep (s.rehouse a.id target) (t.relocate a.id target) ∧
      (t.relocate a.id target).ous = t.ous ∧ (t.relocate a.id target).rootId = t.rootId := by
  obtain ⟨bs, hrelocate, hsorted, hkeys, haccounts⟩ := h.relocate_eq hs ha hne
  rw [hrelocate]
  refine ⟨⟨h.root, ?_, hsorted, fun p => ?_, fun p b => ?_, fun p => ?_⟩, rfl, rfl⟩
  · have hlocated : (s.rehouse a.id target).located = s.located := Snapshot.located_congr rfl
    rw [hlocated]
    exact h.ous
  · change p ∈ bs.keys ↔ s.isParent p = true
    rw [hkeys, h.keys]
    constructor
    · rintro (rfl | hp)
      · exact htarget
      · exact hp
    · exact .inr
  · change b ∈ (bs.get? p).getD [] ↔ _
    rw [haccounts]
    exact h.mem_accountsMoved hs ha hne
  · change (((bs.get? p).getD []).map LiveAccount.id).Nodup
    rw [haccounts]
    exact h.nodup_accountsMoved hs ha hne p

end InStep

/-! ### Reading -/

section

variable {o : Organization}

/-- Reading the accounts of parents that are there fills their buckets. -/
theorem readBuckets_eq_ok {parents : List String}
    (h : ∀ p ∈ parents, o.snapshot.isParent p = true) {bs : Buckets} (hbs : bs.Sorted) :
    ∃ bs', OrgTree.readBuckets o parents bs = .ok bs' ∧ bs'.Sorted ∧
      (∀ p, p ∈ bs'.keys ↔ p ∈ parents ∨ p ∈ bs.keys) ∧
      ∀ p, bs'.get? p = if p ∈ parents then some (o.snapshot.accounts.filter (·.parent == p))
        else bs.get? p := by
  induction parents generalizing bs with
  | nil => exact ⟨bs, rfl, hbs, by simp, by simp⟩
  | cons q parents ih =>
    have hq : o.accountsUnder q = .ok (o.snapshot.accounts.filter (·.parent == q)) :=
      if_pos (h q List.mem_cons_self)
    obtain ⟨bs', hread, hsorted, hkeys, hget⟩ := ih
      (fun p hp => h p (List.mem_cons_of_mem _ hp))
      (hbs.alter q fun _ => o.snapshot.accounts.filter (·.parent == q))
    refine ⟨bs', ?_, hsorted, fun p => ?_, fun p => ?_⟩
    · unfold OrgTree.readBuckets
      rw [hq]
      exact hread
    · rw [hkeys, Buckets.mem_keys_alter, List.mem_cons]
      tauto
    · rw [hget, hbs.get?_alter]
      by_cases hp : p ∈ parents
      · simp [hp]
      · by_cases hpq : p = q
        · simp [hpq]
        · simp [hp, hpq]

/-- An organization with a root whose units have identifiers of their own can be read, and what is
read has its root, its units, and a bucket with its accounts for each parent. -/
theorem exists_read_of_ids (hroot : o.snapshot.root.isSome = true)
    (hids : (o.snapshot.ous.map OuNode.id).Nodup) :
    ∃ r bs, o.snapshot.root = some r ∧
      OrgTree.read o = .ok ⟨r.id, o.snapshot.ous.map o.snapshot.located, bs⟩ ∧ bs.Sorted ∧
      (∀ p, p ∈ bs.keys ↔ o.snapshot.isParent p = true) ∧
      ∀ p, (bs.get? p).getD [] = if o.snapshot.isParent p = true then
        o.snapshot.accounts.filter (·.parent == p) else [] := by
  obtain ⟨r, hr⟩ := Option.isSome_iff_exists.1 hroot
  have hroots : o.roots = [r] := by
    unfold Organization.roots
    rw [hr]
    rfl
  have hou : ∀ node ∈ o.snapshot.ous,
      o.ouWithPath node.id = .ok (o.snapshot.located node) := by
    intro node hnode
    have hfind : o.snapshot.ou? node.id = some node := find?_of_nodup hids hnode
    unfold Organization.ouWithPath
    rw [hfind]
  have hparents : ∀ p, p ∈ r.id :: (o.snapshot.ous.map o.snapshot.located).map LiveOu.id ↔
      o.snapshot.isParent p = true := by
    intro p
    rw [Snapshot.isParent_iff, List.map_map, List.mem_cons, List.mem_map, hr]
    simp only [Option.some.injEq, exists_eq_left', eq_comm]
    rfl
  obtain ⟨bs, hread, hsorted, hkeys, hget⟩ :=
    readBuckets_eq_ok (fun p hp => (hparents p).1 hp) (List.Pairwise.nil : Buckets.Sorted [])
  refine ⟨r, bs, hr, ?_, hsorted, fun p => ?_, fun p => ?_⟩
  · unfold OrgTree.read
    rw [hroots]
    simp only [bind, Except.bind, pure, Except.pure]
    rw [mapM_eq_ok.2 (List.forall₂_map_right_iff.2 (List.forall₂_same.2 fun node hnode => by
      rw [hou node hnode]))]
    simp only [hread]
  · rw [hkeys, hparents]
    simp [Buckets.keys]
  · rw [hget]
    by_cases hp : o.snapshot.isParent p = true
    · rw [if_pos ((hparents p).2 hp), if_pos hp]
      rfl
    · rw [if_neg fun hmem => hp ((hparents p).1 hmem), if_neg hp]
      rfl

/-- **A tree read from an organization shows what the organization holds.** For that its units need
not even form a hierarchy, as long as they have identifiers of their own. -/
theorem inStep_read_of_ids (hroot : o.snapshot.root.isSome = true)
    (hids : (o.snapshot.ous.map OuNode.id).Nodup) (hhoused : o.snapshot.Housed) :
    ∃ t, OrgTree.read o = .ok t ∧ InStep o.snapshot t := by
  obtain ⟨r, bs, hr, hread, hsorted, hkeys, haccounts⟩ := exists_read_of_ids hroot hids
  refine ⟨_, hread, ⟨congrArg _ hr, rfl, hsorted, hkeys, fun p a => ?_, fun p => ?_⟩⟩
  · change a ∈ (bs.get? p).getD [] ↔ _
    rw [haccounts]
    split
    · simp
    · rename_i hp
      refine ⟨fun h => absurd h List.not_mem_nil, ?_⟩
      rintro ⟨ha, rfl⟩
      exact absurd (hhoused.accountParents a ha) hp
  · change (((bs.get? p).getD []).map LiveAccount.id).Nodup
    rw [haccounts]
    split
    · exact hhoused.accountIds.sublist (List.filter_sublist.map _)
    · exact List.nodup_nil

/-- So does one read from a well-formed organization. -/
theorem inStep_read (hs : o.snapshot.Rooted) (hhoused : o.snapshot.Housed) :
    ∃ t, OrgTree.read o = .ok t ∧ InStep o.snapshot t :=
  inStep_read_of_ids hs.root hs.ids hhoused

end
end OrgAlign.Org
