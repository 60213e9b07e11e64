import OrgAlign.Proofs.Config.RenamedKeys

/-!
# Renaming a unit twice

Renaming a unit is noticed when a key or an account is caught by it. Main statements:

* `Workspace.Clear`: a renaming has nothing to catch;
* `Workspace.renameOu_eq_self`, `Workspace.renameOu_of_unchanged`: a renaming is noticed unless
  there is nothing for it to catch, and then it leaves everything as it is;
* `Workspace.layers_renameOu`: what renaming a unit makes of each entry of an account in each file;
* `Workspace.entriesAt_renameOu`: what it makes of them if the unit goes to a place apart from where
  it was;
* `Workspace.Rid`, `Workspace.rid_renameOu`: nothing is left at or below the old place, and nothing
  comes to where nothing was.
-/

namespace OrgAlign.Config

/-! ### Accounts -/

/-- Two paths of which neither is at or below the other. -/
def Apart (p q : String) : Prop := ¬ Path.Under p q ∧ ¬ Path.Under q p

instance (p q : String) : Decidable (Apart p q) := inferInstanceAs (Decidable (_ ∧ _))

/-- What is at or below the one is not at or below the other. -/
theorem Apart.not_under {p q path : String} (h : Apart p q) (hpath : Path.Under path p) :
    ¬ Path.Under path q :=
  fun hq => (hpath.comparable hq).elim h.1 h.2

namespace Workspace

variable {old new : String}

/-- An account elsewhere is not pointed to another place. -/
theorem repoint_of_not_under {a : AccountEntry} (h : ¬ Path.Under a.path old) :
    repoint old new a = a := by
  unfold repoint
  rw [Path.rebase_eq_none_iff.2 h]

/-- An account at or below a unit that goes to a proper path ends at or below a path only if that
path is at, above or below the new one. -/
theorem not_under_repoint (hproper : Path.Proper new) {a : AccountEntry}
    (h : Path.Under a.path old) {top : String} (hapart : Apart new top) :
    ¬ Path.Under (repoint old new a).path top := by
  obtain ⟨path, hpath, hunder⟩ := Path.exists_rebase h new
  have hnew : ¬ Path.Under path top := hapart.not_under hunder
  unfold repoint
  rw [hpath]
  cases hou : a.ouPath with
  | some full =>
    simpa [AccountPatch.apply, AccountEntry.path, hou] using hnew
  | none =>
    -- without a full path the account only says the first segment, which the new place shares
    have hfirst : Path.topLevel path = Path.topLevel new := hproper.topLevel_of_under hunder
    obtain ⟨hname, htop⟩ := hproper.under_topLevel
    have hnew : ¬ Path.Under (Path.topLevel path) top := by
      rw [hfirst]
      intro hbelow
      exact hapart.1 (hname.eq_of_under hbelow ▸ htop)
    simpa [AccountPatch.apply, AccountEntry.path, hou] using hnew

/-- An account that was pointed to a place apart from the old one is not pointed on. -/
theorem repoint_repoint (hproper : Path.Proper new) (hapart : Apart new old) (a : AccountEntry) :
    repoint old new (repoint old new a) = repoint old new a := by
  by_cases h : Path.Under a.path old
  · exact repoint_of_not_under (not_under_repoint hproper h hapart)
  · rw [repoint_of_not_under h, repoint_of_not_under h]

/-! ### Nothing to catch -/

variable {w : Workspace} {s : AccountSection}

/-- A renaming has nothing to catch: no key is at or below the unit, and no account would be pointed
to another place. -/
structure Clear (w : Workspace) (old new : String) : Prop where
  /-- No key of a unit. -/
  keys : ∀ k ∈ w.ous.keys, ¬ Path.Under k old
  /-- No account. -/
  entries : ∀ s key, ∀ a ∈ w.entriesAt s key, repoint old new a = a

/-- A walk that points the accounts of a section to their new paths is not noticed iff there is
nothing to point elsewhere, and then nothing changes. -/
theorem foldl_repoint_unchanged {keys : List String} {changed : Bool}
    (h : (keys.foldl (fun (w, changed) key =>
      let (w, here) := w.editAccount s key (repoint old new)
      (w, changed || here)) (w, changed)).2 = false) :
    changed = false ∧ ∀ key ∈ keys, ∀ a ∈ w.entriesAt s key, repoint old new a = a := by
  induction keys generalizing w changed with
  | nil => exact ⟨h, fun key hkey => absurd hkey List.not_mem_nil⟩
  | cons key keys ih =>
    rw [List.foldl_cons] at h
    obtain ⟨hsofar, hrest⟩ := ih h
    obtain ⟨hbefore, hhere⟩ := Bool.or_eq_false_iff.1 hsofar
    have hsame := editAccount_of_unchanged hhere
    have hkept : (w.editAccount s key (repoint old new)).1 = w :=
      congrArg Prod.fst (editAccount_eq_self hsame)
    refine ⟨hbefore, List.forall_mem_cons.2 ⟨hsame, fun key' hkey' a ha => ?_⟩⟩
    rw [← hkept] at ha
    exact hrest key' hkey' a ha

/-- Pointing the accounts of a section elsewhere is not noticed only if there is none to point. -/
theorem repointAccounts_of_unchanged (h : (w.repointAccounts s old new).2 = false) :
    ∀ key, ∀ a ∈ w.entriesAt s key, repoint old new a = a := by
  obtain ⟨-, hall⟩ := foldl_repoint_unchanged h
  exact fun key a ha => hall key (Shelf.mem_keys_of_entriesAt ha) a ha

/-- Where there is no account to point elsewhere, nothing changes. -/
theorem repointAccounts_eq_self (h : ∀ key, ∀ a ∈ w.entriesAt s key, repoint old new a = a) :
    w.repointAccounts s old new = (w, false) := by
  refine foldl_keeps (fun r : Workspace × Bool => r = (w, false)) ?_ _ _ rfl
  rintro r key rfl
  simp only [editAccount_eq_self (h key), Bool.or_self]

/-- A renaming that has nothing to catch changes nothing and is not noticed. -/
theorem renameOu_eq_self (h : w.Clear old new) : w.renameOu old new = .ok (w, false) := by
  have hnone : renamings w.ous.keys old new = [] := renamings_eq_nil_iff.2 h.keys
  have hkeys : w.renameOuKeys old new = .ok (w, false) := by
    unfold renameOuKeys
    simp only [hnone]
    rfl
  unfold renameOu
  split
  · rfl
  · rw [hkeys]
    unfold AccountSection.all
    simp [Except.map, repointAccounts_eq_self (h.entries _)]

/-- **A renaming is noticed unless it has nothing to catch**, and then it changes nothing. -/
theorem renameOu_of_unchanged (hne : old ≠ new) {w' : Workspace}
    (h : w.renameOu old new = .ok (w', false)) : w' = w ∧ w.Clear old new := by
  obtain ⟨w₁, changed, hrenamed, -, hflags⟩ := renameOu_eq_ok hne h
  obtain ⟨hbefore, hworkload⟩ := Bool.or_eq_false_iff.1 hflags.symm
  obtain ⟨rfl, hmandatory⟩ := Bool.or_eq_false_iff.1 hbefore
  have hfirst := repointAccounts_of_unchanged hmandatory
  rw [repointAccounts_eq_self hfirst] at hworkload
  have hsecond := repointAccounts_of_unchanged hworkload
  obtain ⟨-, ⟨hnone, hkept⟩ | ⟨entries, -, hkept⟩ | ⟨listed, _, -, -, hkept⟩⟩ :=
    renameOuKeys_eq_ok hrenamed
  · cases hkept
    have hclear : w.Clear old new := by
      refine ⟨renamings_eq_nil_iff.1 hnone, fun s => ?_⟩
      cases s with
      | mandatory => exact hfirst
      | workload => exact hsecond
    have hsame := renameOu_eq_self hclear
    rw [h] at hsame
    exact ⟨congrArg Prod.fst (Except.ok.inj hsame), hclear⟩
  · cases hkept
  · cases hkept

/-! ### What becomes of entries -/

/-- What renaming a unit makes of the entries of a section: each is pointed on as often as its key
is listed. -/
def repointed (old new : String) (s : Shelf AccountEntry) : List (KeyedMap AccountEntry) :=
  s.layers.map fun m => m.mapEntries fun key => (repoint old new)^[s.keys.count key]

/-- Pointing the accounts of one section to their new paths leaves the other section alone. -/
theorem accounts_repointAccounts_of_ne {s' : AccountSection} (hs : s' ≠ s) :
    (w.repointAccounts s old new).1.accounts s' = w.accounts s' := by
  refine foldl_keeps (fun r : Workspace × Bool => r.1.accounts s' = w.accounts s')
    (fun r key hr => ?_) _ (w, false) rfl
  exact (accounts_editAccount s').trans ((if_neg hs).trans hr)

/-- What pointing the accounts of a section to their new paths makes of them. -/
theorem layers_repointAccounts :
    ((w.repointAccounts s old new).1.accounts s).layers = repointed old new (w.accounts s) := by
  have hwalk : ∀ (keys : List String) (r : Workspace × Bool),
      ((keys.foldl (fun (w, changed) key =>
        let (w, here) := w.editAccount s key (repoint old new)
        (w, changed || here)) r).1.accounts s).layers =
        (r.1.accounts s).layers.map fun m =>
          keys.foldl (fun m key => m.modify key (repoint old new)) m := by
    intro keys
    induction keys with
    | nil => exact fun r => (List.map_id _).symm
    | cons key keys ih =>
      intro r
      rw [List.foldl_cons, ih, accounts_editAccount, if_pos rfl, Shelf.layers_edit, List.map_map]
      rfl
  unfold repointAccounts repointed
  rw [hwalk]
  exact List.map_congr_left fun m _ => KeyedMap.foldl_modify _ _ m

/-- Renaming the units' keys leaves the accounts alone. -/
theorem accounts_renameOuKeys {r : Workspace × Bool} (h : w.renameOuKeys old new = .ok r)
    (s : AccountSection) : r.1.accounts s = w.accounts s := by
  refine renameOuKeys_keeps (fun v => v.accounts s = w.accounts s) ?_ rfl h
  intro v ous deleted rootDirty hv
  rw [← hv]
  cases s <;> rfl

/-- **What renaming a unit makes of each entry of each file.** -/
theorem layers_renameOu (hne : old ≠ new) {r : Workspace × Bool}
    (h : w.renameOu old new = .ok r) (s : AccountSection) :
    (r.1.accounts s).layers = repointed old new (w.accounts s) := by
  obtain ⟨w₁, changed, hrenamed, hr, -⟩ := renameOu_eq_ok hne h
  have hkept : w₁.accounts s = w.accounts s := accounts_renameOuKeys hrenamed s
  rw [hr]
  cases s with
  | mandatory => rw [accounts_repointAccounts_of_ne (by decide), layers_repointAccounts, hkept]
  | workload => rw [layers_repointAccounts, accounts_repointAccounts_of_ne (by decide), hkept]

/-- A key of a section is listed at least once. -/
theorem exists_count_eq_succ {keys : List String} {key : String} (h : key ∈ keys) :
    ∃ n, keys.count key = n + 1 :=
  Nat.exists_eq_succ_of_ne_zero (Nat.ne_of_gt (List.count_pos_iff.2 h))

/-- What renaming a unit makes of the entries under a key. -/
theorem entriesAt_iterate (hne : old ≠ new) {r : Workspace × Bool}
    (h : w.renameOu old new = .ok r) (s : AccountSection) (key : String) :
    r.1.entriesAt s key =
      (w.entriesAt s key).map (repoint old new)^[(w.accounts s).keys.count key] := by
  unfold entriesAt
  rw [Shelf.entriesAt_eq_layers, Shelf.entriesAt_eq_layers, layers_renameOu hne h]
  unfold repointed
  rw [List.filterMap_map, List.map_filterMap]
  refine List.filterMap_congr fun m _ => ?_
  rw [Function.comp_apply, KeyedMap.get?_mapEntries]

/-- What renaming a unit to a place apart from where it was makes of the entries of accounts: to be
reached once is as good as many times. -/
theorem entriesAt_renameOu (hne : old ≠ new) (hproper : Path.Proper new) (hapart : Apart new old)
    {r : Workspace × Bool} (h : w.renameOu old new = .ok r) (s : AccountSection) (k : String) :
    r.1.entriesAt s k = (w.entriesAt s k).map (repoint old new) := by
  rw [entriesAt_iterate hne h]
  refine List.map_congr_left fun a ha => ?_
  obtain ⟨n, hn⟩ := exists_count_eq_succ (Shelf.mem_keys_of_entriesAt ha)
  rw [hn, Function.iterate_succ_apply]
  exact Function.iterate_fixed (repoint_repoint hproper hapart a) n

/-! ### Nothing left -/

/-- Nothing at or below a path is declared. -/
structure Rid (w : Workspace) (path : String) : Prop where
  /-- No unit. -/
  keys : ∀ k ∈ w.ous.keys, ¬ Path.Under k path
  /-- No account. -/
  entries : ∀ s key, ∀ a ∈ w.entriesAt s key, ¬ Path.Under a.path path

/-- Where nothing is declared, a renaming has nothing to catch. -/
theorem Rid.clear (h : w.Rid old) (new : String) : w.Clear old new :=
  ⟨h.keys, fun s key a ha => repoint_of_not_under (h.entries s key a ha)⟩

/-- **Renaming a unit leaves nothing where the unit was, and puts nothing where nothing was**, as
far as the new place is apart from there. -/
theorem rid_renameOu (hne : old ≠ new) (hproper : Path.Proper new) (hold : Apart new old)
    {r : Workspace × Bool} (h : w.renameOu old new = .ok r) {path : String}
    (hpath : Apart new path) (hrid : path = old ∨ w.Rid path) : r.1.Rid path := by
  have hgone : ∀ p, ¬ Path.Under p old → (path = old ∨ ¬ Path.Under p path) →
      ¬ Path.Under p path := by
    rintro p hp (rfl | hor)
    · exact hp
    · exact hor
  constructor
  · intro k' hk'
    obtain ⟨k, hk, hfollows⟩ := forall₂_exists_left (forall₂_renameOu hne h) hk'
    by_cases hunder : Path.Under k old
    · obtain ⟨t, ht, hnew⟩ := Path.exists_rebase hunder new
      rw [hfollows.2 t ht (hold.not_under hnew)]
      exact hpath.not_under hnew
    · rw [hfollows.1 hunder]
      exact hgone k hunder (hrid.imp_right fun hrid => hrid.keys k hk)
  · intro s key a' ha'
    rw [entriesAt_renameOu hne hproper hold h] at ha'
    obtain ⟨a, ha, rfl⟩ := List.mem_map.1 ha'
    by_cases hunder : Path.Under a.path old
    · exact not_under_repoint hproper hunder hpath
    · rw [repoint_of_not_under hunder]
      exact hgone a.path hunder (hrid.imp_right fun hrid => hrid.entries s key a ha)

end Workspace
end OrgAlign.Config
