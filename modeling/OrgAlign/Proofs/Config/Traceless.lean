import Mathlib.Data.Finset.Max
import OrgAlign.Proofs.Config.Repointed

/-!
# Renamings that leave no trace

A renaming of a unit edits a configuration in place: the keys of units one after the other, file by
file, and then the accounts. One that is refused, or that answers that nothing changed, must not
have edited anything, and one that answers that something changed must have changed something, even
if some of the keys could not be renamed. Main statements:

* `Workspace.run_renameOuInPlace`: renaming in place, step by step, comes to the same as renaming;
* `exists_free_target`: of the keys to be renamed, the one furthest on its way goes to a free place;
* `Workspace.renameOu_leaves_no_trace`: what each of the answers means.
-/

namespace OrgAlign.Config

/-! ### The furthest key -/

/-- **Some key goes to a free place.** No key is at the place to which the key furthest on its way
goes: that one would be further. -/
theorem exists_free_target {old new : String} {keys : List String} (hne : old ≠ new)
    (hconflict : conflict? keys (renamings keys old new) = none)
    (hsome : renamings keys old new ≠ []) :
    ∃ r ∈ renamings keys old new, r.2 ∉ keys := by
  have hnonempty : (renamings keys old new).toFinset.Nonempty :=
    List.toFinset_nonempty_iff _ |>.2 hsome
  obtain ⟨r, hr, hfurthest⟩ :=
    Finset.exists_max_image _ (fun r : Renaming => ahead old new r.1) hnonempty
  rw [List.mem_toFinset] at hr
  refine ⟨r, hr, fun htaken => ?_⟩
  have hunder : Path.Under r.2 old := by
    by_contra hfree
    exact not_mem_of_conflict?_eq_none hconflict hr hfree htaken
  obtain ⟨t, ht, -⟩ := Path.exists_rebase hunder new
  have hnext : (r.2, t) ∈ renamings keys old new := mem_renamings.2 ⟨htaken, ht⟩
  have hle := hfurthest (r.2, t) (List.mem_toFinset.2 hnext)
  exact absurd (ahead_lt hne (mem_renamings.1 hr).2 hunder) (not_lt.2 hle)

/-- A key that goes to a free place gets there. -/
theorem mem_keys_of_free_target {α : Type} {old new : String} {keys : List String} {r : Renaming}
    (hr : r ∈ renamings keys old new) (hfree : r.2 ∉ keys) {m : KeyedMap α}
    (hm : ∀ k ∈ m.keys, k ∈ keys) (hkey : r.1 ∈ m.keys) :
    r.2 ∈ (renameKeys m (renamings keys old new).reverse).keys := by
  obtain ⟨k', hk', -, hmoves⟩ :=
    forall₂_exists_right (forall₂_renameKeys oneToOne_renamings.reverse m) hkey
  have hthere : k' = r.2 := by
    refine hmoves r.2 (List.mem_reverse.2 hr) (fun hin => hfree (hm _ hin)) ?_
    intro r' hr' hsource
    exact hfree (hsource ▸ (mem_renamings.1 (List.mem_reverse.1 hr')).1)
  exact hthere ▸ hk'

namespace Workspace

variable {w w' : Workspace} {old new : String}

/-- If there are keys to be renamed, a key is new after that. -/
theorem exists_new_key (hne : old ≠ new) (hsome : renamings w.ous.keys old new ≠ [])
    {r : Workspace × Bool} (h : w.renameOu old new = .ok r) :
    ∃ k ∈ r.1.ous.keys, k ∉ w.ous.keys := by
  refine renameOu_gives (fun v => ∃ k ∈ v.ous.keys, k ∉ w.ous.keys)
    (fun hsame => absurd hsame hne) (fun _ r hr => ?_) (fun _ _ _ hv => ?_) h
  · obtain ⟨hconflict, hlayers⟩ := layers_renameOuKeys hr
    obtain ⟨r', hr', hfree⟩ := exists_free_target hne hconflict hsome
    have hkey := (mem_renamings.1 hr').1
    rw [Shelf.keys_eq_layers] at hkey
    obtain ⟨m, hm, hkey⟩ := List.mem_flatMap.1 hkey
    have hthere := mem_keys_of_free_target hr' hfree (fun k => Shelf.mem_keys_of_layer hm) hkey
    refine ⟨r'.2, Shelf.mem_keys_of_layer ?_ hthere, hfree⟩
    rw [hlayers]
    exact List.mem_map_of_mem hm
  · rwa [ous_editAccount]

/-- An entry that would be pointed elsewhere is different after the renaming. -/
theorem entriesAt_ne (hne : old ≠ new) {r : Workspace × Bool} (h : w.renameOu old new = .ok r)
    {s : AccountSection} {key : String} {a : AccountEntry} (ha : a ∈ w.entriesAt s key)
    (hmoves : repoint old new a ≠ a) : r.1.entriesAt s key ≠ w.entriesAt s key := by
  obtain ⟨n, hn⟩ := exists_count_eq_succ (Shelf.mem_keys_of_entriesAt ha)
  rw [entriesAt_iterate hne h, hn]
  intro hsame
  exact iterate_repoint_ne hne hmoves n
    (List.map_inj_left.1 (hsame.trans (List.map_id _).symm) a ha)

/-- A renaming that answers that nothing changed left everything as it was. -/
theorem eq_of_renameOu_unchanged (h : w.renameOu old new = .ok (w', false)) : w' = w := by
  by_cases hsame : old = new
  · rw [renameOu_same hsame] at h
    exact (congrArg Prod.fst (Except.ok.inj h)).symm
  · exact (renameOu_of_unchanged hsame h).1

/-- A renaming that answers that something changed made a key of a unit or an entry of an account
different. -/
theorem changed_of_renameOu (h : w.renameOu old new = .ok (w', true)) :
    (∃ k ∈ w'.ous.keys, k ∉ w.ous.keys) ∨ ∃ s key, w'.entriesAt s key ≠ w.entriesAt s key := by
  have hne : old ≠ new := by
    intro hsame
    rw [renameOu_same hsame] at h
    cases h
  by_cases hnone : renamings w.ous.keys old new = []
  · right
    by_contra hstays
    push Not at hstays
    have hclear : w.Clear old new := by
      refine ⟨renamings_eq_nil_iff.1 hnone, fun s key a ha => ?_⟩
      by_contra hmoves
      exact entriesAt_ne hne h ha hmoves (hstays s key)
    rw [renameOu_eq_self hclear] at h
    cases h
  · exact .inl (exists_new_key hne hnone h)

/-! ### In place -/

/-- Makes a renaming in the root file, where the units are given there. -/
def renameInRoot (r : Renaming) (w : Workspace) : Workspace :=
  match w.ous.part with
  | .inline entries => { w with ous := { w.ous with part := .inline (entries.rename r.1 r.2) } }
  | .load _ => w

/-- Makes renamings in one of the files of units, which may move it. -/
def renameInFile (rs : List Renaming) (i : Nat) (w : Workspace) : Workspace :=
  match w.ous.part, w.ous.files[i]? with
  | .load listed, some f =>
    let (f, r) := f.rename rs ⟨listed, w.deleted, w.rootDirty⟩
    { w with
      ous := ⟨.load r.listed, w.ous.files.set i f⟩
      deleted := r.deleted
      rootDirty := r.rootDirty }
  | _, _ => w

/-- Makes renamings of units' keys in place, one after the other in the root file, or file by
file. -/
def makeRenamings (rs : List Renaming) : EStateM Error Workspace Unit := do
  let w ← get
  match w.ous.part with
  | .inline _ => do
    forM rs fun r => modify (renameInRoot r)
    modify fun w => { w with rootDirty := true }
  | .load _ => forM (List.range w.ous.files.length) fun i => modify (renameInFile rs i)

/-- Renames the units' keys in place. -/
def renameOuKeysInPlace (old new : String) : EStateM Error Workspace Bool := do
  let w ← get
  let rs := renamings w.ous.keys old new
  match conflict? w.ous.keys rs with
  | some r => throw (.renameConflict ouSectionKey r.1 r.2)
  | none =>
    if rs = [] then
      return false
    else
      makeRenamings rs.reverse
      return true

/-- Points the accounts of one section to their new paths in place. -/
def repointInPlace (old new : String) (changed : Bool) (s : AccountSection) :
    EStateM Error Workspace Bool := do
  let w ← get
  (w.accounts s).keys.foldlM (fun changed key => do
    let w ← get
    set (w.editAccount s key (repoint old new)).1
    return changed || (w.editAccount s key (repoint old new)).2) changed

/-- Renames a unit in place. -/
def renameOuInPlace (old new : String) : EStateM Error Workspace Bool := do
  if old = new then
    return false
  let changed ← renameOuKeysInPlace old new
  AccountSection.all.foldlM (repointInPlace old new) changed

/-- An answer with the workspace that it leaves: where there is an error, that is the one there
was. -/
def leaving (w : Workspace) : Except Error (Workspace × Bool) → EStateM.Result Error Workspace Bool
  | .ok (w', changed) => .ok changed w'
  | .error e => .error e w

theorem run_forM_modify {ε σ α : Type} (step : α → σ → σ) (as : List α) (st : σ) :
    (forM as fun a => modify (step a) : EStateM ε σ PUnit).run st =
      .ok () (as.foldl (fun st a => step a st) st) := by
  induction as generalizing st with
  | nil => rfl
  | cons a as ih => exact ih (step a st)

theorem foldl_renameInRoot {entries : KeyedMap OuEntry} (hpart : w.ous.part = .inline entries)
    (rs : List Renaming) : rs.foldl (fun w r => renameInRoot r w) w =
      { w with ous := { w.ous with part := .inline (renameKeys entries rs) } } := by
  induction rs generalizing w entries with
  | nil =>
    obtain ⟨_, _, ⟨part, files⟩, _⟩ := w
    cases hpart
    rfl
  | cons r rs ih =>
    have hfirst : renameInRoot r w =
        { w with ous := { w.ous with part := .inline (entries.rename r.1 r.2) } } := by
      unfold renameInRoot
      rw [hpart]
    rw [List.foldl_cons, hfirst, ih rfl]
    rfl

/-- Renaming file by file, with the files that are done before the others. -/
theorem foldl_renameInFile (rs : List Renaming) {listed : List String}
    {done fs : List (SplitFile OuEntry)} (hous : w.ous = ⟨.load listed, done ++ fs⟩) :
    (List.range' done.length fs.length).foldl (fun w i => renameInFile rs i w) w =
      { w with
        ous := ⟨.load (renameFiles rs fs ⟨listed, w.deleted, w.rootDirty⟩).2.listed,
          done ++ (renameFiles rs fs ⟨listed, w.deleted, w.rootDirty⟩).1⟩
        deleted := (renameFiles rs fs ⟨listed, w.deleted, w.rootDirty⟩).2.deleted
        rootDirty := (renameFiles rs fs ⟨listed, w.deleted, w.rootDirty⟩).2.rootDirty } := by
  induction fs generalizing w listed done with
  | nil =>
    change w = { w with ous := ⟨.load listed, done ++ []⟩ }
    rw [← hous]
  | cons f fs ih =>
    rcases hf : f.rename rs ⟨listed, w.deleted, w.rootDirty⟩ with ⟨f', r⟩
    have hfirst : renameInFile rs done.length w =
        { w with
          ous := ⟨.load r.listed, (done ++ [f']) ++ fs⟩
          deleted := r.deleted
          rootDirty := r.rootDirty } := by
      unfold renameInFile
      rw [hous]
      simp [hf]
    rw [List.length_cons, List.range'_succ, List.foldl_cons, hfirst]
    have hlength : done.length + 1 = (done ++ [f']).length := by simp
    rw [hlength, ih rfl]
    have hfiles : renameFiles rs (f :: fs) ⟨listed, w.deleted, w.rootDirty⟩ =
        (f' :: (renameFiles rs fs r).1, (renameFiles rs fs r).2) := by
      rw [renameFiles, hf]
    simp only [hfiles, List.append_assoc, List.singleton_append]

theorem run_makeRenamings_inline {entries : KeyedMap OuEntry}
    (hpart : w.ous.part = .inline entries) (rs : List Renaming) : (makeRenamings rs).run w =
      .ok () { w with
        ous := { w.ous with part := .inline (renameKeys entries rs) }
        rootDirty := true } := by
  unfold makeRenamings
  simp only [EStateM.run_bind, EStateM.run_get, hpart, run_forM_modify,
    foldl_renameInRoot hpart rs]
  rfl

theorem run_makeRenamings_load {listed : List String} (hpart : w.ous.part = .load listed)
    (rs : List Renaming) : (makeRenamings rs).run w =
      .ok () { w with
        ous := ⟨.load (renameFiles rs w.ous.files ⟨listed, w.deleted, w.rootDirty⟩).2.listed,
          (renameFiles rs w.ous.files ⟨listed, w.deleted, w.rootDirty⟩).1⟩
        deleted := (renameFiles rs w.ous.files ⟨listed, w.deleted, w.rootDirty⟩).2.deleted
        rootDirty :=
          (renameFiles rs w.ous.files ⟨listed, w.deleted, w.rootDirty⟩).2.rootDirty } := by
  have hous : w.ous = ⟨.load listed, [] ++ w.ous.files⟩ := by
    rw [← hpart]
    rfl
  have hsteps := foldl_renameInFile rs hous
  rw [List.length_nil, ← List.range_eq_range'] at hsteps
  unfold makeRenamings
  simp only [EStateM.run_bind, EStateM.run_get, hpart, run_forM_modify, hsteps]
  rfl

/-- Renaming the units' keys in place comes to the same as renaming them. -/
theorem run_renameOuKeysInPlace :
    (renameOuKeysInPlace old new).run w = leaving w (w.renameOuKeys old new) := by
  simp only [renameOuKeysInPlace, renameOuKeys, EStateM.run_bind, EStateM.run_get]
  cases conflict? w.ous.keys (renamings w.ous.keys old new) with
  | some r => rfl
  | none =>
    by_cases hnone : renamings w.ous.keys old new = []
    · simp only [if_pos hnone]
      rfl
    · simp only [if_neg hnone, EStateM.run_bind]
      cases hpart : w.ous.part with
      | inline entries =>
        rw [run_makeRenamings_inline hpart]
        rfl
      | load listed =>
        rw [run_makeRenamings_load hpart]
        rfl

theorem run_repointInPlace {changed : Bool} {s : AccountSection} :
    (repointInPlace old new changed s).run w =
      .ok (changed || (w.repointAccounts s old new).2) (w.repointAccounts s old new).1 := by
  have hwalk : ∀ (keys : List String) (w : Workspace) (before changed : Bool),
      (keys.foldlM (fun changed key => do
        let w ← get
        set (w.editAccount s key (repoint old new)).1
        return changed || (w.editAccount s key (repoint old new)).2)
        (before || changed) : EStateM Error Workspace Bool).run w =
      let r := keys.foldl (fun r key => ((r.1.editAccount s key (repoint old new)).1,
        r.2 || (r.1.editAccount s key (repoint old new)).2)) (w, changed)
      .ok (before || r.2) r.1 := by
    intro keys
    induction keys with
    | nil => exact fun w before changed => rfl
    | cons key keys ih =>
      intro w before changed
      have hrest := ih (w.editAccount s key (repoint old new)).1 before
        (changed || (w.editAccount s key (repoint old new)).2)
      rw [← Bool.or_assoc] at hrest
      exact hrest
  have hall := hwalk (w.accounts s).keys w changed false
  rw [Bool.or_false] at hall
  exact hall

/-- **Renaming in place comes to the same as renaming**, and an error leaves the workspace that
there was. -/
theorem run_renameOuInPlace :
    (renameOuInPlace old new).run w = leaving w (w.renameOu old new) := by
  unfold renameOuInPlace renameOu
  by_cases hsame : old = new
  · rw [if_pos hsame, if_pos hsame]
    rfl
  · rw [if_neg hsame, if_neg hsame, EStateM.run_bind, run_renameOuKeysInPlace]
    cases w.renameOuKeys old new with
    | error e => rfl
    | ok r =>
      simp only [leaving, AccountSection.all, List.foldlM_cons, List.foldlM_nil, EStateM.run_bind,
        run_repointInPlace]
      rfl

/-! ### Answers -/

/-- **A renaming that is refused or makes no difference leaves no trace**, and one that says that it
made a difference did. -/
theorem renameOu_leaves_no_trace (w : Workspace) (old new : String) :
    (renameOuInPlace old new).run w = leaving w (w.renameOu old new) ∧
      match (renameOuInPlace old new).run w with
      | .error e w' => (∃ k t, e = .renameConflict ouSectionKey k t) ∧ w' = w
      | .ok false w' => w' = w
      | .ok true w' => (∃ k ∈ w'.ous.keys, k ∉ w.ous.keys) ∨
          ∃ s key, w'.entriesAt s key ≠ w.entriesAt s key := by
  refine ⟨run_renameOuInPlace, ?_⟩
  rw [run_renameOuInPlace]
  cases h : w.renameOu old new with
  | error e => exact ⟨renameOu_eq_error h, rfl⟩
  | ok r =>
    obtain ⟨w', changed⟩ := r
    cases changed with
    | false => exact eq_of_renameOu_unchanged h
    | true => exact changed_of_renameOu h

end Workspace
end OrgAlign.Config
