import OrgAlign.Config.Rename
import OrgAlign.Proofs.Config.Accounts
import OrgAlign.Proofs.Walks

/-!
# Entries file by file

A key may be declared by several files, and an edit reaches its entry in each of them, while the
merged view shows one entry only. Main statements:

* `Shelf.places_edit`, `Shelf.entriesAt_edit`, `Shelf.merged_edit`: what an edit does to the maps of
  the files, to the entries in them, and to the merged view;
* `Shelf.edit_eq_self`: an edit that makes no difference to any of the entries leaves everything as
  it was;
* `Workspace.entriesAt_editAccount`, `Workspace.merged_editAccount`: the same for the workspace;
* `Workspace.updateAccount_eq_self`, `Workspace.updateAccount_changed`: a patch is noticed iff some
  entry does not satisfy it already;
* `Workspace.changes_of_load`: there is nothing to write after loading;
* `Workspace.renameOuKeys_eq_ok`, `Workspace.renameOu_eq_ok`: what renaming a unit can do.
-/

namespace OrgAlign.Config

variable {α : Type} [DecidableEq α]

/-! ### Entries of one file -/

/-- An edit makes no difference to a map iff it makes none to the entry under the key. -/
theorem differs_eq_false_iff {entries : KeyedMap α} {key : String} {f : α → α} :
    differs entries key f = false ↔ ∀ a, entries.get? key = some a → f a = a := by
  unfold differs
  cases entries.get? key <;> simp

/-- It makes one iff the entry is different afterwards. -/
theorem differs_eq_true_iff {entries : KeyedMap α} {key : String} {f : α → α} :
    differs entries key f = true ↔ ∃ a, entries.get? key = some a ∧ f a ≠ a := by
  unfold differs
  simp [Option.any_eq_true]

/-- A file that an edit leaves clean is the file as it was. -/
theorem SplitFile.edit_of_clean {file : SplitFile α} {key : String} {f : α → α}
    (h : (file.edit key f).dirty = false) : file.edit key f = file := by
  obtain ⟨hdirty, hsame⟩ := Bool.or_eq_false_iff.1 (h : (file.dirty || _) = false)
  unfold SplitFile.edit
  rw [KeyedMap.modify_eq_self (differs_eq_false_iff.1 hsame), hsame, Bool.or_false]

/-! ### Sections -/

namespace Shelf

omit [DecidableEq α] in
/-- The entries under a key, one for each file that declares it. -/
def entriesAt (s : Shelf α) (key : String) : List α :=
  match s.part with
  | .inline entries => (entries.get? key).toList
  | .load _ => s.files.filterMap fun f => f.entries.get? key

omit [DecidableEq α] in
/-- The maps of a section, each with the path of its file. -/
def places (s : Shelf α) (rootPath : String) : List (String × KeyedMap α) :=
  match s.part with
  | .inline entries => [(rootPath, entries)]
  | .load _ => s.files.map fun file => (file.path, file.entries)

variable {s : Shelf α} {rootPath key : String} {f : α → α}

omit [DecidableEq α] in
/-- The entries under a key are those of the maps. -/
theorem entriesAt_eq_places (rootPath : String) :
    s.entriesAt key = (s.places rootPath).filterMap fun place => place.2.get? key := by
  obtain ⟨part, files⟩ := s
  cases part with
  | inline entries =>
    unfold entriesAt places
    cases h : entries.get? key <;> simp [h]
  | load listed =>
    unfold entriesAt places
    rw [List.filterMap_map]
    rfl

omit [DecidableEq α] in
/-- The maps of a section: its own, or those of its files. -/
def layers (s : Shelf α) : List (KeyedMap α) :=
  match s.part with
  | .inline entries => [entries]
  | .load _ => s.files.map SplitFile.entries

omit [DecidableEq α] in
theorem layers_eq_places (rootPath : String) : s.layers = (s.places rootPath).map Prod.snd := by
  obtain ⟨part, files⟩ := s
  cases part with
  | inline entries => rfl
  | load listed =>
    unfold layers places
    rw [List.map_map]
    rfl

omit [DecidableEq α] in
/-- The entries under a key are those of the maps, wherever these are. -/
theorem entriesAt_eq_layers : s.entriesAt key = s.layers.filterMap fun m => m.get? key := by
  rw [entriesAt_eq_places "", layers_eq_places "", List.filterMap_map]
  rfl

omit [DecidableEq α] in
theorem keys_eq_layers (s : Shelf α) : s.keys = s.layers.flatMap KeyedMap.keys := by
  unfold keys layers
  cases s.part with
  | inline entries => exact (List.flatMap_singleton _ _).symm
  | load _ => exact (List.flatMap_map _ _ _).symm

omit [DecidableEq α] in
theorem merged_eq_layers (s : Shelf α) :
    s.merged = KeyedMap.ofList (s.layers.flatMap KeyedMap.entries) := by
  unfold merged layers
  cases s.part with
  | inline entries =>
    change entries = KeyedMap.ofList ([entries].flatMap KeyedMap.entries)
    rw [List.flatMap_singleton, KeyedMap.ofList_entries]
  | load _ => exact congrArg KeyedMap.ofList (List.flatMap_map _ _ _).symm

omit [DecidableEq α] in
theorem mem_keys_of_layer {m : KeyedMap α} (hm : m ∈ s.layers) {k : String} (hk : k ∈ m.keys) :
    k ∈ s.keys := by
  rw [keys_eq_layers]
  exact List.mem_flatMap.2 ⟨m, hm, hk⟩

/-- An edit is made file by file. -/
theorem places_edit : (s.edit key f).shelf.places rootPath =
    (s.places rootPath).map fun place => (place.1, place.2.modify key f) := by
  obtain ⟨part, files⟩ := s
  cases part with
  | inline entries => rfl
  | load listed =>
    change (files.map fun file => file.edit key f).map (fun file => (file.path, file.entries)) =
      (files.map fun file => (file.path, file.entries)).map
        fun place => (place.1, place.2.modify key f)
    rw [List.map_map, List.map_map]
    rfl

theorem layers_edit : (s.edit key f).shelf.layers = s.layers.map fun m => m.modify key f := by
  rw [layers_eq_places "", layers_eq_places "", places_edit, List.map_map, List.map_map]
  rfl

/-- An edit is noticed if it makes a difference to some file. -/
theorem changed_eq_places (rootPath : String) : (s.edit key f).changed =
    (s.places rootPath).any fun place => differs place.2 key f := by
  obtain ⟨part, files⟩ := s
  cases part with
  | inline entries => exact (Bool.or_false _).symm
  | load listed =>
    unfold places
    rw [List.any_map]
    rfl

/-- What an edit does to the entries of the files. -/
theorem entriesAt_edit (k : String) : (s.edit key f).shelf.entriesAt k =
    if k = key then (s.entriesAt k).map f else s.entriesAt k := by
  rw [entriesAt_eq_layers, entriesAt_eq_layers, layers_edit, List.filterMap_map]
  split
  · rename_i hkey
    rw [List.map_filterMap]
    refine List.filterMap_congr fun m _ => ?_
    rw [Function.comp_apply, KeyedMap.get?_modify, if_pos hkey]
  · rename_i hkey
    refine List.filterMap_congr fun m _ => ?_
    rw [Function.comp_apply, KeyedMap.get?_modify, if_neg hkey]

omit [DecidableEq α] in
/-- The entry of the merged view is the entry of some file. -/
theorem mem_entriesAt_of_merged {a : α} (h : s.merged.get? key = some a) : a ∈ s.entriesAt key := by
  rw [merged_eq_layers] at h
  obtain ⟨m, hm, ha⟩ := List.mem_flatMap.1 (KeyedMap.mem_ofList (KeyedMap.get?_eq_some_iff.1 h))
  rw [entriesAt_eq_layers]
  exact List.mem_filterMap.2 ⟨m, hm, KeyedMap.get?_eq_some_iff.2 ha⟩

omit [DecidableEq α] in
/-- A key that has an entry is a key of the section. -/
theorem mem_keys_of_entriesAt {a : α} (h : a ∈ s.entriesAt key) : key ∈ s.keys := by
  rw [entriesAt_eq_layers] at h
  obtain ⟨m, hm, ha⟩ := List.mem_filterMap.1 h
  exact mem_keys_of_layer hm (KeyedMap.mem_keys_of_get? ha)

/-- What an edit does to the merged view. -/
theorem merged_edit : (s.edit key f).shelf.merged = s.merged.modify key f := by
  rw [merged_eq_layers, merged_eq_layers, layers_edit, List.flatMap_map]
  unfold KeyedMap.modify
  rw [← KeyedMap.ofList_map, List.map_flatMap]
  rfl

omit [DecidableEq α] in
/-- The merged view depends on the entries of the files alone. -/
theorem merged_of_entries {part : Section α} {files files' : List (SplitFile α)}
    (h : files'.map SplitFile.entries = files.map SplitFile.entries) :
    (⟨part, files'⟩ : Shelf α).merged = (⟨part, files⟩ : Shelf α).merged := by
  cases part with
  | inline entries => rfl
  | load listed =>
    change KeyedMap.ofList (files'.flatMap fun f => f.entries.entries) =
      KeyedMap.ofList (files.flatMap fun f => f.entries.entries)
    rw [← List.flatMap_map (f := SplitFile.entries) (g := KeyedMap.entries), h, List.flatMap_map]

/-- An edit that makes no difference leaves everything as it was. -/
theorem edit_eq_self (h : ∀ a ∈ s.entriesAt key, f a = a) : s.edit key f = ⟨s, false, false⟩ := by
  have hsame : ∀ entries : KeyedMap α, (∀ a, entries.get? key = some a → f a = a) →
      differs entries key f = false ∧ entries.modify key f = entries := fun entries hentries =>
    ⟨differs_eq_false_iff.2 hentries, KeyedMap.modify_eq_self hentries⟩
  obtain ⟨part, files⟩ := s
  cases part with
  | inline entries =>
    obtain ⟨hdiffers, hmodify⟩ := hsame entries fun a ha => h a (by
      change a ∈ (entries.get? key).toList
      simp [ha])
    unfold edit
    simp only [hdiffers, hmodify]
  | load listed =>
    have hfile : ∀ file ∈ files, differs file.entries key f = false ∧
        file.entries.modify key f = file.entries := fun file hfile => hsame file.entries
      fun a ha => h a (List.mem_filterMap.2 ⟨file, hfile, ha⟩)
    have hfiles : files.map (fun file => file.edit key f) = files := by
      refine (List.map_congr_left fun file hin => ?_).trans (List.map_id _)
      unfold SplitFile.edit
      rw [(hfile file hin).1, (hfile file hin).2, Bool.or_false]
      rfl
    have hany : (files.any fun file => differs file.entries key f) = false :=
      List.any_eq_false.2 fun file hin => by simp [(hfile file hin).1]
    unfold edit
    simp only [hfiles, hany]

/-- An edit counts as one iff it makes a difference to some entry. -/
theorem changed_edit : (s.edit key f).changed = true ↔ ∃ a ∈ s.entriesAt key, f a ≠ a := by
  rw [changed_eq_places "", entriesAt_eq_places "", List.any_eq_true]
  constructor
  · rintro ⟨place, hplace, h⟩
    obtain ⟨a, ha, hne⟩ := differs_eq_true_iff.1 h
    exact ⟨a, List.mem_filterMap.2 ⟨place, hplace, ha⟩, hne⟩
  · rintro ⟨a, ha, hne⟩
    obtain ⟨place, hplace, ha⟩ := List.mem_filterMap.1 ha
    exact ⟨place, hplace, differs_eq_true_iff.2 ⟨a, ha, hne⟩⟩

end Shelf

/-! ### The workspace -/

namespace Workspace

variable {w : Workspace} {s : AccountSection} {key : String} {f : AccountEntry → AccountEntry}

/-- The entries of accounts under a key, one for each file of a section that declares it. -/
def entriesAt (w : Workspace) (s : AccountSection) (key : String) : List AccountEntry :=
  (w.accounts s).entriesAt key

theorem inSection_merged (w : Workspace) (s : AccountSection) :
    w.merged.inSection s = (w.accounts s).merged := by
  cases s <;> rfl

/-- An edit reaches one section. -/
theorem accounts_editAccount (s' : AccountSection) : (w.editAccount s key f).1.accounts s' =
    if s' = s then ((w.accounts s).edit key f).shelf else w.accounts s' := by
  cases s <;> cases s' <;> rfl

/-- An edit of an account leaves the units alone. -/
theorem ous_editAccount : (w.editAccount s key f).1.ous = w.ous := by
  cases s <;> rfl

/-- What an edit does to the entries of the files. -/
theorem entriesAt_editAccount (s' : AccountSection) (k : String) :
    (w.editAccount s key f).1.entriesAt s' k =
      if s' = s ∧ k = key then (w.entriesAt s' k).map f else w.entriesAt s' k := by
  unfold entriesAt
  rw [accounts_editAccount]
  split
  · rename_i hs
    subst hs
    rw [Shelf.entriesAt_edit]
    split
    · rename_i hkey
      rw [if_pos ⟨rfl, hkey⟩]
    · rename_i hkey
      rw [if_neg fun h => hkey h.2]
  · rename_i hs
    rw [if_neg fun h => hs h.1]

/-- What an edit does to the merged view. -/
theorem merged_editAccount (s' : AccountSection) :
    (w.editAccount s key f).1.merged.inSection s' =
      if s' = s then (w.merged.inSection s').modify key f else w.merged.inSection s' := by
  rw [inSection_merged, inSection_merged, accounts_editAccount]
  split
  · rename_i hs
    subst hs
    exact Shelf.merged_edit
  · rfl

/-- A patch leaves the units alone. -/
theorem ous_updateAccount {p : AccountPatch} : (w.updateAccount key p).1.ous = w.ous := by
  refine foldl_keeps (fun r : Workspace × Bool => r.1.ous = w.ous) (fun r s hr => ?_) _ _ rfl
  exact ous_editAccount.trans hr

/-- What a patch does to the entries of the files. -/
theorem entriesAt_updateAccount (p : AccountPatch) (k : String) :
    (w.updateAccount key p).1.entriesAt s k =
      if k = key then (w.entriesAt s k).map p.apply else w.entriesAt s k := by
  change (((w.editAccount .mandatory key p.apply).1.editAccount .workload key p.apply).1).entriesAt
    s k = _
  rw [entriesAt_editAccount, entriesAt_editAccount]
  cases s <;> simp

/-- What a patch does to the merged view. -/
theorem merged_updateAccount (p : AccountPatch) :
    (w.updateAccount key p).1.merged.inSection s = (w.merged.inSection s).modify key p.apply := by
  change (((w.editAccount .mandatory key p.apply).1.editAccount .workload key
    p.apply).1).merged.inSection s = _
  rw [merged_editAccount, merged_editAccount]
  cases s <;> simp

/-- An edit that makes no difference leaves everything as it was. -/
theorem editAccount_eq_self (h : ∀ a ∈ w.entriesAt s key, f a = a) :
    w.editAccount s key f = (w, false) := by
  unfold editAccount
  rw [Shelf.edit_eq_self h]
  cases s <;> simp [withAccounts, accounts]

/-- An edit that is not noticed makes no difference. -/
theorem editAccount_of_unchanged (h : (w.editAccount s key f).2 = false) :
    ∀ a ∈ w.entriesAt s key, f a = a := by
  intro a ha
  by_contra hne
  have hchanged : (w.editAccount s key f).2 = true := Shelf.changed_edit.2 ⟨a, ha, hne⟩
  rw [h] at hchanged
  cases hchanged

/-- A patch that every entry satisfies already is not noticed. -/
theorem updateAccount_eq_self {p : AccountPatch} (h : ∀ s, ∀ a ∈ w.entriesAt s key, p.apply a = a) :
    w.updateAccount key p = (w, false) := by
  unfold updateAccount AccountSection.all
  simp [editAccount_eq_self (h _)]

/-- A patch counts as a change iff it makes a difference to some entry. -/
theorem updateAccount_changed {p : AccountPatch} : (w.updateAccount key p).2 = true ↔
    ∃ s, ∃ a ∈ w.entriesAt s key, p.apply a ≠ a := by
  have hdone : (w.updateAccount key p).2 =
      ((w.editAccount .mandatory key p.apply).2 ||
        ((w.editAccount .mandatory key p.apply).1.editAccount .workload key p.apply).2) := rfl
  have hworkload : (w.editAccount .mandatory key p.apply).1.entriesAt .workload key =
      w.entriesAt .workload key := by
    rw [entriesAt_editAccount, if_neg fun h => nomatch h.1]
  have hedit : ∀ (w : Workspace) s, (w.editAccount s key p.apply).2 = true ↔
      ∃ a ∈ w.entriesAt s key, p.apply a ≠ a := fun w s => Shelf.changed_edit
  rw [hdone, Bool.or_eq_true, hedit, hedit, hworkload]
  constructor
  · rintro (h | h)
    · exact ⟨.mandatory, h⟩
    · exact ⟨.workload, h⟩
  · rintro ⟨s, h⟩
    cases s with
    | mandatory => exact .inl h
    | workload => exact .inr h

/-! ### Loading -/

/-- Files are loaded iff each of them is there and can be read; none of them counts as edited. -/
theorem loadFiles_eq_ok {β : Type} [Readable (KeyedMap β)] {fetch : Fetch} {paths : List String}
    {files : List (SplitFile β × String)} : loadFiles fetch paths = .ok files ↔
      List.Forall₂ (fun path file => fetch path = .ok file.2 ∧
        ∃ entries, parse path file.2 = .ok entries ∧ file.1 = ⟨path, entries, false⟩)
        paths files := by
  unfold loadFiles
  rw [mapM_eq_ok]
  have hstep : ∀ (path : String) (file : SplitFile β × String),
      (do
        let text ← fetch path
        let entries ← parse path text
        pure (⟨path, entries, false⟩, text)) = Except.ok (ε := Error) file ↔
      fetch path = .ok file.2 ∧
        ∃ entries, parse path file.2 = .ok entries ∧ file.1 = ⟨path, entries, false⟩ := by
    intro path file
    constructor
    · intro h
      obtain ⟨text, htext, h⟩ := bind_eq_ok.1 h
      obtain ⟨entries, hentries, h⟩ := bind_eq_ok.1 h
      cases h
      exact ⟨htext, entries, hentries, rfl⟩
    · rintro ⟨htext, entries, hentries, hsame⟩
      refine bind_eq_ok.2 ⟨file.2, htext, bind_eq_ok.2 ⟨entries, hentries, ?_⟩⟩
      exact congrArg Except.ok (Prod.ext hsame.symm rfl)
  constructor
  · exact List.Forall₂.imp fun path file => (hstep path file).1
  · exact List.Forall₂.imp fun path file => (hstep path file).2

/-- The root file is loaded and then the files of every section, iff all of them can be read. -/
theorem load_eq_ok {fetch : Fetch} {rootPath : String} {w : Workspace} :
    load fetch rootPath = .ok w ↔ ∃ (text : String) (root : RootFile) (ous mandatory workload : _),
      fetch rootPath = .ok text ∧ parse rootPath text = .ok root ∧
      loadFiles fetch root.ous.files = .ok ous ∧
      loadFiles fetch root.mandatory.files = .ok mandatory ∧
      loadFiles fetch root.workload.files = .ok workload ∧
      w = { rootPath, options := root.options
            ous := ⟨root.ous, ous.map Prod.fst⟩
            mandatory := ⟨root.mandatory, mandatory.map Prod.fst⟩
            workload := ⟨root.workload, workload.map Prod.fst⟩
            extra := root.extra, rootDirty := false, deleted := []
            loadedTexts := (rootPath, text) :: textsOf ous ++ textsOf mandatory ++
              textsOf workload } := by
  unfold load
  constructor
  · intro h
    obtain ⟨text, htext, h⟩ := bind_eq_ok.1 h
    obtain ⟨root, hroot, h⟩ := bind_eq_ok.1 h
    obtain ⟨ous, hous, h⟩ := bind_eq_ok.1 h
    obtain ⟨mandatory, hmandatory, h⟩ := bind_eq_ok.1 h
    obtain ⟨workload, hworkload, h⟩ := bind_eq_ok.1 h
    cases h
    exact ⟨text, root, ous, mandatory, workload, htext, hroot, hous, hmandatory, hworkload, rfl⟩
  · rintro ⟨text, root, ous, mandatory, workload, htext, hroot, hous, hmandatory, hworkload, rfl⟩
    exact bind_eq_ok.2 ⟨text, htext, bind_eq_ok.2 ⟨root, hroot, bind_eq_ok.2 ⟨ous, hous,
      bind_eq_ok.2 ⟨mandatory, hmandatory, bind_eq_ok.2 ⟨workload, hworkload, rfl⟩⟩⟩⟩⟩

/-- No file counts as edited when it is loaded. -/
theorem not_dirty_of_loadFiles {β : Type} [Readable (KeyedMap β)] {fetch : Fetch}
    {paths : List String} {files : List (SplitFile β × String)}
    (h : loadFiles fetch paths = .ok files) :
    ∀ file ∈ files.map Prod.fst, file.dirty = false := by
  intro file hfile
  obtain ⟨loaded, hloaded, rfl⟩ := List.mem_map.1 hfile
  obtain ⟨path, -, -, entries, -, hsame⟩ := forall₂_exists_left (loadFiles_eq_ok.1 h) hloaded
  rw [hsame]

/-- There is nothing to write after loading. -/
theorem changes_of_load {fetch : Fetch} {rootPath : String} {w : Workspace}
    (h : load fetch rootPath = .ok w) : w.changes = .ok [] := by
  obtain ⟨text, root, ous, mandatory, workload, -, -, hous, hmandatory, hworkload, rfl⟩ :=
    load_eq_ok.1 h
  have hclean : ∀ {β : Type} [Readable (KeyedMap β)] {paths : List String}
      {files : List (SplitFile β × String)}, loadFiles fetch paths = .ok files →
      (files.map Prod.fst).filter SplitFile.dirty = [] := by
    intro β _ paths files hfiles
    refine List.filter_eq_nil_iff.2 fun file hfile => ?_
    rw [not_dirty_of_loadFiles hfiles file hfile]
    exact Bool.false_ne_true
  unfold changes putFiles
  simp only [hclean hous, hclean hmandatory, hclean hworkload]
  rfl

/-! ### Renaming a unit -/

section

variable {old new : String} {r : Workspace × Bool}

/-- What renaming the units' keys makes of a workspace, unless there is a conflict: it finds no key,
or renames the keys in the root file, or those in the files that the section lists. -/
theorem renameOuKeys_eq_ok (h : w.renameOuKeys old new = .ok r) :
    conflict? w.ous.keys (renamings w.ous.keys old new) = none ∧
      (renamings w.ous.keys old new = [] ∧ r = (w, false) ∨
      (∃ entries, w.ous.part = .inline entries ∧
        r = ({ w with
          ous := { w.ous with
            part := .inline (renameKeys entries (renamings w.ous.keys old new).reverse) }
          rootDirty := true }, true)) ∨
      ∃ listed moved, w.ous.part = .load listed ∧
        moved = renameFiles (renamings w.ous.keys old new).reverse w.ous.files
          ⟨listed, w.deleted, w.rootDirty⟩ ∧
        r = ({ w with
          ous := ⟨.load moved.2.listed, moved.1⟩
          deleted := moved.2.deleted
          rootDirty := moved.2.rootDirty }, true)) := by
  simp only [renameOuKeys] at h
  split at h
  · cases h
  rename_i hconflict
  refine ⟨hconflict, ?_⟩
  split at h
  · rename_i hnone
    cases h
    exact .inl ⟨hnone, rfl⟩
  split at h
  · rename_i entries hpart
    cases h
    exact .inr (.inl ⟨entries, hpart, rfl⟩)
  · rename_i listed hpart
    cases h
    exact .inr (.inr ⟨listed, _, hpart, rfl, rfl⟩)

/-- Renaming the units' keys is refused for a conflict only. -/
theorem renameOuKeys_eq_error {e : Error} (h : w.renameOuKeys old new = .error e) :
    ∃ k t, e = .renameConflict ouSectionKey k t := by
  simp only [renameOuKeys] at h
  split at h
  · rename_i r _
    cases h
    exact ⟨r.1, r.2, rfl⟩
  split at h
  · cases h
  split at h
  · cases h
  · cases h

/-- To rename a unit is to rename the units' keys and then to point the accounts of each section to
their new paths. -/
theorem renameOu_eq_ok (hne : old ≠ new) (h : w.renameOu old new = .ok r) :
    ∃ w₁ changed, w.renameOuKeys old new = .ok (w₁, changed) ∧
      r.1 = ((w₁.repointAccounts .mandatory old new).1.repointAccounts .workload old new).1 ∧
      r.2 = ((changed || (w₁.repointAccounts .mandatory old new).2) ||
        ((w₁.repointAccounts .mandatory old new).1.repointAccounts .workload old new).2) := by
  unfold renameOu at h
  rw [if_neg hne] at h
  cases hkeys : w.renameOuKeys old new with
  | error e =>
    rw [hkeys] at h
    cases h
  | ok renamed =>
    rw [hkeys] at h
    cases h
    exact ⟨renamed.1, renamed.2, rfl, rfl, rfl⟩

/-- Renaming a unit to itself changes nothing. -/
theorem renameOu_same (h : old = new) : w.renameOu old new = .ok (w, false) := by
  unfold renameOu
  rw [if_pos h]

/-- Renaming a unit is refused for a conflict among the units' keys only. -/
theorem renameOu_eq_error {e : Error} (h : w.renameOu old new = .error e) :
    ∃ k t, e = .renameConflict ouSectionKey k t := by
  unfold renameOu at h
  split at h
  · cases h
  · cases hkeys : w.renameOuKeys old new with
    | ok r =>
      rw [hkeys] at h
      cases h
    | error e' =>
      rw [hkeys] at h
      cases h
      exact renameOuKeys_eq_error hkeys

end

/-! ### What amendments keep -/

section

variable (Inv : Workspace → Prop)

/-- What every edit of an account keeps, a patch keeps. -/
theorem updateAccount_keeps {p : AccountPatch}
    (hedit : ∀ w s, Inv w → Inv (w.editAccount s key p.apply).1) (hw : Inv w) :
    Inv (w.updateAccount key p).1 := by
  refine foldl_keeps (fun r : Workspace × Bool => Inv r.1) (fun r s hr => ?_) _ (w, false) hw
  exact hedit r.1 s hr

variable {old new : String}

/-- What every change to the units keeps, renaming the units' keys keeps. -/
theorem renameOuKeys_keeps (hous : ∀ w ous deleted rootDirty, Inv w →
      Inv { w with ous, deleted, rootDirty }) (hw : Inv w) {r : Workspace × Bool}
    (h : w.renameOuKeys old new = .ok r) : Inv r.1 := by
  obtain ⟨-, ⟨-, rfl⟩ | ⟨entries, -, rfl⟩ | ⟨listed, moved, -, -, rfl⟩⟩ := renameOuKeys_eq_ok h
  · exact hw
  · exact hous w _ w.deleted true hw
  · exact hous w _ _ _ hw

/-- What renaming the units' keys gives and every edit of an account keeps, a renamed unit gives. -/
theorem renameOu_gives (hsame : old = new → Inv w)
    (hkeys : old ≠ new → ∀ r, w.renameOuKeys old new = .ok r → Inv r.1)
    (hedit : ∀ w s key, Inv w → Inv (w.editAccount s key (repoint old new)).1)
    {r : Workspace × Bool} (h : w.renameOu old new = .ok r) : Inv r.1 := by
  have hsection : ∀ w s, Inv w → Inv (w.repointAccounts s old new).1 := by
    intro w s hw
    refine foldl_keeps (fun r : Workspace × Bool => Inv r.1) (fun r key hr => ?_) _ (w, false) hw
    exact hedit r.1 s key hr
  by_cases hnames : old = new
  · rw [renameOu_same hnames] at h
    cases h
    exact hsame hnames
  · obtain ⟨w₁, changed, hrenamed, hr, -⟩ := renameOu_eq_ok hnames h
    rw [hr]
    exact hsection _ _ (hsection _ _ (hkeys hnames _ hrenamed))

/-- What every edit of an account and every change to the units keep, renaming a unit keeps. -/
theorem renameOu_keeps (hous : ∀ w ous deleted rootDirty, Inv w →
      Inv { w with ous, deleted, rootDirty })
    (hedit : ∀ w s key, Inv w → Inv (w.editAccount s key (repoint old new)).1) (hw : Inv w)
    {r : Workspace × Bool} (h : w.renameOu old new = .ok r) : Inv r.1 :=
  renameOu_gives Inv (fun _ => hw) (fun _ _ hr => renameOuKeys_keeps Inv hous hw hr) hedit h

end

end Workspace
end OrgAlign.Config
