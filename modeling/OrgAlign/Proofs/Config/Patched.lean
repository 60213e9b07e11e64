import OrgAlign.Proofs.Config.Reload

/-!
# What a patch edits

A patch reaches an account wherever its key is declared: in the root file, where a section is given
there, and in every file that a section lists. It is written to those files in which it makes a
difference. Main statements:

* `AccountPatch.applied`, `AccountPatch.apply_apply`: what a patch makes of an entry, and that it
  does so only once;
* `Workspace.dirty_updateAccount`: which files a patch edits;
* `Workspace.updateAccount_exact`: what a patch of a configuration just loaded changes, and what is
  written for it.
-/

namespace OrgAlign.Config

/-! ### Entries -/

/-- What a patch should make of an entry. -/
structure AccountPatch.Applied (p : AccountPatch) (a a' : AccountEntry) : Prop where
  /-- The name is the new one, if one is given. -/
  name : a'.name = p.name.getD a.name
  /-- So is the address. -/
  email : a'.email = p.email.getD a.email
  /-- So is the top-level unit. -/
  ou : a'.ou = p.ou.getD a.ou
  /-- So is the full path, which an entry may not have. -/
  ouPath : a'.ouPath = p.ouPath.or a.ouPath
  /-- So is the mark of entries that stay for the record only. -/
  deleted : a'.deleted = p.deleted.getD a.deleted
  /-- Everything else that an entry says stays. -/
  rest : { a' with
    name := a.name, email := a.email, ou := a.ou, ouPath := a.ouPath, deleted := a.deleted } = a

/-- What a patch of the entry under a key should make of a map. -/
structure AccountPatch.AppliedUnder (p : AccountPatch) (key : String)
    (m m' : KeyedMap AccountEntry) : Prop where
  /-- The keys stay, in their order. -/
  keys : m'.keys = m.keys
  /-- The entries under other keys stay. -/
  others : ∀ k, k ≠ key → m'.get? k = m.get? k
  /-- The entry under the key is patched. -/
  entry : ∀ a, m.get? key = some a → ∃ a', m'.get? key = some a' ∧ p.Applied a a'

namespace AccountPatch

variable (p : AccountPatch) (a : AccountEntry)

theorem ouPath_apply : (p.apply a).ouPath = p.ouPath.or a.ouPath := by
  unfold apply
  cases p.ouPath <;> rfl

/-- A patch makes of an entry what it should. -/
theorem applied : p.Applied a (p.apply a) := ⟨rfl, rfl, rfl, p.ouPath_apply a, rfl, rfl⟩

/-- A change of the entry under a key by a patch makes of a map what it should. -/
theorem appliedUnder (key : String) (m : KeyedMap AccountEntry) :
    p.AppliedUnder key m (m.modify key p.apply) where
  keys := KeyedMap.keys_modify m key p.apply
  others k hk := by rw [KeyedMap.get?_modify, if_neg hk]
  entry a ha := ⟨p.apply a, by rw [KeyedMap.get?_modify, if_pos rfl, ha]; rfl, p.applied a⟩

/-- A patch makes no difference the second time. -/
theorem apply_apply : p.apply (p.apply a) = p.apply a := by
  have hgiven : ∀ {β : Type} (given : Option β) (b : β),
      given.getD (given.getD b) = given.getD b := by
    intro β given b
    cases given <;> rfl
  have hpath : p.ouPath.or (p.ouPath.or a.ouPath) = p.ouPath.or a.ouPath := by
    cases p.ouPath <;> rfl
  rw [← p.ouPath_apply a, ← p.ouPath_apply (p.apply a)] at hpath
  change AccountEntry.mk .. = AccountEntry.mk ..
  rw [AccountEntry.mk.injEq]
  exact ⟨hgiven _ _, hgiven _ _, hgiven _ _, hpath, rfl, hgiven _ _, rfl, rfl⟩

end AccountPatch

/-! ### Sections -/

namespace Shelf

variable {α : Type} {s : Shelf α} {rootPath key path : String}

theorem mem_declaring :
    path ∈ s.declaring rootPath key ↔ ∃ m, (path, m) ∈ s.places rootPath ∧ key ∈ m.keys := by
  obtain ⟨part, files⟩ := s
  cases part with
  | inline entries =>
    change path ∈ (if entries.contains key then [rootPath] else []) ↔
      ∃ m, (path, m) ∈ [(rootPath, entries)] ∧ key ∈ m.keys
    by_cases hkey : key ∈ entries.keys
    · rw [if_pos ((KeyedMap.contains_iff _ _).2 hkey)]
      simp [hkey]
    · rw [if_neg (mt (KeyedMap.contains_iff _ _).1 hkey)]
      simp [hkey]
  | load listed =>
    change path ∈ (files.filter fun file => file.entries.contains key).map SplitFile.path ↔
      ∃ m, (path, m) ∈ files.map (fun file => (file.path, file.entries)) ∧ key ∈ m.keys
    simp only [List.mem_map, List.mem_filter, KeyedMap.contains_iff, Prod.mk.injEq]
    constructor
    · rintro ⟨file, ⟨hfile, hkey⟩, hpath⟩
      exact ⟨file.entries, ⟨file, hfile, hpath, rfl⟩, hkey⟩
    · rintro ⟨m, ⟨file, hfile, hpath, rfl⟩, hkey⟩
      exact ⟨file, ⟨hfile, hkey⟩, hpath⟩

variable [DecidableEq α] {f : α → α}

/-- An edit touches the root file iff the section is given there and the edit makes a difference. -/
theorem root_edit :
    (s.edit key f).root = true ↔ ∃ m, s.part = .inline m ∧ differs m key f = true := by
  obtain ⟨part, files⟩ := s
  cases part with
  | inline entries =>
    change differs entries key f = true ↔ _
    simp
  | load listed =>
    change false = true ↔ _
    simp

/-- The files of a section after an edit. -/
theorem exists_of_mem_files_edit (hlisted : s.Listed) {file : SplitFile α}
    (hfile : file ∈ (s.edit key f).shelf.files) :
    (∃ listed, s.part = .load listed) ∧ ∃ before ∈ s.files, file = before.edit key f := by
  obtain ⟨part, files⟩ := s
  cases part with
  | inline entries =>
    have hnone : files = [] := List.map_eq_nil_iff.1 hlisted
    rw [hnone] at hfile
    exact absurd hfile List.not_mem_nil
  | load listed =>
    obtain ⟨before, hbefore, rfl⟩ := List.mem_map.1 hfile
    exact ⟨⟨listed, rfl⟩, before, hbefore, rfl⟩

end Shelf

/-! ### The workspace -/

theorem AccountSection.mem_all (s : AccountSection) : s ∈ AccountSection.all := by
  cases s <;> simp [all]

namespace Workspace

variable {w : Workspace} {s s' : AccountSection} {key path : String} {p : AccountPatch}
  {m : KeyedMap AccountEntry}

/-- The maps of a section of accounts, each with the path of its file. -/
def places (w : Workspace) (s : AccountSection) : List (String × KeyedMap AccountEntry) :=
  (w.accounts s).places w.rootPath

/-- The entries under a key in the file at a path. -/
def entriesIn (w : Workspace) (path key : String) : List AccountEntry :=
  AccountSection.all.flatMap fun s =>
    (w.places s).filterMap fun place => if place.1 = path then place.2.get? key else none

theorem mem_entriesIn {a : AccountEntry} : a ∈ w.entriesIn path key ↔
    ∃ s m, (path, m) ∈ w.places s ∧ m.get? key = some a := by
  unfold entriesIn
  simp only [List.mem_flatMap, List.mem_filterMap]
  constructor
  · rintro ⟨s, -, ⟨place, m⟩, hplace, ha⟩
    split at ha
    · rename_i hpath
      obtain rfl : place = path := hpath
      exact ⟨s, m, hplace, ha⟩
    · cases ha
  · rintro ⟨s, m, hplace, ha⟩
    exact ⟨s, AccountSection.mem_all s, (path, m), hplace, by rw [if_pos rfl, ha]⟩

theorem mem_filesDeclaring : path ∈ w.filesDeclaring key ↔
    ∃ s m, (path, m) ∈ w.places s ∧ key ∈ m.keys := by
  unfold filesDeclaring
  simp only [List.mem_flatMap, Shelf.mem_declaring]
  exact ⟨fun ⟨s, _, h⟩ => ⟨s, h⟩, fun ⟨s, h⟩ => ⟨s, AccountSection.mem_all s, h⟩⟩

theorem mem_entriesAt {a : AccountEntry} : a ∈ w.entriesAt s key ↔
    ∃ path m, (path, m) ∈ w.places s ∧ m.get? key = some a := by
  unfold entriesAt places
  rw [Shelf.entriesAt_eq_places w.rootPath, List.mem_filterMap, Prod.exists]

/-- A map of accounts is in a file of the workspace. -/
theorem mem_paths_of_place (h : (path, m) ∈ w.places s) : path ∈ w.paths := by
  unfold places Shelf.places at h
  split at h
  · cases List.mem_singleton.1 h
    exact List.mem_cons_self
  · obtain ⟨file, hfile, heq⟩ := List.mem_map.1 h
    cases heq
    exact List.mem_map_of_mem (mem_sheets_accounts hfile)

/-- A file with an entry under a key declares it. -/
theorem mem_filesDeclaring_of_entry {a : AccountEntry} (h : a ∈ w.entriesIn path key) :
    path ∈ w.filesDeclaring key := by
  obtain ⟨s, m, hplace, ha⟩ := mem_entriesIn.1 h
  exact mem_filesDeclaring.2 ⟨s, m, hplace, KeyedMap.mem_keys_of_get? ha⟩

/-- A change makes a difference to an entry of a file iff it makes one to a map there. -/
theorem exists_entry_ne_iff {f : AccountEntry → AccountEntry} :
    (∃ a ∈ w.entriesIn path key, f a ≠ a) ↔
      ∃ s m, (path, m) ∈ w.places s ∧ differs m key f = true := by
  simp only [mem_entriesIn, differs_eq_true_iff]
  constructor
  · rintro ⟨a, ⟨s, m, hplace, ha⟩, hne⟩
    exact ⟨s, m, hplace, a, ha, hne⟩
  · rintro ⟨s, m, hplace, a, ha, hne⟩
    exact ⟨a, ⟨s, m, hplace, ha⟩, hne⟩

/-! ### Files that are told apart by their paths -/

section

variable (honce : w.paths.Nodup)

include honce

/-- The root file is apart from the files of accounts. -/
theorem path_ne_rootPath {file : SplitFile AccountEntry} (hfile : file ∈ (w.accounts s).files) :
    file.path ≠ w.rootPath := by
  have hroot := (List.nodup_cons.1 (paths_eq w ▸ honce)).1
  intro heq
  have hpath : w.rootPath ∈ (w.accounts s).files.map SplitFile.path :=
    List.mem_map.2 ⟨file, hfile, heq⟩
  apply hroot
  cases s with
  | mandatory => exact List.mem_append_left _ (List.mem_append_right _ hpath)
  | workload => exact List.mem_append_right _ hpath

/-- So are the files of units. -/
theorem path_ne_ou {file : SplitFile AccountEntry} (hfile : file ∈ (w.accounts s).files)
    {ou : SplitFile OuEntry} (hou : ou ∈ w.ous.files) : ou.path ≠ file.path := by
  have hrest := (List.nodup_cons.1 (paths_eq w ▸ honce)).2
  rw [List.append_assoc] at hrest
  have hapart := (List.nodup_append.1 hrest).2.2
  refine hapart _ (List.mem_map_of_mem hou) _ ?_
  cases s with
  | mandatory => exact List.mem_append_left _ (List.mem_map_of_mem hfile)
  | workload => exact List.mem_append_right _ (List.mem_map_of_mem hfile)

/-- The root file is not a file of units, either. -/
theorem ou_ne_rootPath {ou : SplitFile OuEntry} (hou : ou ∈ w.ous.files) :
    ou.path ≠ w.rootPath := by
  have hroot := (List.nodup_cons.1 (paths_eq w ▸ honce)).1
  intro heq
  exact hroot (List.mem_append_left _ (List.mem_append_left _ (List.mem_map.2 ⟨ou, hou, heq⟩)))

/-- A path leads to one file of accounts. -/
theorem eq_of_path_eq {file file' : SplitFile AccountEntry} (hfile : file ∈ (w.accounts s).files)
    (hfile' : file' ∈ (w.accounts s').files) (h : file'.path = file.path) :
    s' = s ∧ file' = file := by
  have hrest := (List.nodup_cons.1 (paths_eq w ▸ honce)).2
  obtain ⟨hleft, hworkload, hapart⟩ := List.nodup_append.1 hrest
  have hmandatory := (List.nodup_append.1 hleft).2.1
  cases s <;> cases s'
  case mandatory.mandatory =>
    exact ⟨rfl, List.inj_on_of_nodup_map hmandatory hfile' hfile h⟩
  case workload.workload =>
    exact ⟨rfl, List.inj_on_of_nodup_map hworkload hfile' hfile h⟩
  case mandatory.workload =>
    exact absurd h.symm (hapart _ (List.mem_append_right _ (List.mem_map_of_mem hfile)) _
      (List.mem_map_of_mem hfile'))
  case workload.mandatory =>
    exact absurd h (hapart _ (List.mem_append_right _ (List.mem_map_of_mem hfile')) _
      (List.mem_map_of_mem hfile))

/-- What the root file holds of the accounts. -/
theorem mem_places_root : (w.rootPath, m) ∈ w.places s ↔ (w.accounts s).part = .inline m := by
  unfold places Shelf.places
  split
  · rename_i entries hpart
    rw [hpart]
    simp [eq_comm]
  · rename_i listed hpart
    rw [hpart, List.mem_map]
    constructor
    · rintro ⟨file, hfile, heq⟩
      exact absurd (congrArg Prod.fst heq) (path_ne_rootPath honce hfile)
    · intro h
      cases h

/-- What a file of accounts holds. -/
theorem mem_places_file {file : SplitFile AccountEntry} (hfile : file ∈ (w.accounts s).files)
    {listed : List String} (hpart : (w.accounts s).part = .load listed) :
    (file.path, m) ∈ w.places s' ↔ s' = s ∧ m = file.entries := by
  unfold places Shelf.places
  constructor
  · intro h
    split at h
    · exact absurd (congrArg Prod.fst (List.mem_singleton.1 h)) (path_ne_rootPath honce hfile)
    · obtain ⟨file', hfile', heq⟩ := List.mem_map.1 h
      obtain ⟨hs, rfl⟩ := eq_of_path_eq honce hfile hfile' (congrArg Prod.fst heq)
      exact ⟨hs, (congrArg Prod.snd heq).symm⟩
  · rintro ⟨rfl, rfl⟩
    rw [hpart]
    exact List.mem_map_of_mem hfile

/-- A file of units holds no accounts. -/
theorem not_mem_places_ou {ou : SplitFile OuEntry} (hou : ou ∈ w.ous.files) :
    (ou.path, m) ∉ w.places s := by
  unfold places Shelf.places
  split
  · intro h
    exact ou_ne_rootPath honce hou (congrArg Prod.fst (List.mem_singleton.1 h))
  · intro h
    obtain ⟨file, hfile, heq⟩ := List.mem_map.1 h
    exact path_ne_ou honce hfile hou (congrArg Prod.fst heq).symm

end

/-! ### Patches -/

theorem accounts_updateAccount :
    (w.updateAccount key p).1.accounts s = ((w.accounts s).edit key p.apply).shelf := by
  cases s <;> rfl

theorem rootPath_updateAccount : (w.updateAccount key p).1.rootPath = w.rootPath :=
  updateAccount_keeps (fun v => v.rootPath = w.rootPath)
    (fun v s hv => by rw [← hv]; cases s <;> rfl) rfl

theorem paths_updateAccount : (w.updateAccount key p).1.paths = w.paths :=
  updateAccount_keeps (fun v => v.paths = w.paths) (fun _ _ hv => paths_editAccount.trans hv) rfl

/-- A patch removes no file. -/
theorem deleted_updateAccount : (w.updateAccount key p).1.deleted = w.deleted :=
  updateAccount_keeps (fun v => v.deleted = w.deleted)
    (fun v s hv => by rw [← hv]; cases s <;> rfl) rfl

theorem rootDirty_updateAccount : (w.updateAccount key p).1.rootDirty = true ↔
    w.rootDirty = true ∨ ∃ s, ((w.accounts s).edit key p.apply).root = true := by
  have hdirty : (w.updateAccount key p).1.rootDirty =
      (w.rootDirty || (w.mandatory.edit key p.apply).root ||
        (w.workload.edit key p.apply).root) := rfl
  rw [hdirty, Bool.or_eq_true, Bool.or_eq_true, or_assoc]
  refine or_congr_right ⟨?_, ?_⟩
  · rintro (h | h)
    · exact ⟨.mandatory, h⟩
    · exact ⟨.workload, h⟩
  · rintro ⟨s, h⟩
    cases s with
    | mandatory => exact .inl h
    | workload => exact .inr h

/-- A patch is made file by file. -/
theorem places_updateAccount : (w.updateAccount key p).1.places s =
    (w.places s).map fun place => (place.1, place.2.modify key p.apply) := by
  unfold places
  rw [accounts_updateAccount, rootPath_updateAccount, Shelf.places_edit]

/-- What a patch does to the merged view. -/
theorem merged_updateAccount_eq : (w.updateAccount key p).1.merged =
    { w.merged with
      mandatory := w.merged.mandatory.modify key p.apply
      workload := w.merged.workload.modify key p.apply } := by
  have hsection : ∀ s, (w.updateAccount key p).1.merged.inSection s =
      (w.merged.inSection s).modify key p.apply := fun s => merged_updateAccount p
  have hous : (w.updateAccount key p).1.merged.ous = w.merged.ous := by
    unfold merged
    rw [ous_updateAccount]
  change _ = Configuration.mk w.merged.options w.merged.ous
    ((w.merged.inSection .mandatory).modify key p.apply)
    ((w.merged.inSection .workload).modify key p.apply)
  rw [← hsection .mandatory, ← hsection .workload, ← hous]
  rfl

/-- A patch makes no difference the second time. -/
theorem updateAccount_again :
    (w.updateAccount key p).1.updateAccount key p = ((w.updateAccount key p).1, false) := by
  refine updateAccount_eq_self fun s a ha => ?_
  rw [entriesAt_updateAccount, if_pos rfl] at ha
  obtain ⟨before, -, rfl⟩ := List.mem_map.1 ha
  exact p.apply_apply before

/-- **The files that a patch edits** are those with an entry to which it makes a difference. -/
theorem dirty_updateAccount (hkept : Kept w w) (hclean : ∀ sheet ∈ w.sheets, sheet.dirty = false)
    {sheet : Sheet} (hsheet : sheet ∈ (w.updateAccount key p).1.sheets) :
    sheet.dirty = true ↔ ∃ a ∈ w.entriesIn sheet.path key, p.apply a ≠ a := by
  rw [exists_entry_ne_iff]
  rcases mem_sheets.1 hsheet with rfl | ⟨ou, hou, rfl⟩ | ⟨s, file, hfile, rfl⟩
  · have hroot : w.rootDirty = false := hclean w.rootSheet List.mem_cons_self
    change (w.updateAccount key p).1.rootDirty = true ↔
      ∃ s m, ((w.updateAccount key p).1.rootPath, m) ∈ w.places s ∧ differs m key p.apply = true
    rw [rootDirty_updateAccount, rootPath_updateAccount, hroot]
    simp only [mem_places_root hkept.distinct, Shelf.root_edit, Bool.false_eq_true, false_or]
  · rw [ous_updateAccount] at hou
    have hdirty := hclean _ (mem_sheets.2 (.inr (.inl ⟨ou, hou, rfl⟩)))
    constructor
    · intro h
      rw [hdirty] at h
      cases h
    · rintro ⟨s, m, hplace, -⟩
      exact absurd hplace (not_mem_places_ou hkept.distinct hou)
  · rw [accounts_updateAccount] at hfile
    obtain ⟨⟨listed, hpart⟩, before, hbefore, rfl⟩ :=
      Shelf.exists_of_mem_files_edit (hkept.accounts s) hfile
    have hdirty : before.dirty = false := hclean _ (mem_sheets_accounts hbefore)
    change (before.dirty || differs before.entries key p.apply) = true ↔
      ∃ s' m, (before.path, m) ∈ w.places s' ∧ differs m key p.apply = true
    rw [hdirty, Bool.false_or]
    constructor
    · intro h
      exact ⟨s, before.entries, (mem_places_file hkept.distinct hbefore hpart).2 ⟨rfl, rfl⟩, h⟩
    · rintro ⟨s', m, hplace, h⟩
      obtain ⟨-, rfl⟩ := (mem_places_file hkept.distinct hbefore hpart).1 hplace
      exact h

/-- No file counts as edited after loading, and none is to be removed. -/
theorem clean_of_load {fetch : Fetch} {rootPath : String} (h : load fetch rootPath = .ok w) :
    w.deleted = [] ∧ ∀ sheet ∈ w.sheets, sheet.dirty = false := by
  obtain ⟨text, root, ous, mandatory, workload, -, -, hous, hmandatory, hworkload, rfl⟩ :=
    load_eq_ok.1 h
  refine ⟨rfl, fun sheet hsheet => ?_⟩
  rcases mem_sheets.1 hsheet with rfl | ⟨ou, hou, rfl⟩ | ⟨s, file, hfile, rfl⟩
  · rfl
  · exact not_dirty_of_loadFiles hous ou hou
  · cases s with
    | mandatory => exact not_dirty_of_loadFiles hmandatory file hfile
    | workload => exact not_dirty_of_loadFiles hworkload file hfile

/-- **The files that a patch writes** are those that declare the account and have an entry to which
the patch makes a difference. -/
theorem paths_of_written {fetch : Fetch} {rootPath : String} {puts : List FileChange}
    (hload : load fetch rootPath = .ok w) (honce : w.paths.Nodup)
    (hputs : List.Forall₂ (w.updateAccount key p).1.Writes
      ((w.updateAccount key p).1.sheets.filter Sheet.dirty) puts) :
    puts.map FileChange.path = w.paths.filter (fun path =>
      path ∈ w.filesDeclaring key ∧ ∃ a ∈ w.entriesIn path key, p.apply a ≠ a) := by
  have hwritten : puts.map FileChange.path =
      ((w.updateAccount key p).1.sheets.filter Sheet.dirty).map Sheet.path := by
    rw [← List.forall₂_eq_eq_eq, List.forall₂_map_left_iff, List.forall₂_map_right_iff]
    refine hputs.flip.imp ?_
    rintro c sheet ⟨content, -, rfl⟩
    rfl
  rw [hwritten, ← paths_updateAccount (w := w)]
  unfold paths
  rw [List.filter_map]
  congr 1
  refine List.filter_congr fun sheet hsheet => ?_
  rw [Bool.eq_iff_iff,
    dirty_updateAccount (Kept.of_load hload honce) (clean_of_load hload).2 hsheet,
    Function.comp_apply, decide_eq_true_iff]
  exact ⟨fun ⟨a, ha, hne⟩ => ⟨mem_filesDeclaring_of_entry ha, a, ha, hne⟩, And.right⟩

/-- A patch makes a difference to an entry iff it does so in a file that declares the account. -/
theorem exists_entryAt_ne_iff : (∃ s, ∃ a ∈ w.entriesAt s key, p.apply a ≠ a) ↔
    ∃ path ∈ w.paths, path ∈ w.filesDeclaring key ∧ ∃ a ∈ w.entriesIn path key, p.apply a ≠ a := by
  simp only [mem_entriesAt]
  constructor
  · rintro ⟨s, a, ⟨path, m, hplace, ha⟩, hne⟩
    have hentry : a ∈ w.entriesIn path key := mem_entriesIn.2 ⟨s, m, hplace, ha⟩
    exact ⟨path, mem_paths_of_place hplace, mem_filesDeclaring_of_entry hentry, a, hentry, hne⟩
  · rintro ⟨path, -, -, a, ha, hne⟩
    obtain ⟨s, m, hplace, ha⟩ := mem_entriesIn.1 ha
    exact ⟨s, a, ⟨path, m, hplace, ha⟩, hne⟩

/-- **A patch edits exactly what it must.** Of a configuration just loaded, those files are written,
each once, the root file first and the others in the order of loading, that declare the account and
have an entry to which the patch makes a difference. Their entries are patched and all others stay,
in the merged view as well, and the same patch makes no difference a second time. -/
theorem updateAccount_exact {fetch : Fetch} {rootPath : String} {w' : Workspace} {changed : Bool}
    {cs : List FileChange} (hload : load fetch rootPath = .ok w) (honce : w.paths.Nodup)
    (h : w.updateAccount key p = (w', changed)) (hchanges : w'.changes = .ok cs) :
    (changed = true ↔ cs ≠ []) ∧
    cs.map FileChange.path = w.paths.filter (fun path =>
      path ∈ w.filesDeclaring key ∧ ∃ a ∈ w.entriesIn path key, p.apply a ≠ a) ∧
    (∀ c ∈ cs, ∃ sheet ∈ w'.sheets, w'.Writes sheet c) ∧
    w'.paths = w.paths ∧ w'.ous = w.ous ∧
    (∀ s, List.Forall₂ (fun place place' => place'.1 = place.1 ∧
      p.AppliedUnder key place.2 place'.2) (w.places s) (w'.places s)) ∧
    w'.merged = { w.merged with
      mandatory := w.merged.mandatory.modify key p.apply
      workload := w.merged.workload.modify key p.apply } ∧
    w'.updateAccount key p = (w', false) := by
  obtain ⟨hdeleted, -⟩ := clean_of_load hload
  obtain rfl : (w.updateAccount key p).1 = w' := congrArg Prod.fst h
  obtain rfl : (w.updateAccount key p).2 = changed := congrArg Prod.snd h
  obtain ⟨puts, hputs, rfl⟩ := changes_eq_ok hchanges
  rw [deleted_updateAccount, hdeleted, List.map_nil, List.append_nil]
  have hpaths := paths_of_written hload honce hputs
  refine ⟨?_, hpaths, ?_, paths_updateAccount, ous_updateAccount, ?_, merged_updateAccount_eq,
    updateAccount_again⟩
  · rw [updateAccount_changed, exists_entryAt_ne_iff, ne_eq,
      ← List.map_eq_nil_iff (f := FileChange.path), hpaths, List.filter_eq_nil_iff]
    simp only [decide_eq_true_iff]
    push Not
    rfl
  · intro c hc
    obtain ⟨sheet, hsheet, hwrites⟩ := forall₂_exists_left hputs hc
    exact ⟨sheet, (List.mem_filter.1 hsheet).1, hwrites⟩
  · intro s
    rw [places_updateAccount]
    refine List.forall₂_map_right_iff.2 (List.forall₂_same.2 fun place _ => ⟨rfl, ?_⟩)
    exact p.appliedUnder key place.2

/-- The texts of a root file and of two files that declare one account, which one of them names
differently. -/
def sharedTexts : List (String × String) :=
  [("c.json", "\x7b\"mandatory-account-configs\":\x7b\"k\":\x7b\"account-name\":\"N\"," ++
      "\"email\":\"k@x\",\"ou\":\"A\"\x7d\x7d," ++
      "\"workload-account-configs\":\x7b\"__LOAD\":[\"w.json\",\"v.json\"]\x7d\x7d"),
    ("w.json", "\x7b\"k\":\x7b\"account-name\":\"M\",\"email\":\"k@x\",\"ou\":\"A\"\x7d\x7d"),
    ("v.json", "\x7b\"j\":\x7b\"account-name\":\"J\",\"email\":\"j@x\",\"ou\":\"A\"\x7d," ++
      "\"k\":\x7b\"account-name\":\"N\",\"email\":\"k@x\",\"ou\":\"A\"\x7d\x7d")]

/-- The configuration in these files. -/
def sharedConfig : Workspace :=
  { unitConfig with
    ous := ⟨.inline .empty, []⟩
    mandatory := ⟨.inline (.ofList [("k", { name := "N", email := "k@x", ou := "A" })]), []⟩
    workload := ⟨.load ["w.json", "v.json"],
      [⟨"w.json", .ofList [("k", { name := "M", email := "k@x", ou := "A" })], false⟩,
        ⟨"v.json", .ofList [("j", { name := "J", email := "j@x", ou := "A" }),
          ("k", { name := "N", email := "k@x", ou := "A" })], false⟩]⟩
    loadedTexts := sharedTexts }

/-- The configuration with the account named as that one file has it. -/
def sharedConfigNamed : Workspace := (sharedConfig.updateAccount "k" { name := some "M" }).1

/-- Of three files that declare an account, the two that name it differently are written. -/
theorem updateAccount_exact_shared_account :
    load ((FileSet.ofTexts sharedTexts).fetch missingFile) "c.json" = .ok sharedConfig ∧
      sharedConfig.paths.Nodup ∧
      sharedConfig.updateAccount "k" { name := some "M" } = (sharedConfigNamed, true) ∧
      sharedConfig.filesDeclaring "k" = ["c.json", "w.json", "v.json"] ∧
      ∃ cs, sharedConfigNamed.changes = .ok cs ∧ cs.map FileChange.path = ["c.json", "v.json"] ∧
        sharedConfigNamed.updateAccount "k" { name := some "M" } = (sharedConfigNamed, false) := by
  have hload : load ((FileSet.ofTexts sharedTexts).fetch missingFile) "c.json" =
      .ok sharedConfig := by decide +kernel
  have honce : sharedConfig.paths.Nodup := by decide +kernel
  have hpatch : sharedConfig.updateAccount "k" { name := some "M" } =
      (sharedConfigNamed, true) := by decide +kernel
  have hwritable : sharedConfigNamed.changes.toOption.isSome = true := by decide +kernel
  cases hchanges : sharedConfigNamed.changes with
  | error e =>
    rw [hchanges] at hwritable
    cases hwritable
  | ok cs =>
    obtain ⟨-, hpaths, -, -, -, -, -, hagain⟩ := updateAccount_exact hload honce hpatch hchanges
    refine ⟨hload, honce, hpatch, by decide +kernel, cs, rfl, hpaths.trans ?_, hagain⟩
    decide +kernel

end Workspace
end OrgAlign.Config
