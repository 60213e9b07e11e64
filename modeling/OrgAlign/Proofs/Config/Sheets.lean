import Mathlib.Data.List.Nodup
import OrgAlign.Config.Rename
import OrgAlign.Proofs.Config.Layers

/-!
# The files behind a workspace

A workspace holds for each of its files what the file reads as, and whether that was edited since.
As long as no file moves onto another one, the lists in the root and the files stay in step and
files that were not edited hold what they held. Main statements:

* `Kept.editAccount`, `Kept.renameOuKeys`: what edits keep;
* `Kept.updateAccount`, `Kept.renameOu`: what patches and renamings of units keep;
* `Workspace.holds_of_load`, `Kept.of_load`: what loading gives.
-/

namespace OrgAlign.Config

/-! ### Sheets -/

/-- A file as a workspace holds it. -/
structure Sheet where
  /-- Its path. -/
  path : String
  /-- It was edited. -/
  dirty : Bool
  /-- What is written to it. -/
  value : Value
  /-- A text reads as what the workspace holds. -/
  Holds : String → Prop

section

variable {α : Type} [Readable (KeyedMap α)]

/-- A file that a section lists. -/
def SplitFile.sheet (toValue : α → Value) (f : SplitFile α) : Sheet :=
  ⟨f.path, f.dirty, keyedValue toValue f.entries,
    fun text => Workspace.parse f.path text = .ok f.entries⟩

/-- The files of a section. -/
def Shelf.sheets (toValue : α → Value) (s : Shelf α) : List Sheet :=
  s.files.map (SplitFile.sheet toValue)

end

namespace Workspace

/-- The root file. -/
def rootSheet (w : Workspace) : Sheet :=
  ⟨w.rootPath, w.rootDirty, w.root.toValue, fun text => parse w.rootPath text = .ok w.root⟩

/-- The files that are loaded with the root file. -/
def partSheets (w : Workspace) : List Sheet :=
  w.ous.sheets OuEntry.toValue ++ w.mandatory.sheets AccountEntry.toValue ++
    w.workload.sheets AccountEntry.toValue

/-- All files, the root file first. -/
def sheets (w : Workspace) : List Sheet := w.rootSheet :: w.partSheets

/-- The paths of all files. -/
def paths (w : Workspace) : List String := w.sheets.map Sheet.path

end Workspace

/-- A section lists its files. -/
def Shelf.Listed {α : Type} (s : Shelf α) : Prop := s.files.map SplitFile.path = s.part.files

/-- What edits keep of a workspace. -/
structure Kept (w₀ w : Workspace) : Prop where
  /-- The root file does not move. -/
  rootPath : w.rootPath = w₀.rootPath
  /-- The units are in the files that are listed for them. -/
  ous : w.ous.Listed
  /-- So are the accounts. -/
  accounts : ∀ s, (w.accounts s).Listed
  /-- No two files have the same path. -/
  distinct : w.paths.Nodup
  /-- No file is to be removed. -/
  gone : ∀ path ∈ w.deleted, path ∉ w.paths
  /-- A file that was not edited holds what it held. -/
  clean : ∀ sheet ∈ w.sheets, sheet.dirty = false → sheet ∈ w₀.sheets

/-! ### Edits of accounts -/

namespace Shelf

variable {α : Type} [DecidableEq α] {s : Shelf α} {key : String} {f : α → α}

/-- A file that an edit leaves clean is the same file as before. -/
theorem mem_files_of_edit {file : SplitFile α} (hfile : file ∈ (s.edit key f).shelf.files)
    (hclean : file.dirty = false) : file ∈ s.files := by
  obtain ⟨part, files⟩ := s
  cases part with
  | inline entries => exact hfile
  | load listed =>
    obtain ⟨before, hbefore, rfl⟩ := List.mem_map.1 hfile
    rw [SplitFile.edit_of_clean hclean]
    exact hbefore

/-- Edits leave the files where they are. -/
theorem path_files_edit :
    (s.edit key f).shelf.files.map SplitFile.path = s.files.map SplitFile.path := by
  obtain ⟨part, files⟩ := s
  cases part with
  | inline entries => rfl
  | load listed =>
    change (files.map fun file => file.edit key f).map SplitFile.path = _
    rw [List.map_map]
    rfl

theorem Listed.edit (h : s.Listed) : (s.edit key f).shelf.Listed := by
  unfold Listed
  rw [path_files_edit, h]
  obtain ⟨part, files⟩ := s
  cases part <;> rfl

/-- An edit that does not touch the root file leaves the section as it is there. -/
theorem part_edit (h : (s.edit key f).root = false) : (s.edit key f).shelf.part = s.part := by
  obtain ⟨part, files⟩ := s
  cases part with
  | inline entries =>
    exact congrArg Section.inline (KeyedMap.modify_eq_self (differs_eq_false_iff.1 h))
  | load listed => rfl

end Shelf

namespace Workspace

variable {w₀ w : Workspace} {s : AccountSection} {key : String} {f : AccountEntry → AccountEntry}

theorem paths_eq (w : Workspace) : w.paths = w.rootPath ::
    (w.ous.files.map SplitFile.path ++ w.mandatory.files.map SplitFile.path ++
      w.workload.files.map SplitFile.path) := by
  unfold paths sheets partSheets Shelf.sheets
  simp only [List.map_cons, List.map_append, List.map_map]
  rfl

/-- The paths of the files of accounts. -/
def accountPaths (w : Workspace) : List String :=
  w.mandatory.files.map SplitFile.path ++ w.workload.files.map SplitFile.path

/-- The paths of the files as the root file lists them. -/
theorem paths_of_listed (w : Workspace) (h : w.ous.Listed) :
    w.paths = [w.rootPath] ++ w.ous.part.files ++ w.accountPaths := by
  rw [paths_eq, h, List.append_assoc, List.append_assoc]
  rfl

/-- A file of an account section. -/
theorem mem_sheets_accounts {file : SplitFile AccountEntry} (h : file ∈ (w.accounts s).files) :
    file.sheet AccountEntry.toValue ∈ w.sheets := by
  refine List.mem_cons_of_mem _ ?_
  have hfile : file.sheet AccountEntry.toValue ∈ (w.accounts s).sheets AccountEntry.toValue :=
    List.mem_map_of_mem h
  cases s with
  | mandatory => exact List.mem_append_left _ (List.mem_append_right _ hfile)
  | workload => exact List.mem_append_right _ hfile

/-- What the files are. -/
theorem mem_sheets {sheet : Sheet} : sheet ∈ w.sheets ↔ sheet = w.rootSheet ∨
    (∃ file ∈ w.ous.files, sheet = file.sheet OuEntry.toValue) ∨
    ∃ s, ∃ file ∈ (w.accounts s).files, sheet = file.sheet AccountEntry.toValue := by
  constructor
  · intro h
    rcases List.mem_cons.1 h with rfl | h
    · exact .inl rfl
    rcases List.mem_append.1 h with h | h
    · rcases List.mem_append.1 h with h | h
      · obtain ⟨file, hfile, rfl⟩ := List.mem_map.1 h
        exact .inr (.inl ⟨file, hfile, rfl⟩)
      · obtain ⟨file, hfile, rfl⟩ := List.mem_map.1 h
        exact .inr (.inr ⟨.mandatory, file, hfile, rfl⟩)
    · obtain ⟨file, hfile, rfl⟩ := List.mem_map.1 h
      exact .inr (.inr ⟨.workload, file, hfile, rfl⟩)
  · rintro (rfl | ⟨file, hfile, rfl⟩ | ⟨s, file, hfile, rfl⟩)
    · exact List.mem_cons_self
    · exact List.mem_cons_of_mem _
        (List.mem_append_left _ (List.mem_append_left _ (List.mem_map_of_mem hfile)))
    · exact mem_sheets_accounts hfile

theorem paths_editAccount : (w.editAccount s key f).1.paths = w.paths := by
  rw [paths_eq, paths_eq]
  cases s with
  | mandatory =>
    change w.rootPath :: (_ ++ (w.mandatory.edit key f).shelf.files.map SplitFile.path ++ _) = _
    rw [Shelf.path_files_edit]
    rfl
  | workload =>
    change w.rootPath :: (_ ++ _ ++ (w.workload.edit key f).shelf.files.map SplitFile.path) = _
    rw [Shelf.path_files_edit]
    rfl

/-- An edit of an account that leaves the root file clean leaves it as it was. -/
theorem rootSheet_editAccount (h : (w.editAccount s key f).1.rootDirty = false) :
    (w.editAccount s key f).1.rootSheet = w.rootSheet := by
  obtain ⟨hdirty, hroot⟩ := Bool.or_eq_false_iff.1
    (show (w.rootDirty || ((w.accounts s).edit key f).root) = false by cases s <;> exact h)
  have hpart := Shelf.part_edit hroot
  have hfile : (w.editAccount s key f).1.root = w.root := by
    unfold root
    cases s with
    | mandatory =>
      exact congrArg (fun p => RootFile.mk w.options w.ous.part p w.workload.part w.extra) hpart
    | workload =>
      exact congrArg (fun p => RootFile.mk w.options w.ous.part w.mandatory.part p w.extra) hpart
  have hpath : (w.editAccount s key f).1.rootPath = w.rootPath := by
    cases s <;> rfl
  unfold rootSheet
  rw [hfile, hpath, h, hdirty]

end Workspace

/-- What edits of accounts keep. -/
theorem Kept.editAccount {w₀ w : Workspace} (h : Kept w₀ w) (s : AccountSection) (key : String)
    (f : AccountEntry → AccountEntry) : Kept w₀ (w.editAccount s key f).1 where
  rootPath := by
    rw [← h.rootPath]
    cases s <;> rfl
  ous := by
    rw [Workspace.ous_editAccount]
    exact h.ous
  accounts s' := by
    rw [Workspace.accounts_editAccount]
    split
    · exact (h.accounts s).edit
    · exact h.accounts s'
  distinct := by
    rw [Workspace.paths_editAccount]
    exact h.distinct
  gone := by
    rw [Workspace.paths_editAccount]
    have hdeleted : (w.editAccount s key f).1.deleted = w.deleted := by cases s <;> rfl
    rw [hdeleted]
    exact h.gone
  clean sheet hsheet hclean := by
    refine h.clean sheet ?_ hclean
    rcases Workspace.mem_sheets.1 hsheet with rfl | ⟨file, hfile, rfl⟩ | ⟨s', file, hfile, rfl⟩
    · rw [Workspace.rootSheet_editAccount hclean]
      exact List.mem_cons_self
    · rw [Workspace.ous_editAccount] at hfile
      exact Workspace.mem_sheets.2 (.inr (.inl ⟨file, hfile, rfl⟩))
    · rw [Workspace.accounts_editAccount] at hfile
      split at hfile
      · exact Workspace.mem_sheets_accounts (Shelf.mem_files_of_edit hfile hclean)
      · exact Workspace.mem_sheets_accounts hfile

/-- What patches keep. -/
theorem Kept.updateAccount {w₀ w : Workspace} (h : Kept w₀ w) (key : String) (p : AccountPatch) :
    Kept w₀ (w.updateAccount key p).1 :=
  Workspace.updateAccount_keeps (Kept w₀) (fun _ s hw => hw.editAccount s key p.apply) h

/-! ### Files that move -/

section

variable {α : Type} {rs : List Renaming}

/-- Where a file moves when keys are renamed, if it moves. -/
def SplitFile.target? (f : SplitFile α) (rs : List Renaming) : Option String :=
  ({ f with entries := renameKeys f.entries rs } : SplitFile α).relocation? rs

/-- Files that move when keys are renamed move to places where no file is at that moment. -/
def MovesApart (rs : List Renaming) : List (SplitFile α) → List String → Prop
  | [], _ => True
  | f :: fs, inUse =>
    match f.target? rs with
    | some target =>
      target ∉ inUse ∧ MovesApart rs fs (inUse.map fun p => if p = f.path then target else p)
    | none => MovesApart rs fs inUse

instance decidableMovesApart (rs : List Renaming) :
    ∀ (fs : List (SplitFile α)) (inUse : List String), Decidable (MovesApart rs fs inUse)
  | [], _ => isTrue trivial
  | f :: fs, inUse =>
    match h : f.target? rs with
    | some target =>
      have := decidableMovesApart rs fs (inUse.map fun p => if p = f.path then target else p)
      decidable_of_iff (target ∉ inUse ∧ MovesApart rs fs _) (by rw [MovesApart, h])
    | none =>
      have := decidableMovesApart rs fs inUse
      decidable_of_iff (MovesApart rs fs inUse) (by rw [MovesApart, h])

theorem map_replace_of_not_mem {ps : List String} {old new : String} (h : old ∉ ps) :
    (ps.map fun p => if p = old then new else p) = ps := by
  refine (List.map_congr_left fun p hp => ?_).trans (List.map_id _)
  exact if_neg fun heq : p = old => h (heq ▸ hp)

/-- A map that no renaming changes stays. -/
theorem renameKeys_eq_self {m : KeyedMap α} (h : renamesAny m rs = false) :
    renameKeys m rs = m := by
  induction rs generalizing m with
  | nil => rfl
  | cons r rs ih =>
    obtain ⟨hnone, hrest⟩ := Bool.or_eq_false_iff.1 h
    have hsame : m.rename r.1 r.2 = m := by
      unfold KeyedMap.rename
      rw [Option.isSome_eq_false_iff, Option.isNone_iff_eq_none] at hnone
      rw [hnone]
      rfl
    rw [hsame] at hrest
    change renameKeys (m.rename r.1 r.2) rs = m
    rw [hsame]
    exact ih hrest

theorem SplitFile.rename_of_target {f : SplitFile α} {target : String}
    (h : f.target? rs = some target) (r : Relocations) :
    f.rename rs r = (⟨target, renameKeys f.entries rs, true⟩, r.move f.path target) := by
  unfold SplitFile.rename
  change (match f.target? rs with | some target => _ | none => _) = _
  rw [h]

theorem SplitFile.rename_of_stays {f : SplitFile α} (h : f.target? rs = none) (r : Relocations) :
    f.rename rs r =
      (⟨f.path, renameKeys f.entries rs, f.dirty || renamesAny f.entries rs⟩, r) := by
  unfold SplitFile.rename
  change (match f.target? rs with | some target => _ | none => _) = _
  rw [h]

/-- The files are where they are listed, after the files listed `first` and among files at `before`
and `after` that are not listed with them; no two are in the same place, and none is to be
removed. -/
structure Settled (before after first : List String) (fs : List (SplitFile α)) (r : Relocations) :
    Prop where
  /-- The list. -/
  listed : r.listed = first ++ fs.map SplitFile.path
  /-- No two files are in the same place. -/
  distinct : (before ++ r.listed ++ after).Nodup
  /-- No file is to be removed. -/
  gone : ∀ path ∈ r.deleted, path ∉ before ++ r.listed ++ after

namespace Settled

variable {before after first : List String} {f : SplitFile α} {fs : List (SplitFile α)}
  {r : Relocations}

/-- The first file counts as listed before. -/
theorem shift (h : Settled before after first (f :: fs) r) :
    Settled before after (first ++ [f.path]) fs r :=
  ⟨by rw [h.listed]; simp, h.distinct, h.gone⟩

/-- The first file does not count as listed before. -/
theorem unshift (h : Settled before after (first ++ [f.path]) fs r) :
    Settled before after first (f :: fs) r :=
  ⟨by rw [h.listed]; simp, h.distinct, h.gone⟩

theorem path_mem (h : Settled before after first (f :: fs) r) : f.path ∈ r.listed := by
  rw [h.listed]
  simp

/-- What is in use after a file moved. -/
theorem inUse_move (h : Settled before after first (f :: fs) r) (target : String) :
    ((before ++ r.listed ++ after).map fun p => if p = f.path then target else p) =
      before ++ (r.move f.path target).listed ++ after := by
  have hdistinct := h.distinct
  rw [List.nodup_append, List.nodup_append] at hdistinct
  obtain ⟨⟨-, -, hbefore⟩, -, hafter⟩ := hdistinct
  rw [List.map_append, List.map_append,
    map_replace_of_not_mem fun hin => hbefore _ hin _ h.path_mem rfl,
    map_replace_of_not_mem fun hin => hafter _ (List.mem_append_right _ h.path_mem) _ hin rfl]
  rfl

/-- A file moves to a place where no file is. -/
theorem move (h : Settled before after first (f :: fs) r) {target : String}
    (hfree : target ∉ before ++ r.listed ++ after) :
    Settled before after (first ++ [target]) fs (r.move f.path target) := by
  have hinUse := h.inUse_move target
  refine ⟨?_, ?_, ?_⟩
  · have hdistinct : r.listed.Nodup :=
      (List.nodup_append.1 (List.nodup_append.1 h.distinct).1).2.1
    rw [h.listed, List.map_cons, List.nodup_append, List.nodup_cons] at hdistinct
    obtain ⟨-, ⟨hfs, -⟩, hfirst⟩ := hdistinct
    change (r.listed.map fun p => if p = f.path then target else p) = _
    rw [h.listed, List.map_append, List.map_cons, List.map_cons, if_pos rfl,
      map_replace_of_not_mem fun hin => hfirst _ hin _ List.mem_cons_self rfl,
      map_replace_of_not_mem hfs, List.append_assoc]
    rfl
  · rw [← hinUse]
    exact KeyedMap.nodup_map_rename h.distinct hfree
  · rw [← hinUse]
    intro path hpath hin
    have hold : f.path ∈ before ++ r.listed ++ after :=
      List.mem_append_left _ (List.mem_append_right _ h.path_mem)
    have hremoved : path ∈ r.deleted ∧ path ≠ target ∨ path = f.path := by
      unfold Relocations.move at hpath
      simp only at hpath
      split at hpath
      · exact .inl (by simpa using hpath)
      · simpa using hpath
    obtain ⟨p, hp, hpath⟩ := List.mem_map.1 hin
    by_cases hmoved : p = f.path
    · rw [if_pos hmoved] at hpath
      rcases hremoved with ⟨-, hne⟩ | heq
      · exact hne hpath.symm
      · exact hfree (hpath.trans heq ▸ hold)
    · rw [if_neg hmoved] at hpath
      rcases hremoved with ⟨hgone, -⟩ | heq
      · exact h.gone path hgone (hpath ▸ hp)
      · exact hmoved (hpath.trans heq)

end Settled

/-- Files that move apart stay in step with their list. A file that is left clean is one there was,
and if the root file is left clean, the list is the one there was. -/
theorem Settled.renameFiles {before after first : List String} {fs : List (SplitFile α)}
    {r : Relocations} (h : Settled before after first fs r)
    (hapart : MovesApart rs fs (before ++ r.listed ++ after)) :
    Settled before after first (renameFiles rs fs r).1 (renameFiles rs fs r).2 ∧
      (∀ f ∈ (renameFiles rs fs r).1, f.dirty = false → f ∈ fs) ∧
      ((renameFiles rs fs r).2.rootDirty = false →
        r.rootDirty = false ∧ (renameFiles rs fs r).2.listed = r.listed) := by
  induction fs generalizing r first with
  | nil => exact ⟨h, fun f hf => absurd hf List.not_mem_nil, fun hroot => ⟨hroot, rfl⟩⟩
  | cons f fs ih =>
    have hcons : Config.renameFiles rs (f :: fs) r =
        ((f.rename rs r).1 :: (Config.renameFiles rs fs (f.rename rs r).2).1,
          (Config.renameFiles rs fs (f.rename rs r).2).2) := rfl
    rw [hcons]
    unfold MovesApart at hapart
    split at hapart
    · rename_i target htarget
      obtain ⟨hfree, hapart⟩ := hapart
      rw [h.inUse_move target] at hapart
      rw [SplitFile.rename_of_target htarget]
      obtain ⟨hsettled, hclean, hroot⟩ := ih (h.move hfree) hapart
      refine ⟨unshift hsettled, ?_, fun hdirty => absurd (hroot hdirty).1 Bool.noConfusion⟩
      rintro g hg hdirty
      rcases List.mem_cons.1 hg with rfl | hg
      · cases hdirty
      · exact List.mem_cons_of_mem f (hclean g hg hdirty)
    · rename_i hstays
      rw [SplitFile.rename_of_stays hstays]
      obtain ⟨hsettled, hclean, hroot⟩ := ih h.shift hapart
      refine ⟨unshift hsettled, ?_, hroot⟩
      rintro g hg hdirty
      rcases List.mem_cons.1 hg with rfl | hg
      · obtain ⟨hdirty', hsame⟩ := Bool.or_eq_false_iff.1 hdirty
        rw [renameKeys_eq_self hsame, hsame, Bool.or_false]
        exact List.mem_cons_self
      · exact List.mem_cons_of_mem f (hclean g hg hdirty)

end

/-! ### Renaming units -/

/-- Files that move when a unit is renamed move to places where no file is at that moment. -/
def Workspace.MovesApart (w : Workspace) (old new : String) : Prop :=
  old ≠ new → Config.MovesApart (renamings w.ous.keys old new).reverse w.ous.files w.paths

/-- What is kept when the units' files are renamed and moved. -/
theorem Kept.relocated {w₀ w : Workspace} (h : Kept w₀ w) {listed : List String}
    (hpart : w.ous.part = .load listed) {files : List (SplitFile OuEntry)} {r : Relocations}
    (hsettled : Settled [w.rootPath] w.accountPaths [] files r)
    (hclean : ∀ f ∈ files, f.dirty = false → f ∈ w.ous.files)
    (hroot : r.rootDirty = false → w.rootDirty = false ∧ r.listed = listed) :
    Kept w₀ { w with
      ous := ⟨.load r.listed, files⟩, deleted := r.deleted, rootDirty := r.rootDirty } := by
  let w' : Workspace := { w with
    ous := ⟨.load r.listed, files⟩, deleted := r.deleted, rootDirty := r.rootDirty }
  have hous : w'.ous.Listed := hsettled.listed.symm
  have hpaths : w'.paths = [w.rootPath] ++ r.listed ++ w.accountPaths := w'.paths_of_listed hous
  refine ⟨h.rootPath, hous, fun s => ?_, hpaths ▸ hsettled.distinct, hpaths ▸ hsettled.gone,
    fun sheet hsheet hdirty => h.clean sheet ?_ hdirty⟩
  · cases s with
    | mandatory => exact h.accounts .mandatory
    | workload => exact h.accounts .workload
  · rcases Workspace.mem_sheets.1 hsheet with rfl | ⟨file, hfile, rfl⟩ | ⟨s, file, hfile, rfl⟩
    · obtain ⟨hdirty', hsame⟩ := hroot hdirty
      have hfile : w'.root = w.root := by
        unfold Workspace.root
        rw [hpart, ← hsame]
      refine Workspace.mem_sheets.2 (.inl ?_)
      unfold Workspace.rootSheet
      rw [hfile, hdirty']
      exact congrArg (fun dirty => Sheet.mk w.rootPath dirty w.root.toValue
        fun text => Workspace.parse w.rootPath text = .ok w.root) hdirty
    · exact Workspace.mem_sheets.2 (.inr (.inl ⟨file, hclean file hfile hdirty, rfl⟩))
    · refine Workspace.mem_sheets_accounts (?_ : file ∈ (w.accounts s).files)
      cases s with
      | mandatory => exact hfile
      | workload => exact hfile

instance (w : Workspace) (old new : String) : Decidable (w.MovesApart old new) :=
  inferInstanceAs (Decidable (old ≠ new → _))

/-- What renaming the units' keys keeps. -/
theorem Kept.renameOuKeys {w₀ w : Workspace} (h : Kept w₀ w) {old new : String}
    (hapart : Config.MovesApart (renamings w.ous.keys old new).reverse w.ous.files w.paths)
    {r : Workspace × Bool} (hr : w.renameOuKeys old new = .ok r) : Kept w₀ r.1 := by
  obtain ⟨-, ⟨-, rfl⟩ | ⟨entries, hpart, rfl⟩ | ⟨listed, _, hpart, rfl, rfl⟩⟩ :=
    Workspace.renameOuKeys_eq_ok hr
  · exact h
  · have hlisted : w.ous.files.map SplitFile.path = [] := by
      rw [h.ous, hpart]
      rfl
    refine ⟨h.rootPath, hlisted, h.accounts, h.distinct, h.gone, fun sheet hsheet hclean => ?_⟩
    rcases List.mem_cons.1 hsheet with rfl | hsheet
    · cases hclean
    · exact h.clean sheet (List.mem_cons_of_mem _ hsheet) hclean
  · have hlisted : w.ous.files.map SplitFile.path = listed := by
      rw [h.ous, hpart]
      rfl
    have hpaths := w.paths_of_listed h.ous
    rw [hpart] at hpaths
    have hsettled : Settled [w.rootPath] w.accountPaths [] w.ous.files
        ⟨listed, w.deleted, w.rootDirty⟩ :=
      ⟨hlisted.symm, hpaths ▸ h.distinct, hpaths ▸ h.gone⟩
    rw [hpaths] at hapart
    obtain ⟨hsettled, hclean, hroot⟩ := hsettled.renameFiles hapart
    exact h.relocated hpart hsettled hclean hroot

/-- What renaming a unit keeps. -/
theorem Kept.renameOu {w₀ w : Workspace} (h : Kept w₀ w) {old new : String}
    (hapart : w.MovesApart old new) {r : Workspace × Bool} (hr : w.renameOu old new = .ok r) :
    Kept w₀ r.1 :=
  Workspace.renameOu_gives (Kept w₀) (fun _ => h)
    (fun hne _ hkeys => h.renameOuKeys (hapart hne) hkeys)
    (fun _ s key hw => hw.editAccount s key _) hr

/-! ### Loading -/

section

variable {α : Type} [Readable (KeyedMap α)] {fetch : Workspace.Fetch} {paths : List String}
  {files : List (SplitFile α × String)}

/-- A file that is loaded holds its text. -/
theorem holds_of_loadFiles (toValue : α → Value) (h : Workspace.loadFiles fetch paths = .ok files)
    {file : SplitFile α} (hfile : file ∈ files.map Prod.fst) :
    ∃ text, fetch (file.sheet toValue).path = .ok text ∧ (file.sheet toValue).Holds text := by
  obtain ⟨loaded, hloaded, rfl⟩ := List.mem_map.1 hfile
  obtain ⟨path, -, htext, entries, hentries, hsame⟩ :=
    forall₂_exists_left (Workspace.loadFiles_eq_ok.1 h) hloaded
  rw [hsame]
  exact ⟨loaded.2, htext, hentries⟩

/-- The files that are loaded are those that are listed. -/
theorem path_of_loadFiles (h : Workspace.loadFiles fetch paths = .ok files) :
    (files.map Prod.fst).map SplitFile.path = paths := by
  rw [List.map_map, ← List.forall₂_eq_eq_eq, List.forall₂_map_left_iff]
  refine (Workspace.loadFiles_eq_ok.1 h).flip.imp ?_
  rintro file path ⟨-, entries, -, hsame⟩
  rw [Function.comp_apply, hsame]

end

section

variable {fetch : Workspace.Fetch} {rootPath : String} {w : Workspace}

/-- Every file holds the text that was loaded. -/
theorem Workspace.holds_of_load (h : load fetch rootPath = .ok w) :
    ∀ sheet ∈ w.sheets, ∃ text, fetch sheet.path = .ok text ∧ sheet.Holds text := by
  obtain ⟨text, root, ous, mandatory, workload, htext, hroot, hous, hmandatory, hworkload, rfl⟩ :=
    load_eq_ok.1 h
  intro sheet hsheet
  rcases mem_sheets.1 hsheet with rfl | ⟨file, hfile, rfl⟩ | ⟨s, file, hfile, rfl⟩
  · exact ⟨text, htext, hroot⟩
  · exact holds_of_loadFiles OuEntry.toValue hous hfile
  · cases s with
    | mandatory => exact holds_of_loadFiles AccountEntry.toValue hmandatory hfile
    | workload => exact holds_of_loadFiles AccountEntry.toValue hworkload hfile

/-- What loading gives, if no two files have the same path. -/
theorem Kept.of_load (h : Workspace.load fetch rootPath = .ok w) (honce : w.paths.Nodup) :
    Kept w w := by
  obtain ⟨text, root, ous, mandatory, workload, -, -, hous, hmandatory, hworkload, rfl⟩ :=
    Workspace.load_eq_ok.1 h
  refine ⟨rfl, path_of_loadFiles hous, fun s => ?_, honce, fun path hpath => absurd hpath
    List.not_mem_nil, fun sheet hsheet _ => hsheet⟩
  cases s with
  | mandatory => exact path_of_loadFiles hmandatory
  | workload => exact path_of_loadFiles hworkload

end

end OrgAlign.Config
