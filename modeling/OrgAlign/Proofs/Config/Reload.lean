import Mathlib.Data.List.Forall2
import OrgAlign.Proofs.Config.Sheets

/-!
# Writing an edited configuration and loading it again

The changes of an edited workspace are made to the files it was loaded from: all files are written
first, then the others are removed. Main statements:

* `changes_eq_ok`, `holds_of_commit`: what the changes are, and what the files hold after them;
* `reload_of_holds`: where every file holds what the workspace holds, loading gives it back;
* `reload_edited`: so it is after patches and renamings, as long as no file moves onto another one;
* `reload_loses_moved_file`: a file that moves to where it is gets lost.
-/

namespace OrgAlign.Config

/-! ### File sets -/

/-- The text of every file. -/
abbrev FileSet := String → Option String

namespace FileSet

variable {fs : FileSet} {cs : List FileChange}

/-- Files are got hold of by their paths, and a missing file is told by `absent`. -/
def fetch (absent : String → Error) (fs : FileSet) : Workspace.Fetch := fun path =>
  match fs path with
  | some text => .ok text
  | none => .error (absent path)

/-- The files with the texts listed. -/
def ofTexts (texts : List (String × String)) : FileSet := fun path => texts.lookup path

/-- Writes a file that is to be written. -/
def write (fs : FileSet) : FileChange → FileSet
  | .put path content _ => fun p => if p = path then some content else fs p
  | .delete _ _ => fs

/-- Removes a file that is to be removed. -/
def remove (fs : FileSet) : FileChange → FileSet
  | .put _ _ _ => fs
  | .delete path _ => fun p => if p = path then none else fs p

/-- Makes changes: all files are written, then those to be removed are removed. -/
def commit (fs : FileSet) (cs : List FileChange) : FileSet :=
  cs.foldl remove (cs.foldl write fs)

/-- Removals leave a file alone that is not to be removed. -/
theorem foldl_remove {path : String} (h : ∀ previous, .delete path previous ∉ cs) :
    cs.foldl remove fs path = fs path := by
  induction cs generalizing fs with
  | nil => rfl
  | cons c cs ih =>
    rw [List.foldl_cons, ih fun previous hc => h previous (List.mem_cons_of_mem c hc)]
    cases c with
    | put => rfl
    | delete gone previous =>
      exact if_neg fun heq : path = gone => h previous (heq ▸ List.mem_cons_self)

/-- Writes leave a file alone that is not to be written. -/
theorem foldl_write {path : String} (h : ∀ content previous, .put path content previous ∉ cs) :
    cs.foldl write fs path = fs path := by
  induction cs generalizing fs with
  | nil => rfl
  | cons c cs ih =>
    rw [List.foldl_cons,
      ih fun content previous hc => h content previous (List.mem_cons_of_mem c hc)]
    cases c with
    | put place content previous =>
      exact if_neg fun heq : path = place => h content previous (heq ▸ List.mem_cons_self)
    | delete => rfl

/-- A file has the text that is written to it, if only one is. -/
theorem foldl_write_put {path content : String}
    (hin : ∃ previous, .put path content previous ∈ cs)
    (honce : ∀ text previous, .put path text previous ∈ cs → text = content) :
    cs.foldl write fs path = some content := by
  induction cs generalizing fs with
  | nil => exact absurd hin.choose_spec List.not_mem_nil
  | cons c cs ih =>
    rw [List.foldl_cons]
    by_cases hlater : ∃ text previous, .put path text previous ∈ cs
    · obtain ⟨text, previous, hlater⟩ := hlater
      have htext := honce text previous (List.mem_cons_of_mem c hlater)
      exact ih ⟨previous, htext ▸ hlater⟩ fun text previous hc =>
        honce text previous (List.mem_cons_of_mem c hc)
    · obtain ⟨previous, hin⟩ := hin
      rw [foldl_write fun text previous hc => hlater ⟨text, previous, hc⟩]
      rcases List.mem_cons.1 hin with rfl | hin
      · exact if_pos rfl
      · exact absurd ⟨content, previous, hin⟩ hlater

end FileSet

/-! ### Changes -/

namespace Workspace

variable {w : Workspace} {cs : List FileChange}

/-- The change that writes a file. -/
def Writes (w : Workspace) (sheet : Sheet) (c : FileChange) : Prop :=
  ∃ content, render? (Format.ofPath sheet.path) sheet.value = some content ∧
    c = .put sheet.path content (w.loadedText? sheet.path)

theorem put_eq_ok (sheet : Sheet) {c : FileChange} :
    w.put sheet.path sheet.value = .ok c ↔ w.Writes sheet c := by
  unfold Writes
  cases hrender : render? (Format.ofPath sheet.path) sheet.value with
  | none => simp [put, hrender]
  | some content => simp [put, hrender, eq_comm]

/-- The edited files of a section are written. -/
theorem putFiles_eq_ok {α : Type} [Readable (KeyedMap α)] {toValue : α → Value} {s : Shelf α} :
    w.putFiles toValue s = .ok cs ↔
      List.Forall₂ w.Writes ((s.sheets toValue).filter Sheet.dirty) cs := by
  have hedited : (s.sheets toValue).filter Sheet.dirty =
      (s.files.filter SplitFile.dirty).map (SplitFile.sheet toValue) := List.filter_map
  unfold putFiles
  rw [mapM_eq_ok, hedited, List.forall₂_map_left_iff]
  have hput : ∀ (f : SplitFile α) c, w.put f.path (keyedValue toValue f.entries) = .ok c ↔
      w.Writes (f.sheet toValue) c := fun f c => put_eq_ok (f.sheet toValue)
  exact ⟨List.Forall₂.imp fun f c => (hput f c).1, List.Forall₂.imp fun f c => (hput f c).2⟩

/-- The edited files are written, and the files left behind are removed. -/
theorem changes_eq_ok (h : w.changes = .ok cs) : ∃ puts,
    List.Forall₂ w.Writes (w.sheets.filter Sheet.dirty) puts ∧
      cs = puts ++ w.deleted.map fun path => .delete path (w.loadedText? path) := by
  have hroot : ∃ root, List.Forall₂ w.Writes ([w.rootSheet].filter Sheet.dirty) root ∧
      (do
        let ous ← w.putFiles OuEntry.toValue w.ous
        let mandatory ← w.putFiles AccountEntry.toValue w.mandatory
        let workload ← w.putFiles AccountEntry.toValue w.workload
        let deleted := w.deleted.map fun path => FileChange.delete path (w.loadedText? path)
        pure (root ++ ous ++ mandatory ++ workload ++ deleted)) = Except.ok (ε := Error) cs := by
    unfold changes at h
    cases hdirty : w.rootDirty with
    | false =>
      rw [hdirty] at h
      refine ⟨[], ?_, h⟩
      rw [List.filter_cons_of_neg (by simp [rootSheet, hdirty])]
      exact .nil
    | true =>
      rw [hdirty] at h
      obtain ⟨root, hput, h⟩ := bind_eq_ok.1 h
      refine ⟨root, ?_, h⟩
      rw [List.filter_cons_of_pos (by simp [rootSheet, hdirty])]
      cases hchange : w.put w.rootPath w.root.toValue with
      | error e =>
        rw [hchange] at hput
        cases hput
      | ok c =>
        rw [hchange] at hput
        cases hput
        exact .cons ((put_eq_ok w.rootSheet).1 hchange) .nil
  obtain ⟨root, hroot, h⟩ := hroot
  obtain ⟨ous, hous, h⟩ := bind_eq_ok.1 h
  obtain ⟨mandatory, hmandatory, h⟩ := bind_eq_ok.1 h
  obtain ⟨workload, hworkload, h⟩ := bind_eq_ok.1 h
  cases h
  refine ⟨root ++ (ous ++ mandatory ++ workload), ?_, by simp only [List.append_assoc]⟩
  have hsheets : w.sheets = [w.rootSheet] ++ w.partSheets := rfl
  unfold partSheets at hsheets
  rw [hsheets, List.filter_append, List.filter_append, List.filter_append]
  exact List.rel_append hroot (List.rel_append (List.rel_append (putFiles_eq_ok.1 hous)
    (putFiles_eq_ok.1 hmandatory)) (putFiles_eq_ok.1 hworkload))

/-- Parsing what is written for a file gives what the workspace holds. -/
def ReadsBack (w : Workspace) : Prop :=
  ∀ sheet ∈ w.sheets, ∀ text, render? (Format.ofPath sheet.path) sheet.value = some text →
    sheet.Holds text

/-- After the changes were made, every file is there and holds what the workspace holds. -/
theorem holds_of_commit {w₀ : Workspace} {absent : String → Error} {fs : FileSet}
    {rootPath : String} (hload : load (fs.fetch absent) rootPath = .ok w₀) (hkept : Kept w₀ w)
    (hreads : w.ReadsBack) (h : w.changes = .ok cs) :
    ∀ sheet ∈ w.sheets, ∃ text, (fs.commit cs).fetch absent sheet.path = .ok text ∧
      sheet.Holds text := by
  obtain ⟨puts, hputs, rfl⟩ := changes_eq_ok h
  intro sheet hsheet
  -- a file that is written is the one file with its path, and it was edited
  have hwritten : ∀ content previous, .put sheet.path content previous ∈
      puts ++ w.deleted.map (fun path => FileChange.delete path (w.loadedText? path)) →
      sheet.dirty = true ∧ render? (Format.ofPath sheet.path) sheet.value = some content := by
    intro content previous hin
    rcases List.mem_append.1 hin with hin | hin
    · obtain ⟨other, hother, text, hrender, heq⟩ := forall₂_exists_left hputs hin
      obtain ⟨hother, hdirty⟩ := List.mem_filter.1 hother
      injection heq with hpath hcontent
      obtain rfl : sheet = other := List.inj_on_of_nodup_map hkept.distinct hsheet hother hpath
      exact ⟨hdirty, hcontent ▸ hrender⟩
    · obtain ⟨path, -, heq⟩ := List.mem_map.1 hin
      cases heq
  have hstays : ∀ previous, .delete sheet.path previous ∉
      puts ++ w.deleted.map (fun path => FileChange.delete path (w.loadedText? path)) := by
    intro previous hin
    rcases List.mem_append.1 hin with hin | hin
    · obtain ⟨other, -, text, -, heq⟩ := forall₂_exists_left hputs hin
      cases heq
    · obtain ⟨path, hpath, heq⟩ := List.mem_map.1 hin
      injection heq with hsame
      exact hkept.gone path hpath (hsame ▸ List.mem_map_of_mem hsheet)
  unfold FileSet.fetch FileSet.commit
  rw [FileSet.foldl_remove hstays]
  cases hdirty : sheet.dirty with
  | false =>
    rw [FileSet.foldl_write fun content previous hin => by
      rw [(hwritten content previous hin).1] at hdirty
      cases hdirty]
    exact holds_of_load hload sheet (hkept.clean sheet hsheet hdirty)
  | true =>
    obtain ⟨c, hc, content, hrender, rfl⟩ :=
      forall₂_exists_right hputs (List.mem_filter.2 ⟨hsheet, hdirty⟩)
    rw [FileSet.foldl_write_put ⟨_, List.mem_append_left _ hc⟩ fun text previous hin =>
      Option.some.inj ((hwritten text previous hin).2.symm.trans hrender)]
    exact ⟨content, rfl, hreads sheet hsheet content hrender⟩

/-! ### Loading again -/

section

variable {α : Type} {fetch : Fetch}

/-- The files listed are loaded if each of them holds what it is to hold. -/
theorem loadFiles_of_holds [Readable (KeyedMap α)] (toValue : α → Value)
    {files : List (SplitFile α)}
    (h : ∀ f ∈ files, ∃ text, fetch f.path = .ok text ∧ (f.sheet toValue).Holds text) :
    ∃ loaded, loadFiles fetch (files.map SplitFile.path) = .ok loaded ∧
      (loaded.map Prod.fst).map SplitFile.entries = files.map SplitFile.entries := by
  induction files with
  | nil => exact ⟨[], rfl, rfl⟩
  | cons f files ih =>
    obtain ⟨text, htext, hholds⟩ := h f List.mem_cons_self
    obtain ⟨loaded, hloaded, hentries⟩ := ih fun g hg => h g (List.mem_cons_of_mem f hg)
    refine ⟨(⟨f.path, f.entries, false⟩, text) :: loaded, ?_, ?_⟩
    · exact loadFiles_eq_ok.2 (.cons ⟨htext, f.entries, hholds, rfl⟩ (loadFiles_eq_ok.1 hloaded))
    · rw [List.map_cons, List.map_cons, List.map_cons, hentries]

/-- Where every file holds what a workspace holds, loading gives the same merged view. -/
theorem reload_of_holds (hous : w.ous.Listed) (haccounts : ∀ s, (w.accounts s).Listed)
    (h : ∀ sheet ∈ w.sheets, ∃ text, fetch sheet.path = .ok text ∧ sheet.Holds text) :
    ∃ w', load fetch w.rootPath = .ok w' ∧ w'.merged = w.merged := by
  obtain ⟨text, htext, hroot⟩ := h w.rootSheet List.mem_cons_self
  obtain ⟨ous, hloaded, hentries⟩ := loadFiles_of_holds OuEntry.toValue fun f hf =>
    h _ (mem_sheets.2 (.inr (.inl ⟨f, hf, rfl⟩)))
  have hsections : ∀ s, ∃ loaded, loadFiles fetch (w.accounts s).part.files = .ok loaded ∧
      (loaded.map Prod.fst).map SplitFile.entries = (w.accounts s).files.map SplitFile.entries := by
    intro s
    rw [← haccounts s]
    exact loadFiles_of_holds AccountEntry.toValue fun f hf => h _ (mem_sheets_accounts hf)
  obtain ⟨mandatory, hmandatory, hmandatoryEntries⟩ := hsections .mandatory
  obtain ⟨workload, hworkload, hworkloadEntries⟩ := hsections .workload
  rw [hous] at hloaded
  refine ⟨_, load_eq_ok.2 ⟨text, w.root, ous, mandatory, workload, htext, hroot, hloaded,
    hmandatory, hworkload, rfl⟩, ?_⟩
  unfold merged
  simp only [Configuration.mk.injEq]
  exact ⟨rfl, Shelf.merged_of_entries hentries, Shelf.merged_of_entries hmandatoryEntries,
    Shelf.merged_of_entries hworkloadEntries⟩

end

end Workspace

/-! ### Edits -/

/-- An edit of a configuration. -/
inductive Edit
  | patch (key : String) (p : AccountPatch)
  | rename (old new : String)

namespace Workspace

/-- Makes an edit. -/
def edit (w : Workspace) : Edit → Except Error Workspace
  | .patch key p => .ok (w.updateAccount key p).1
  | .rename old new => (w.renameOu old new).map Prod.fst

/-- An edit moves files to places where no file is at that moment. -/
def EditMovesApart (w : Workspace) : Edit → Prop
  | .patch _ _ => True
  | .rename old new => w.MovesApart old new

/-- Edits that are made one after the other move files to places where no file is at that moment. -/
def AllMoveApart : List Edit → Workspace → Prop
  | [], _ => True
  | e :: es, w => w.EditMovesApart e ∧
    match w.edit e with
    | .ok w' => AllMoveApart es w'
    | .error _ => True

instance (w : Workspace) (e : Edit) : Decidable (w.EditMovesApart e) :=
  match e with
  | .patch _ _ => isTrue trivial
  | .rename old new => inferInstanceAs (Decidable (w.MovesApart old new))

instance decidableAllMoveApart : ∀ (es : List Edit) (w : Workspace), Decidable (AllMoveApart es w)
  | [], _ => isTrue trivial
  | e :: es, w =>
    match h : w.edit e with
    | .ok w' =>
      have := decidableAllMoveApart es w'
      decidable_of_iff (w.EditMovesApart e ∧ AllMoveApart es w') (by rw [AllMoveApart, h])
    | .error _ => decidable_of_iff (w.EditMovesApart e) (by rw [AllMoveApart, h, and_true])

end Workspace

/-- What an edit keeps. -/
theorem Kept.edit {w₀ w w' : Workspace} (h : Kept w₀ w) {e : Edit} (hapart : w.EditMovesApart e)
    (he : w.edit e = .ok w') : Kept w₀ w' := by
  cases e with
  | patch key p =>
    cases he
    exact h.updateAccount key p
  | rename old new =>
    cases hr : w.renameOu old new with
    | error e =>
      simp [Workspace.edit, hr, Except.map] at he
    | ok r =>
      simp only [Workspace.edit, hr, Except.map] at he
      cases he
      exact h.renameOu hapart hr

/-- What edits keep. -/
theorem Kept.edits {w₀ w w' : Workspace} (h : Kept w₀ w) {es : List Edit}
    (hapart : Workspace.AllMoveApart es w) (hes : es.foldlM Workspace.edit w = .ok w') :
    Kept w₀ w' := by
  induction es generalizing w with
  | nil =>
    cases hes
    exact h
  | cons e es ih =>
    obtain ⟨w₁, he, hes⟩ := bind_eq_ok.1 hes
    obtain ⟨hfirst, hrest⟩ := hapart
    rw [he] at hrest
    exact ih (h.edit hfirst he) hrest hes

/-- **Writing an edited configuration and loading it again loses nothing**, as long as every file
that moves goes to a place where no file is. -/
theorem reload_edited {absent : String → Error} {fs : FileSet} {rootPath : String}
    {w₀ w : Workspace} {es : List Edit} {cs : List FileChange}
    (hload : Workspace.load (fs.fetch absent) rootPath = .ok w₀) (honce : w₀.paths.Nodup)
    (hedits : es.foldlM Workspace.edit w₀ = .ok w) (hapart : Workspace.AllMoveApart es w₀)
    (hreads : w.ReadsBack) (hchanges : w.changes = .ok cs) :
    ∃ w', Workspace.load ((fs.commit cs).fetch absent) rootPath = .ok w' ∧
      w'.merged = w.merged := by
  have hkept : Kept w₀ w := (Kept.of_load hload honce).edits hapart hedits
  have hpath : w.rootPath = rootPath := by
    obtain ⟨text, root, ous, mandatory, workload, -, -, -, -, -, rfl⟩ :=
      Workspace.load_eq_ok.1 hload
    exact hkept.rootPath
  rw [← hpath]
  exact Workspace.reload_of_holds hkept.ous hkept.accounts
    (Workspace.holds_of_commit hload hkept hreads hchanges)

/-- A workspace reads back if its root file, the files of units and the files of accounts do. -/
theorem Workspace.readsBack_of_files {w : Workspace}
    (hroot : ∀ text ∈ render? (Format.ofPath w.rootPath) w.root.toValue,
      parse w.rootPath text = .ok w.root)
    (hous : ∀ f ∈ w.ous.files, ∀ text ∈ render? (Format.ofPath f.path)
      (keyedValue OuEntry.toValue f.entries), parse f.path text = .ok f.entries)
    (haccounts : ∀ s, ∀ f ∈ (w.accounts s).files, ∀ text ∈ render? (Format.ofPath f.path)
      (keyedValue AccountEntry.toValue f.entries), parse f.path text = .ok f.entries) :
    w.ReadsBack := by
  intro sheet hsheet text htext
  rcases mem_sheets.1 hsheet with rfl | ⟨f, hf, rfl⟩ | ⟨s, f, hf, rfl⟩
  · exact hroot text htext
  · exact hous f hf text htext
  · exact haccounts s f hf text htext

/-- An error for a file that is missing. -/
def missingFile (path : String) : Error := .fetch path (some "missing")

/-- The texts of a root file, of a file with a unit, and of a file with an account in it. -/
def unitTexts : List (String × String) :=
  [("c.json", "\x7b\"organizational-units\":\x7b\"__LOAD\":[\"A.json\"]\x7d," ++
      "\"workload-account-configs\":\x7b\"__LOAD\":[\"w.json\"]\x7d\x7d"),
    ("A.json", "\x7b\"A\":\x7b\x7d\x7d"),
    ("w.json", "\x7b\"k\":\x7b\"account-name\":\"N\",\"email\":\"n@x\",\"ou\":\"A\"\x7d\x7d")]

/-- The configuration in these files. -/
def unitConfig : Workspace where
  rootPath := "c.json"
  options := {}
  ous := ⟨.load ["A.json"], [⟨"A.json", .ofList [("A", {})], false⟩]⟩
  mandatory := ⟨.inline .empty, []⟩
  workload := ⟨.load ["w.json"],
    [⟨"w.json", .ofList [("k", { name := "N", email := "n@x", ou := "A" })], false⟩]⟩
  extra := []
  rootDirty := false
  deleted := []
  loadedTexts := unitTexts

/-- The unit is renamed, which moves its file, and so is the account. -/
def unitEdits : List Edit := [.rename "A" "B", .patch "k" { name := some "M" }]

/-- The configuration after that. -/
def editedUnitConfig : Workspace :=
  (unitEdits.foldlM Workspace.edit unitConfig).toOption.get (by decide +kernel)

/-- A file moves, and three files are written. -/
theorem reload_edited_renamed_unit :
    Workspace.load ((FileSet.ofTexts unitTexts).fetch missingFile) "c.json" = .ok unitConfig ∧
      unitConfig.paths.Nodup ∧ unitEdits.foldlM Workspace.edit unitConfig = .ok editedUnitConfig ∧
      Workspace.AllMoveApart unitEdits unitConfig ∧ editedUnitConfig.ReadsBack ∧
      ∃ cs w', editedUnitConfig.changes = .ok cs ∧ cs.length = 4 ∧
        Workspace.load (((FileSet.ofTexts unitTexts).commit cs).fetch missingFile) "c.json" =
          .ok w' ∧
        w'.merged = editedUnitConfig.merged := by
  have hload : Workspace.load ((FileSet.ofTexts unitTexts).fetch missingFile) "c.json" =
      .ok unitConfig := by decide +kernel
  have honce : unitConfig.paths.Nodup := by decide +kernel
  have hedits : unitEdits.foldlM Workspace.edit unitConfig = .ok editedUnitConfig := by
    decide +kernel
  have hapart : Workspace.AllMoveApart unitEdits unitConfig := by decide +kernel
  have hreads : editedUnitConfig.ReadsBack := by
    refine Workspace.readsBack_of_files (by decide +kernel) (by decide +kernel) fun s => ?_
    cases s with
    | mandatory => decide +kernel
    | workload => decide +kernel
  have hlength : (editedUnitConfig.changes.toOption.map List.length) = some 4 := by decide +kernel
  cases hchanges : editedUnitConfig.changes with
  | error e =>
    rw [hchanges] at hlength
    cases hlength
  | ok cs =>
    obtain ⟨w', hagain, hmerged⟩ := reload_edited hload honce hedits hapart hreads hchanges
    rw [hchanges] at hlength
    exact ⟨hload, honce, hedits, hapart, hreads, cs, w', rfl, Option.some.inj hlength, hagain,
      hmerged⟩

/-- The texts of a root file and of a file with a unit, whose name would suit another unit, too. -/
def ambiguousTexts : List (String × String) :=
  [("c.json", "\x7b\"organizational-units\":\x7b\"__LOAD\":[\"A_B.json\"]\x7d\x7d"),
    ("A_B.json", "\x7b\"A/B\":\x7b\x7d\x7d")]

/-- The configuration in these files. -/
def ambiguousConfig : Workspace :=
  { unitConfig with
    ous := ⟨.load ["A_B.json"], [⟨"A_B.json", .ofList [("A/B", {})], false⟩]⟩
    workload := ⟨.inline .empty, []⟩, loadedTexts := ambiguousTexts }

/-- The configuration with that unit renamed to the other one. -/
def renamedAmbiguously : Workspace :=
  (ambiguousConfig.edit (.rename "A/B" "A_B")).toOption.get (by decide +kernel)

/-- Renaming `A/B` to `A_B` moves the file of the unit to where it is: it is written and then
removed, and the configuration cannot be loaded any more. -/
theorem reload_loses_moved_file :
    Workspace.load ((FileSet.ofTexts ambiguousTexts).fetch missingFile) "c.json" =
        .ok ambiguousConfig ∧
      ambiguousConfig.paths.Nodup ∧
      [Edit.rename "A/B" "A_B"].foldlM Workspace.edit ambiguousConfig = .ok renamedAmbiguously ∧
      renamedAmbiguously.ReadsBack ∧
      ∃ cs, renamedAmbiguously.changes = .ok cs ∧
        Workspace.load (((FileSet.ofTexts ambiguousTexts).commit cs).fetch missingFile) "c.json" =
          .error (missingFile "A_B.json") := by
  have hreads : renamedAmbiguously.ReadsBack := by
    refine Workspace.readsBack_of_files (by decide +kernel) (by decide +kernel) fun s => ?_
    cases s with
    | mandatory => decide +kernel
    | workload => decide +kernel
  refine ⟨by decide +kernel, by decide +kernel, by decide +kernel, hreads,
    renamedAmbiguously.changes.toOption.get (by decide +kernel), by decide +kernel,
    by decide +kernel⟩

end OrgAlign.Config
