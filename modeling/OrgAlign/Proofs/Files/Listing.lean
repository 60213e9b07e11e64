import OrgAlign.Proofs.Files.Sound
import OrgAlign.Proofs.Sorting

/-!
# Listing the files of a repository

What a head is taken of is a list: the visible files of the repository's folder, each with its path
as one text, in order of these texts. Main statements:

* `visibleFiles_congr`: the same visible files are listed in the same way;
* `mem_of_visibleFiles_eq`: lists that are the same are of the same visible files;
* `Repository.tidy_of_contents?`: the files of a repository's folder can be listed so.
-/

namespace OrgAlign.Files

open Disk

variable {files files' : List (List String × String)}

/-! ### Visible files -/

/-- A list of files in which every path stands once and is made of names of files. -/
structure Tidy (files : List (List String × String)) : Prop where
  /-- Every path stands once. -/
  nodup : (files.map Prod.fst).Nodup
  /-- The names on the way can be names of files. -/
  names : ∀ f ∈ files, ∀ name ∈ f.1, IsFileName name

/-- No name on the way to the file is hidden. -/
def IsVisible (f : List String × String) : Prop := ∀ name ∈ f.1, isHidden name = false

instance : DecidablePred IsVisible := fun _ => inferInstanceAs (Decidable (∀ _ ∈ _, _))

/-- The visible files by path. -/
theorem mem_visibleFiles {f : String × String} : f ∈ visibleFiles files ↔
    ∃ steps text, (steps, text) ∈ files ∧ IsVisible (steps, text) ∧
      f = (String.intercalate "/" steps, text) := by
  unfold visibleFiles IsVisible
  rw [Sorting.mem_sort, List.mem_map]
  constructor
  · rintro ⟨⟨steps, text⟩, hmem, rfl⟩
    obtain ⟨hfile, hvisible⟩ := List.mem_filter.1 hmem
    exact ⟨steps, text, hfile, by simpa using hvisible, rfl⟩
  · rintro ⟨steps, text, hfile, hvisible, rfl⟩
    exact ⟨(steps, text), List.mem_filter.2 ⟨hfile, by simpa using hvisible⟩, rfl⟩

/-- **The same visible files are listed in the same way**, whatever the order before. -/
theorem visibleFiles_congr (h : Tidy files) (h' : Tidy files')
    (hsame : ∀ f, f ∈ files ∧ IsVisible f ↔ f ∈ files' ∧ IsVisible f) :
    visibleFiles files = visibleFiles files' := by
  have hvisible : ∀ f : List String × String, (!f.1.any isHidden) = true ↔ IsVisible f := by
    intro f
    simp [IsVisible]
  have hnodup : ∀ {files : List (List String × String)}, Tidy files →
      (files.filter fun f => !f.1.any isHidden).Nodup :=
    fun h => (List.Nodup.of_map Prod.fst h.nodup).sublist List.filter_sublist
  have hperm : (files.filter fun f => !f.1.any isHidden).Perm
      (files'.filter fun f => !f.1.any isHidden) := by
    rw [List.perm_ext_iff_of_nodup (hnodup h) (hnodup h')]
    intro f
    rw [List.mem_filter, List.mem_filter, hvisible]
    exact hsame f
  unfold visibleFiles
  refine Sorting.sort_eq_of_perm (fun a b => Sorting.textBefore_asymm a.1 b.1)
    (fun a b c => Sorting.textBefore_trans a.1 b.1 c.1) (hperm.map _) ?_
  -- files of which neither path comes before the other are the same file
  intro a ha b hb hab hba
  obtain ⟨f, hf, rfl⟩ := List.mem_map.1 ha
  obtain ⟨g, hg, rfl⟩ := List.mem_map.1 hb
  have hf' := (List.mem_filter.1 hf).1
  have hg' := (List.mem_filter.1 hg).1
  have hpath : String.intercalate "/" f.1 = String.intercalate "/" g.1 :=
    le_antisymm (Sorting.textBefore_eq_false.1 hab) (Sorting.textBefore_eq_false.1 hba)
  have hsteps : f.1 = g.1 := intercalate_injective (h.names f hf') (h.names g hg') hpath
  rw [List.inj_on_of_nodup_map h.nodup hf' hg' hsteps]

/-- Lists of visible files that are the same have the same files. -/
theorem mem_of_visibleFiles_eq (h : Tidy files) (h' : Tidy files')
    (hsame : visibleFiles files = visibleFiles files') {f : List String × String} (hf : f ∈ files)
    (hvisible : IsVisible f) : f ∈ files' := by
  have hlisted : (String.intercalate "/" f.1, f.2) ∈ visibleFiles files' :=
    hsame ▸ mem_visibleFiles.2 ⟨f.1, f.2, hf, hvisible, rfl⟩
  obtain ⟨steps, text, hmem, -, heq⟩ := mem_visibleFiles.1 hlisted
  obtain ⟨hpath, htext⟩ := Prod.mk.inj heq
  have hsteps : f.1 = steps := intercalate_injective (h.names f hf) (h'.names _ hmem) hpath
  have hfile : f = (steps, text) := Prod.ext hsteps htext
  exact hfile ▸ hmem

/-- Where the texts of visible files have no zero character, neither they nor the paths have one. -/
theorem zeroFree_visibleFiles (h : Tidy files)
    (hfree : ∀ f ∈ files, IsVisible f → ZeroFree f.2) :
    ∀ f ∈ visibleFiles files, ZeroFree f.1 ∧ ZeroFree f.2 := by
  intro f hf
  obtain ⟨steps, text, hfile, hvisible, rfl⟩ := mem_visibleFiles.1 hf
  exact ⟨zeroFree_intercalate (h.names _ hfile), hfree _ hfile hvisible⟩

/-! ### Files below a folder -/

/-- Every place stands once among the files below a folder. -/
theorem Disk.Sound.nodup_filesBelow {d : Disk} (hd : d.Sound) (base : Place) :
    ((d.filesBelow base).map Prod.fst).Nodup := by
  have hsublist : ∀ nodes : List (Place × Node),
      (((Disk.filesBelow { d with nodes := nodes } base).map Prod.fst).map (base ++ ·)).Sublist
        (nodes.map Prod.fst) := by
    intro nodes
    induction nodes with
    | nil => exact List.Sublist.refl _
    | cons e nodes ih =>
      unfold filesBelow at ih ⊢
      rw [List.filterMap_cons]
      split
      · exact ih.trans (List.sublist_cons_self _ _)
      · rename_i file hfile
        split at hfile
        · rename_i hbelow
          cases hfile
          obtain ⟨-, heq⟩ := below?_eq_some_iff.1 hbelow
          rw [List.map_cons, List.map_cons, List.map_cons, heq]
          exact ih.cons_cons _
        · cases hfile
  exact (hd.nodup.sublist (hsublist d.nodes)).of_map

namespace Repository

variable {r : Repository} {d : Disk}

/-- Where the folder is there, its files are the contents. -/
theorem contents?_of_folder {base : Place} (hbase : d.locate? r.folder = some base)
    (hfolder : d.isFolder base = true) : r.contents? d = some (d.filesBelow base) := by
  have hthere : d.at? base = some .folder := of_decide_eq_true hfolder
  unfold contents?
  simp only [hbase, hthere]

/-- Where there are files, the folder is there. -/
theorem exists_folder_of_mem (h : r.contents? d = some files) {f : List String × String}
    (hf : f ∈ files) : ∃ base, d.locate? r.folder = some base ∧ d.isFolder base = true ∧
      files = d.filesBelow base := by
  unfold contents? at h
  split at h
  · cases h
    exact absurd hf List.not_mem_nil
  · rename_i base hbase
    split at h
    · cases h
      exact absurd hf List.not_mem_nil
    · rename_i hfolder
      cases h
      exact ⟨base, hbase, decide_eq_true hfolder, rfl⟩
    · cases h

/-- The names on the way to a file of the contents can be names of files. -/
theorem names_of_mem (hd : d.Sound) (h : r.contents? d = some files) {steps : List String}
    {text : String} (hfile : (steps, text) ∈ files) : ∀ name ∈ steps, IsFileName name := by
  obtain ⟨base, -, -, rfl⟩ := exists_folder_of_mem h hfile
  obtain ⟨hne, hthere⟩ := hd.mem_filesBelow_iff.1 hfile
  have hmem := (hd.at?_eq_some_iff (by simp [hne])).1 hthere
  exact fun name hname => hd.names _ hmem name (List.mem_append_right base hname)

/-- What a repository's folder holds is tidy. -/
theorem tidy_of_contents? (hd : d.Sound) (h : r.contents? d = some files) : Tidy files := by
  refine ⟨?_, fun f hf => names_of_mem hd h hf⟩
  cases files with
  | nil => exact List.nodup_nil
  | cons f files =>
    obtain ⟨base, -, -, heq⟩ := exists_folder_of_mem h List.mem_cons_self
    rw [heq]
    exact hd.nodup_filesBelow base

end Repository
end OrgAlign.Files
