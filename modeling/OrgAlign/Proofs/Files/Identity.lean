import OrgAlign.Proofs.Files.Clients
import OrgAlign.Proofs.Files.Texts

/-!
# What a head identifies

The head is the digest of the visible files in order of their paths, so trees with the same visible
files have the same head, in whatever order their folders list them. The other way round it takes
that no text has a zero character: a zero byte is all that ends a path and a text in the stream, so
a text with zeros can stand for a text, a path and another text. Main statements:

* `Repository.head?_congr_texts`: a head stays while the visible texts do;
* `Repository.identifies_files`: two trees have the same stream, and where digests do not collide
  the same head, if and only if they have the same files;
* `Repository.two_trees_one_head`: two trees with the same head, one of them with zeros in a text.
-/

namespace OrgAlign.Files

open Disk

namespace Repository

variable {r r' : Repository} {d d' : Disk} {files files' : List (List String × String)}

/-- The contents are the files below the place that the folder's path leads to, if a folder is
there. -/
theorem mem_contents?_iff (hd : d.Sound) (h : r.contents? d = some files)
    {f : List String × String} : f ∈ files ↔
      (∃ p, d.locate? r.folder = some p ∧ d.isFolder p = true) ∧ f.1 ≠ [] ∧
        d.textAt? (d.leads r.folder ++ f.1) = some f.2 := by
  rw [textAt?_eq_some_iff]
  constructor
  · intro hf
    obtain ⟨base, hbase, hfolder, rfl⟩ := exists_folder_of_mem h hf
    rw [← locate?_eq_leads hbase]
    exact ⟨⟨base, hbase, hfolder⟩, hd.mem_filesBelow_iff.1 hf⟩
  · rintro ⟨⟨base, hbase, hfolder⟩, hfile⟩
    rw [← locate?_eq_leads hbase] at hfile
    rw [Option.some.inj (h.symm.trans (contents?_of_folder hbase hfolder))]
    exact hd.mem_filesBelow_iff.2 hfile

/-- Unless a file is where the folder should be, there are contents. -/
theorem exists_contents? (h : d.textAt? (d.leads r.folder) = none) :
    ∃ files, r.contents? d = some files := by
  unfold contents?
  split
  · exact ⟨_, rfl⟩
  · rename_i p hp
    split
    · exact ⟨_, rfl⟩
    · exact ⟨_, rfl⟩
    · rename_i text hfile
      rw [← locate?_eq_leads hp, textAt?_eq_some_iff.2 hfile] at h
      cases h

/-- The folder of the repository is there, or nothing is where it would be. -/
def Grounded (r : Repository) (d : Disk) : Prop :=
  (∃ p, d.locate? r.folder = some p ∧ d.isFolder p = true) ∨
    ∀ steps, d.textAt? (d.leads r.folder ++ steps) = none

/-- **The head stays while the texts of visible files do.** -/
theorem head?_congr_texts (hd : d.Sound) (hd' : d'.Sound) (hextends : Extends d d')
    (hground : r.Grounded d)
    (htexts : ∀ steps, (∀ name ∈ steps, isHidden name = false) →
      d'.textAt? (d.leads r.folder ++ steps) = d.textAt? (d.leads r.folder ++ steps)) :
    r.head? d' = r.head? d := by
  have hleads := hextends.leads r.folder
  have hnone : d.textAt? (d.leads r.folder) = none := by
    rcases hground with ⟨p, hp, hfolder⟩ | hnothing
    · rw [← locate?_eq_leads hp]
      exact textAt?_of_isFolder hfolder
    · have := hnothing []
      rwa [List.append_nil] at this
  have hnone' : d'.textAt? (d'.leads r.folder) = none := by
    have := htexts [] fun name hname => absurd hname List.not_mem_nil
    rw [List.append_nil, hnone] at this
    rw [hleads, this]
  obtain ⟨files, hfiles⟩ := exists_contents? hnone
  obtain ⟨files', hfiles'⟩ := exists_contents? hnone'
  unfold head?
  rw [hfiles, hfiles', Option.map_some, Option.map_some]
  congr 3
  refine visibleFiles_congr (tidy_of_contents? hd' hfiles') (tidy_of_contents? hd hfiles) ?_
  intro f
  rw [mem_contents?_iff hd' hfiles', mem_contents?_iff hd hfiles, hleads]
  refine and_congr_left fun hvisible => ?_
  rw [htexts f.1 hvisible]
  rcases hground with ⟨p, hp, hfolder⟩ | hnothing
  · have hthere : ∃ p, d.locate? r.folder = some p ∧ d.isFolder p = true := ⟨p, hp, hfolder⟩
    have hthere' : ∃ p, d'.locate? r.folder = some p ∧ d'.isFolder p = true :=
      ⟨p, hextends.locate? hp, hextends.isFolder p hfolder⟩
    simp only [hthere, hthere', true_and]
  · simp [hnothing]

/-- **Two trees have the same stream if and only if they have the same files**, where none is hidden
and no text has a zero character; unless digests collide, they have the same head if and only if
that is so. -/
theorem identifies_files (hd : d.Sound) (hd' : d'.Sound) (h : r.contents? d = some files)
    (h' : r'.contents? d' = some files') (hopen : ∀ f ∈ files, IsVisible f)
    (hopen' : ∀ f ∈ files', IsVisible f) (hfree : ∀ f ∈ files, ZeroFree f.2)
    (hfree' : ∀ f ∈ files', ZeroFree f.2) :
    (r.bytes? d = r'.bytes? d' ↔ ∀ f, f ∈ files ↔ f ∈ files') ∧
      ((∀ bytes bytes', r.bytes? d = some bytes → r'.bytes? d' = some bytes' →
          Sha256.hexDigest bytes = Sha256.hexDigest bytes' → bytes = bytes') →
        (r.head? d = r'.head? d' ↔ ∀ f, f ∈ files ↔ f ∈ files')) := by
  have htidy := tidy_of_contents? hd h
  have htidy' := tidy_of_contents? hd' h'
  have hstream : r.bytes? d = r'.bytes? d' ↔ ∀ f, f ∈ files ↔ f ∈ files' := by
    unfold bytes?
    rw [h, h', Option.map_some, Option.map_some, Option.some_inj]
    constructor
    · intro hbytes f
      have hsame := stream_injective (zeroFree_visibleFiles htidy fun f hf _ => hfree f hf)
        (zeroFree_visibleFiles htidy' fun f hf _ => hfree' f hf) hbytes
      exact ⟨fun hf => mem_of_visibleFiles_eq htidy htidy' hsame hf (hopen f hf),
        fun hf => mem_of_visibleFiles_eq htidy' htidy hsame.symm hf (hopen' f hf)⟩
    · intro hsame
      rw [visibleFiles_congr htidy htidy' fun f => and_congr_left fun _ => hsame f]
  refine ⟨hstream, fun hcollision => ?_⟩
  rw [← hstream, head?_eq, head?_eq]
  unfold bytes? at hcollision ⊢
  rw [h, h', Option.map_some, Option.map_some] at hcollision ⊢
  rw [Option.map_some, Option.map_some, Option.some_inj, Option.some_inj]
  exact ⟨hcollision _ _ rfl rfl, fun hbytes => by rw [hbytes]⟩

/-! ### Two trees -/

/-- A folder that two folders of files stand in. -/
def shelves : Disk :=
  { nodes := [(["new"], .folder), (["old"], .folder), (["new", "b"], .folder),
      (["new", "b", "c"], .file "1\n"), (["old", "a"], .file "0\n"), (["new", "a"], .file "0\n"),
      (["old", "b"], .folder), (["old", "b", "c"], .file "2\n")] }

theorem identifies_files_shelves :
    let old : Repository := ⟨"config", "/old"⟩
    let new : Repository := ⟨"config", "/new"⟩
    ∃ files files', old.contents? shelves = some files ∧ new.contents? shelves = some files' ∧
      (∀ f ∈ files, IsVisible f ∧ ZeroFree f.2) ∧ (∀ f ∈ files', IsVisible f ∧ ZeroFree f.2) ∧
      ((old.bytes? shelves = new.bytes? shelves ↔ ∀ f, f ∈ files ↔ f ∈ files') ∧
        ((∀ bytes bytes', old.bytes? shelves = some bytes → new.bytes? shelves = some bytes' →
            Sha256.hexDigest bytes = Sha256.hexDigest bytes' → bytes = bytes') →
          (old.head? shelves = new.head? shelves ↔ ∀ f, f ∈ files ↔ f ∈ files'))) := by
  intro old new
  let files : List (List String × String) := [(["a"], "0\n"), (["b", "c"], "2\n")]
  let files' : List (List String × String) := [(["b", "c"], "1\n"), (["a"], "0\n")]
  have hsound : shelves.Sound := by decide +kernel
  have hfiles : old.contents? shelves = some files := by decide +kernel
  have hfiles' : new.contents? shelves = some files' := by decide +kernel
  have hopen : ∀ f ∈ files, IsVisible f ∧ ZeroFree f.2 := by decide +kernel
  have hopen' : ∀ f ∈ files', IsVisible f ∧ ZeroFree f.2 := by decide +kernel
  refine ⟨files, files', hfiles, hfiles', hopen, hopen', ?_⟩
  exact identifies_files hsound hsound hfiles hfiles' (fun f hf => (hopen f hf).1)
    (fun f hf => (hopen' f hf).1) (fun f hf => (hopen f hf).2) fun f hf => (hopen' f hf).2

/-- Two trees of one and of two files that have the same stream, and so the same head: zeros in a
text pass for the ends of a text and of a path. -/
theorem two_trees_one_head :
    let r : Repository := ⟨"config", "/repo"⟩
    let one : Disk := { nodes := [(["repo"], .folder), (["repo", "a"], .file "x\x00b\x00y")] }
    let two : Disk := { nodes := [(["repo"], .folder), (["repo", "a"], .file "x"),
      (["repo", "b"], .file "y")] }
    r.contents? one = some [(["a"], "x\x00b\x00y")] ∧
      r.contents? two = some [(["a"], "x"), (["b"], "y")] ∧
      (r.bytes? one).isSome = true ∧ r.bytes? one = r.bytes? two ∧ r.head? one = r.head? two := by
  intro r one two
  have hbytes : r.bytes? one = r.bytes? two := by decide +kernel
  refine ⟨by decide +kernel, by decide +kernel, by decide +kernel, hbytes, ?_⟩
  rw [head?_eq, head?_eq, hbytes]

end Repository
end OrgAlign.Files
