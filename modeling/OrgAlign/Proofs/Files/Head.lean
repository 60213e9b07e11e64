import OrgAlign.Files.Repository
import OrgAlign.Proofs.Files.Outside
import OrgAlign.Proofs.State.Store

/-!
# The head of a repository

The head stands for the files in the repository's folder, so only what happens there moves it. Main
statements:

* `getFile_eq_ok`: a file is read of the head alone;
* `commit_eq_ok`, `commit_eq_noOp`: a commit answers with the head after it, and one that changes
  nothing leaves the disk as it is;
* `StateStore.head?_publish`: publishing a state outside the folder leaves the head.
-/

namespace OrgAlign.Files.Repository

open Org Disk

variable {r : Repository} {d d' : Disk}

/-! ### Reading -/

/-- A request can be met iff it is about this repository and its head. -/
theorem obstacle?_eq_none {op : Operation} {repository commit : String} :
    r.obstacle? d op repository commit = none ↔
      repository = r.name ∧ r.head? d = some commit := by
  unfold obstacle?
  by_cases hname : repository = r.name
  · rw [if_neg (not_not.2 hname)]
    cases hhead : r.head? d with
    | none => simp
    | some head =>
      by_cases hcommit : commit = head
      · simp [hname, hcommit]
      · simp [hcommit, Ne.symm hcommit]
  · simp [hname]

/-- A file is read of the head, from the repository's folder. -/
theorem getFile_eq_ok {repository path commit text : String}
    (h : r.getFile d repository path commit = .ok text) :
    r.head? d = some commit ∧ d.read? (r.pathOf path) = some text := by
  unfold getFile at h
  split at h
  · cases h
  rename_i hnone
  split at h
  · split at h
    · rename_i hread
      cases h
      exact ⟨(obstacle?_eq_none.1 hnone).2, hread⟩
    · cases h
  · cases h

/-! ### Committing -/

theorem putAll_extends {puts : List (String × String)} (h : r.putAll puts d = (true, d')) :
    Extends d d' := by
  induction puts generalizing d with
  | nil =>
    obtain rfl := (Prod.mk.inj h).2
    exact Extends.refl d
  | cons put puts ih =>
    unfold putAll at h
    split at h
    · rename_i hreplace
      exact (replace_extends hreplace).trans (ih h)
    · cases h

/-- Removing files leaves the folders. -/
theorem deleteAll_sameFolders {deletes : List String} {done : Bool}
    (h : r.deleteAll deletes d = (done, d')) : SameFolders d d' := by
  induction deletes generalizing d with
  | nil =>
    obtain rfl := (Prod.mk.inj h).2
    exact ⟨rfl, rfl⟩
  | cons path deletes ih =>
    unfold deleteAll at h
    split at h
    · split at h
      · rename_i hremove
        obtain ⟨p, -, hp, rfl⟩ := remove?_eq_some hremove
        exact (sameFolders_erase hp).trans (ih h)
      · obtain rfl := (Prod.mk.inj h).2
        exact ⟨rfl, rfl⟩
    · exact ih h

/-- Carrying a request out never takes a folder away. -/
theorem carryOut_extends {request : CommitRequest} (h : r.carryOut request d = (true, d')) :
    Extends d d' := by
  unfold carryOut at h
  split at h
  · rename_i hput
    exact (putAll_extends hput).trans (deleteAll_sameFolders h).extends
  · cases h

/-- A commit answers with the head that the repository has after it. -/
theorem commit_eq_ok {repository id : String} {request : CommitRequest}
    (h : r.commit d repository request = (.ok id, d')) :
    Extends d d' ∧ r.head? d' = some id := by
  unfold commit at h
  split at h
  · cases h
  split at h
  swap
  · cases h
  split at h
  · cases h
  rename_i hcarry
  split at h
  · rename_i hhead
    cases h
    exact ⟨carryOut_extends hcarry, hhead⟩
  · cases h

/-- A commit that changes nothing leaves the disk as it is. -/
theorem commit_eq_noOp {repository : String} {request : CommitRequest} {e : ClientError}
    (h : r.commit d repository request = (.error e, d')) (he : e.isNoOp = true) : d' = d := by
  unfold commit at h
  split at h
  · cases h
    rfl
  split at h
  swap
  · cases h
    rfl
  split at h
  · cases h
    cases he
  split at h
  · cases h
  · cases h
    cases he

/-! ### What moves the head -/

/-- The head follows from the files of the folder. -/
theorem head?_congr (hextends : Extends d d') {p : Place} (hp : d.locate? r.folder = some p)
    (hfolder : d.isFolder p = true) (hfiles : d'.filesBelow p = d.filesBelow p) :
    r.head? d' = r.head? d := by
  have hthere : d.at? p = some .folder := of_decide_eq_true hfolder
  have hthere' : d'.at? p = some .folder := of_decide_eq_true (hextends.isFolder p hfolder)
  unfold head? contents?
  simp only [hp, hextends.locate? hp, hthere, hthere', hfiles]

/-- A repository without a folder has the same head on every disk. -/
theorem head?_of_no_folder (h : r.folder = "") (d d' : Disk) : r.head? d' = r.head? d := by
  have hnowhere : ∀ d : Disk, d.locate? r.folder = none := by
    intro d
    rw [h]
    rfl
  unfold head? contents?
  rw [hnowhere d, hnowhere d']

/-- Where a repository has a head, what is at its folder's path is a folder. -/
theorem exists_folder (hthere : d.isThere r.folder = true) (hhead : (r.head? d).isSome = true) :
    ∃ p, d.locate? r.folder = some p ∧ d.isFolder p = true := by
  obtain ⟨p, hp, hn⟩ := isThere_iff.1 hthere
  obtain ⟨n, hnode⟩ := Option.isSome_iff_exists.1 hn
  refine ⟨p, hp, ?_⟩
  cases n with
  | folder => simp [isFolder, hnode]
  | file text =>
    unfold head? contents? at hhead
    simp [hp, hnode] at hhead

end OrgAlign.Files.Repository

namespace OrgAlign.StateStore

open Files Disk

variable {s : StateStore} {r : Repository} {d d' : Disk}

/-- The temporary file is beside the state's file. -/
theorem exists_leads (s : StateStore) (d : Disk) : ∃ folder name,
    d.leads s.path = folder ++ [name] ∧
      d.leads (temporary s.path) = folder ++ [name ++ ".tmp"] := by
  have hpath : s.path = under (under s.home StateStore.folder) s.organization ++ ".json" :=
    under_append _ _ (by decide)
  obtain ⟨folder, last, hleads⟩ :=
    d.exists_leads_append (under (under s.home StateStore.folder) s.organization)
  refine ⟨folder, last ++ ".json", ?_, ?_⟩
  · rw [hpath]
    exact hleads ".json" (by decide) (by decide)
  · unfold temporary
    rw [hpath, String.append_assoc, String.append_assoc]
    exact hleads (".json" ++ ".tmp") (by decide) (by decide)

/-- **Publishing a state outside a repository's folder leaves the head.** -/
theorem head?_publish {state : PublishedState} (h : s.publish d state = (.ok (), d')) {p : Place}
    (hp : d.locate? r.folder = some p) (hfolder : d.isFolder p = true)
    (hout : ¬ p <+: d.leads s.path) : r.head? d' = r.head? d := by
  have hreplace := publish_eq_ok.1 h
  obtain ⟨folder, name, hpath, htemporary⟩ := s.exists_leads d
  refine Repository.head?_congr (replace_extends hreplace) hp hfolder ?_
  refine filesBelow_replace hreplace hfolder hout fun hbelow => ?_
  -- what leads to the temporary file, but not to the state's file, is its own place
  rw [htemporary] at hbelow ⊢
  rcases List.prefix_concat_iff.1 hbelow with hsame | habove
  · exact hsame
  · rw [hpath] at hout
    exact absurd (habove.trans (List.prefix_append folder [name])) hout

end OrgAlign.StateStore
