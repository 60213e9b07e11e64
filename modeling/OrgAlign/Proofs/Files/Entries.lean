import OrgAlign.Proofs.Files.Head
import OrgAlign.Proofs.Files.Texts

/-!
# The entries of a request

A request is carried out entry by entry: files are written, then others are removed, and the first
entry that cannot be carried out ends it. What it asks for is an update of the texts for each entry
(`Entry.apply`); a file that is written leaves nothing at the place of its temporary file, either
(`Repository.written`). Main statements:

* `textAt?_putAll`, `textAt?_deleteAll`: the texts after files were written, and removed;
* `not_isThere_of_deleteAll`: what was removed is not there any more;
* `putAll_halts`, `deleteAll_halts`: where writing and removing ends early, the entries before the
  one that failed were carried out.
-/

namespace OrgAlign.Files

open Disk
open Function (update)

/-- An entry of a request: the text that the file at a path is to have, none if it is to go. -/
structure Entry where
  /-- The path. -/
  path : String
  /-- The text. -/
  text? : Option String
deriving DecidableEq, Repr

namespace Entry

/-- A file to be written. -/
def put (f : String × String) : Entry := ⟨f.1, some f.2⟩

/-- A file to be removed. -/
def delete (path : String) : Entry := ⟨path, none⟩

/-- The texts after an entry was carried out to the letter, on a disk with the folders that say
where its path leads. -/
def apply (r : Repository) (d : Disk) (texts : Place → Option String) (e : Entry) :
    Place → Option String :=
  match d.locate? (r.pathOf e.path) with
  | some p => update texts p e.text?
  | none => texts

variable {r : Repository} {d : Disk} {texts texts' : Place → Option String} {p : Place}

theorem apply_of_locate? {e : Entry} (h : d.locate? (r.pathOf e.path) = some p) :
    e.apply r d texts = update texts p e.text? := by
  unfold apply
  rw [h]

/-- An entry whose path leads nowhere asks for nothing. -/
theorem apply_of_nowhere {e : Entry} (h : d.locate? (r.pathOf e.path) = none) :
    e.apply r d texts = texts := by
  unfold apply
  rw [h]

/-- What entries say of a place depends on the text there only. -/
theorem foldl_apply_congr (h : texts p = texts' p) (entries : List Entry) :
    entries.foldl (apply r d) texts p = entries.foldl (apply r d) texts' p := by
  induction entries generalizing texts texts' with
  | nil => exact h
  | cons e entries ih =>
    refine ih ?_
    rcases hq : d.locate? (r.pathOf e.path) with _ | q
    · rw [apply_of_nowhere hq, apply_of_nowhere hq, h]
    · rw [apply_of_locate? hq, apply_of_locate? hq, Function.update_apply, Function.update_apply, h]

/-- Entries leave the places that their paths do not lead to. -/
theorem foldl_apply_of_ne {entries : List Entry}
    (h : ∀ e ∈ entries, p ≠ d.leads (r.pathOf e.path)) :
    entries.foldl (apply r d) texts p = texts p := by
  induction entries generalizing texts with
  | nil => rfl
  | cons e entries ih =>
    obtain ⟨he, hentries⟩ := List.forall_mem_cons.1 h
    refine (ih hentries).trans ?_
    rcases hq : d.locate? (r.pathOf e.path) with _ | q
    · rw [apply_of_nowhere hq]
    · rw [apply_of_locate? hq]
      exact Function.update_of_ne (locate?_eq_leads hq ▸ he) _ _

end Entry

/-- The entries of a request, in the order in which they are carried out. -/
def CommitRequest.entries (request : CommitRequest) : List Entry :=
  request.puts.map Entry.put ++ request.deletes.map Entry.delete

namespace Repository

variable {r : Repository} {d d' d'' : Disk} {p : Place}

/-! ### Writing files -/

/-- Where a path of the repository says that it leads. -/
def placeOf (r : Repository) (d : Disk) (path : String) : Place := d.leads (r.pathOf path)

/-- Where the temporary file for a path of the repository is. -/
def asideOf (r : Repository) (d : Disk) (path : String) : Place :=
  d.leads (temporary (r.pathOf path))

/-- The texts after a file was written: nothing is left of the temporary file. -/
def written (r : Repository) (d : Disk) (texts : Place → Option String) (f : String × String) :
    Place → Option String :=
  update (update texts (r.asideOf d f.1) none) (r.placeOf d f.1) (some f.2)

/-- Places are read off the path and the current folder alone. -/
theorem written_congr (h : Extends d d') : r.written d' = r.written d := by
  unfold written placeOf asideOf
  simp only [h.leads]

/-- **The texts after files were written.** -/
theorem textAt?_putAll {puts : List (String × String)} (h : r.putAll puts d = (true, d')) :
    d'.textAt? = puts.foldl (r.written d) d.textAt? := by
  induction puts generalizing d with
  | nil =>
    obtain rfl := (Prod.mk.inj h).2
    rfl
  | cons put puts ih =>
    unfold putAll at h
    split at h
    · rename_i replaced hreplace
      rw [ih h, written_congr (replace_extends hreplace), textAt?_replaced hreplace]
      rfl
    · cases h

/-- The paths of files that were written lead to their places, also when more folders are made. -/
theorem locate?_of_putAll {puts : List (String × String)} (h : r.putAll puts d = (true, d'))
    (hlater : Extends d' d'') {put : String × String} (hput : put ∈ puts) :
    d''.locate? (r.pathOf put.1) = some (r.placeOf d put.1) := by
  induction puts generalizing d with
  | nil => exact absurd hput List.not_mem_nil
  | cons first puts ih =>
    unfold putAll at h
    split at h
    · rename_i replaced hreplace
      rcases List.mem_cons.1 hput with rfl | hput
      · exact ((putAll_extends h).trans hlater).locate? (locate?_replaced hreplace).1
      · rw [ih h hput]
        unfold placeOf
        rw [(replace_extends hreplace).leads]
    · cases h

/-- Writing files leaves the places that neither they nor their temporary files are at. -/
theorem foldl_written_of_ne {puts : List (String × String)} {texts : Place → Option String}
    (hplace : ∀ put ∈ puts, p ≠ r.placeOf d put.1) (haside : ∀ put ∈ puts, p ≠ r.asideOf d put.1) :
    puts.foldl (r.written d) texts p = texts p := by
  induction puts generalizing texts with
  | nil => rfl
  | cons put puts ih =>
    obtain ⟨hput, hplace⟩ := List.forall_mem_cons.1 hplace
    obtain ⟨hput', haside⟩ := List.forall_mem_cons.1 haside
    refine (ih hplace haside).trans ?_
    unfold written
    rw [Function.update_of_ne hput, Function.update_of_ne hput']

/-- Where there is no file, only a file that is written there makes one. -/
theorem foldl_written_eq_none {puts : List (String × String)} {texts : Place → Option String}
    (h : texts p = none) (hplace : ∀ put ∈ puts, p ≠ r.placeOf d put.1) :
    puts.foldl (r.written d) texts p = none := by
  induction puts generalizing texts with
  | nil => exact h
  | cons put puts ih =>
    obtain ⟨hput, hplace⟩ := List.forall_mem_cons.1 hplace
    refine ih ?_ hplace
    unfold written
    rw [Function.update_of_ne hput, Function.update_apply, h, ite_self]

/-- Apart from the places of temporary files, writing files does what their entries say. -/
theorem foldl_written_eq_apply {puts : List (String × String)} {texts : Place → Option String}
    (hlocate : ∀ put ∈ puts, d'.locate? (r.pathOf put.1) = some (r.placeOf d put.1))
    (haside : ∀ put ∈ puts, p ≠ r.asideOf d put.1) :
    puts.foldl (r.written d) texts p =
      (puts.map Entry.put).foldl (Entry.apply r d') texts p := by
  induction puts generalizing texts with
  | nil => rfl
  | cons put puts ih =>
    obtain ⟨hput, hlocate⟩ := List.forall_mem_cons.1 hlocate
    obtain ⟨hput', haside⟩ := List.forall_mem_cons.1 haside
    refine (ih hlocate haside).trans (Entry.foldl_apply_congr ?_ _)
    rw [Entry.apply_of_locate? (e := Entry.put put) hput]
    unfold written
    rw [Function.update_apply, Function.update_of_ne hput', Function.update_apply]
    rfl

/-- So where files were written, the texts are those of their entries. -/
theorem textAt?_putAll_apply {puts : List (String × String)} (h : r.putAll puts d = (true, d'))
    (hlater : Extends d' d'') (haside : ∀ put ∈ puts, p ≠ r.asideOf d put.1) :
    d'.textAt? p = (puts.map Entry.put).foldl (Entry.apply r d'') d.textAt? p := by
  rw [textAt?_putAll h]
  exact foldl_written_eq_apply (fun put hput => locate?_of_putAll h hlater hput) haside

/-- Where files cannot all be written, those before the first that fails are. -/
theorem putAll_halts {puts : List (String × String)} (h : r.putAll puts d = (false, d')) :
    ∃ before put after d₁, puts = before ++ put :: after ∧ r.putAll before d = (true, d₁) ∧
      d₁.replace (r.pathOf put.1) put.2 = (false, d') := by
  induction puts generalizing d with
  | nil => cases h
  | cons put puts ih =>
    unfold putAll at h
    split at h
    · rename_i replaced hreplace
      obtain ⟨before, put', after, d₁, rfl, hbefore, hfail⟩ := ih h
      refine ⟨put :: before, put', after, d₁, rfl, ?_, hfail⟩
      unfold putAll
      rw [hreplace]
      exact hbefore
    · rename_i replaced hreplace
      obtain rfl := (Prod.mk.inj h).2
      exact ⟨[], put, puts, d, rfl, rfl, hreplace⟩

/-! ### Removing files -/

/-- **The texts after files were removed.** -/
theorem textAt?_deleteAll {deletes : List String} (h : r.deleteAll deletes d = (true, d')) :
    d'.textAt? = (deletes.map Entry.delete).foldl (Entry.apply r d') d.textAt? := by
  induction deletes generalizing d with
  | nil =>
    obtain rfl := (Prod.mk.inj h).2
    rfl
  | cons path deletes ih =>
    have hlocate := locate?_congr (deleteAll_sameFolders h) (r.pathOf path)
    unfold deleteAll at h
    split at h
    · split at h
      · rename_i hremove
        obtain ⟨p, hp, hfile, rfl⟩ := remove?_eq_some hremove
        rw [ih h, textAt?_erase (ne_nil_of_not_isFolder hfile), List.map_cons, List.foldl_cons,
          Entry.apply_of_locate? (e := Entry.delete path) (hlocate.trans hp)]
        rfl
      · cases h
    · rename_i hthere
      rw [ih h, List.map_cons, List.foldl_cons]
      -- what is not there has no text to be removed
      congr 1
      rcases hp : d'.locate? (r.pathOf path) with _ | p
      · exact (Entry.apply_of_nowhere (e := Entry.delete path) hp).symm
      · have hnone : d.at? p = none := by
          rw [isThere_iff, ← hlocate, hp] at hthere
          simpa using hthere
        rw [Entry.apply_of_locate? (e := Entry.delete path) hp]
        refine (Function.update_eq_self_iff.2 ?_).symm
        unfold textAt?
        rw [hnone]
        rfl

/-- Removing files brings nothing back. -/
theorem isThere_of_deleteAll {deletes : List String} {done : Bool}
    (h : r.deleteAll deletes d = (done, d')) {path : String} (hthere : d'.isThere path = true) :
    d.isThere path = true := by
  induction deletes generalizing d with
  | nil =>
    obtain rfl := (Prod.mk.inj h).2
    exact hthere
  | cons first deletes ih =>
    unfold deleteAll at h
    split at h
    · split at h
      · rename_i hremove
        obtain ⟨p, -, hfile, rfl⟩ := remove?_eq_some hremove
        obtain ⟨q, hq, hat⟩ := isThere_iff.1 (ih h)
        rw [locate?_congr (sameFolders_erase hfile)] at hq
        rw [at?_erase (ne_nil_of_not_isFolder hfile)] at hat
        split at hat
        · cases hat
        · exact isThere_iff.2 ⟨q, hq, hat⟩
      · obtain rfl := (Prod.mk.inj h).2
        exact hthere
    · exact ih h

/-- **What was removed is not there.** -/
theorem not_isThere_of_deleteAll {deletes : List String} (h : r.deleteAll deletes d = (true, d'))
    {path : String} (hpath : path ∈ deletes) : d'.isThere (r.pathOf path) = false := by
  induction deletes generalizing d with
  | nil => exact absurd hpath List.not_mem_nil
  | cons first deletes ih =>
    unfold deleteAll at h
    split at h
    · split at h
      · rename_i hremove
        rcases List.mem_cons.1 hpath with rfl | hpath
        · by_contra hthere
          have hback := isThere_of_deleteAll h (by simpa using hthere)
          obtain ⟨p, hp, hfile, rfl⟩ := remove?_eq_some hremove
          obtain ⟨q, hq, hat⟩ := isThere_iff.1 hback
          rw [locate?_congr (sameFolders_erase hfile), hp] at hq
          cases hq
          rw [at?_erase (ne_nil_of_not_isFolder hfile), if_pos rfl] at hat
          cases hat
        · exact ih h hpath
      · cases h
    · rename_i hthere
      rcases List.mem_cons.1 hpath with rfl | hpath
      · by_contra hback
        exact hthere (isThere_of_deleteAll h (by simpa using hback))
      · exact ih h hpath

/-- Where files cannot all be removed, those before the first that fails are. -/
theorem deleteAll_halts {deletes : List String} (h : r.deleteAll deletes d = (false, d')) :
    ∃ before path after, deletes = before ++ path :: after ∧
      r.deleteAll before d = (true, d') ∧ d'.remove? (r.pathOf path) = none := by
  induction deletes generalizing d with
  | nil => cases h
  | cons path deletes ih =>
    unfold deleteAll at h
    split at h
    · rename_i hthere
      split at h
      · rename_i removed hremove
        obtain ⟨before, path', after, rfl, hbefore, hfail⟩ := ih h
        refine ⟨path :: before, path', after, rfl, ?_, hfail⟩
        unfold deleteAll
        rw [if_pos hthere, hremove]
        exact hbefore
      · rename_i hremove
        obtain rfl := (Prod.mk.inj h).2
        exact ⟨[], path, deletes, rfl, rfl, hremove⟩
    · rename_i hthere
      obtain ⟨before, path', after, rfl, hbefore, hfail⟩ := ih h
      refine ⟨path :: before, path', after, rfl, ?_, hfail⟩
      unfold deleteAll
      rw [if_neg hthere]
      exact hbefore

/-! ### Carrying a request out -/

/-- A request that was carried out in full wrote its files and then removed the others. -/
theorem carryOut_eq_true {request : CommitRequest} (h : r.carryOut request d = (true, d')) :
    ∃ d₁, r.putAll request.puts d = (true, d₁) ∧ r.deleteAll request.deletes d₁ = (true, d') := by
  unfold carryOut at h
  split at h
  · rename_i d₁ hput
    exact ⟨d₁, hput, h⟩
  · cases h

end Repository
end OrgAlign.Files
