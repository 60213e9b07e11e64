import OrgAlign.Proofs.Files.Clients
import OrgAlign.Proofs.Files.Entries

/-!
# A commit does what was asked

A commit that succeeds has written every file and removed every other one that it was asked to, and
nothing else, as long as no temporary file was in the way: each file is written beside its place
first, under its own name with `.tmp` behind it, whatever is there. Main statements:

* `Normal`: paths that are spelled in one way, so that different ones lead to different places;
* `Repository.commit_as_asked`: a commit that succeeds does as it was asked if and only if it
  `Spares` the files that have a name of a temporary file;
* `Repository.commit_loses_neighbour`: it may take away another file, and one that it has written.
-/

namespace OrgAlign.Files

open Org Disk
open Function (update)

/-! ### Normal paths -/

/-- A relative path of names with single slashes between them, none of them `.` or `..`. -/
structure Normal (path : String) : Prop where
  /-- No piece between slashes is empty. -/
  proper : Path.Proper path
  /-- Each name stands for a folder or file of its own. -/
  steps : ∀ step ∈ Path.segments path, step ≠ here ∧ step ≠ above

instance : DecidablePred Normal := fun path =>
  decidable_of_iff
    (Path.Proper path ∧ ∀ step ∈ Path.segments path, step ≠ here ∧ step ≠ above)
    ⟨fun h => ⟨h.1, h.2⟩, fun h => ⟨h.proper, h.steps⟩⟩

namespace Normal

variable {path path' : String}

theorem isAbsolute (h : Normal path) : isAbsolute path = false := by
  by_contra habsolute
  rw [Bool.not_eq_false, Files.isAbsolute, decide_eq_true_eq] at habsolute
  obtain ⟨cs, hcs⟩ := List.head?_eq_some_iff.1 habsolute
  refine h.proper ?_
  rw [hcs]
  exact (Text.splitAt_append [] cs).symm ▸ List.mem_append_left _ List.mem_cons_self

theorem stepsOf (h : Normal path) : stepsOf path = Path.segments path :=
  List.filter_eq_self.2 fun step hstep => by simpa using (h.steps step hstep).1

/-- The names of a path determine it. -/
theorem eq_of_segments (h : Normal path) (h' : Normal path')
    (hsegments : Path.segments path = Path.segments path') : path = path' := by
  rw [← h.proper.foldl_join, hsegments, h'.proper.foldl_join]

/-- Steps that go down lead on. -/
theorem foldl_stepFrom {steps : List String} (h : above ∉ steps) (p : Place) :
    steps.foldl stepFrom p = p ++ steps := by
  induction steps generalizing p with
  | nil => exact (List.append_nil p).symm
  | cons step steps ih =>
    have hstep : step ≠ above := fun heq => h (heq ▸ List.mem_cons_self)
    have hsteps : above ∉ steps := fun hmem => h (List.mem_cons_of_mem step hmem)
    rw [List.foldl_cons, ih hsteps, stepFrom, if_neg hstep, List.append_assoc]
    rfl

/-- A normal path leads down from the folder that it starts in. -/
theorem leads_under (h : Normal path) (d : Disk) (folder : String) :
    d.leads (under folder path) = d.leads folder ++ Path.segments path := by
  have hsteps : above ∉ Path.segments path := fun hmem => (h.steps above hmem).2 rfl
  by_cases hfolder : folder = ""
  · subst hfolder
    have horigin : d.origin path = d.leads "" := by
      unfold origin
      rw [h.isAbsolute]
      rfl
    have hunder : under "" path = path := by simp [under]
    rw [hunder]
    unfold leads
    rw [h.stepsOf, foldl_stepFrom hsteps, horigin]
    rfl
  · obtain ⟨-, -, -, habsolute⟩ := under_eq h.isAbsolute hfolder
    unfold leads origin
    rw [stepsOf_under h.isAbsolute hfolder, habsolute, List.foldl_append, h.stepsOf,
      foldl_stepFrom hsteps]

/-- The path of a temporary file is normal, too. -/
theorem temporary (h : Normal path) : Normal (temporary path) := by
  obtain ⟨pieces, last, hsplit⟩ := Text.exists_splitAt_append Path.separator path.toList
  have hpath : Text.splitAt Path.separator path.toList = pieces ++ [last] := by
    have := hsplit [] List.not_mem_nil
    rwa [List.append_nil, List.append_nil] at this
  have htemporary : Text.splitAt Path.separator (Disk.temporary path).toList =
      pieces ++ [last ++ ".tmp".toList] := by
    rw [Disk.temporary, String.toList_append]
    exact hsplit _ (by decide)
  have hpieces : [] ∉ pieces := fun hmem => h.proper (hpath ▸ List.mem_append_left _ hmem)
  refine ⟨?_, ?_⟩
  · intro hmem
    rw [htemporary] at hmem
    rcases List.mem_append.1 hmem with hmem | hmem
    · exact hpieces hmem
    · exact absurd (List.mem_singleton.1 hmem).symm (by simp)
  · intro step hstep
    unfold Path.segments at hstep
    rw [htemporary] at hstep
    obtain ⟨piece, hpiece, rfl⟩ := List.mem_map.1 hstep
    obtain ⟨hmem, hne⟩ := List.mem_filter.1 hpiece
    rcases List.mem_append.1 hmem with hmem | hmem
    · refine h.steps _ ?_
      unfold Path.segments
      rw [hpath]
      exact List.mem_map_of_mem (List.mem_filter.2 ⟨List.mem_append_left _ hmem, hne⟩)
    · -- with `.tmp` behind it, a name is too long to be `.` or `..`
      obtain rfl := List.mem_singleton.1 hmem
      have hlong : 2 < (String.ofList (last ++ ".tmp".toList)).length := by
        rw [String.length_ofList, List.length_append, show ".tmp".toList.length = 4 by decide]
        omega
      exact ne_of_long hlong

end Normal

/-! ### Requests -/

namespace CommitRequest

/-- The paths that a request is about. -/
def paths (request : CommitRequest) : List String := request.puts.map Prod.fst ++ request.deletes

/-- A request is about different normal paths. -/
structure Regular (request : CommitRequest) : Prop where
  /-- No path stands twice. -/
  distinct : request.paths.Nodup
  /-- All are normal. -/
  normal : ∀ path ∈ request.paths, Normal path

instance : DecidablePred Regular := fun request =>
  decidable_of_iff (request.paths.Nodup ∧ ∀ path ∈ request.paths, Normal path)
    ⟨fun h => ⟨h.1, h.2⟩, fun h => ⟨h.distinct, h.normal⟩⟩

variable {request : CommitRequest}

theorem mem_paths_of_mem_puts {put : String × String} (h : put ∈ request.puts) :
    put.1 ∈ request.paths := List.mem_append_left _ (List.mem_map_of_mem h)

theorem mem_paths_of_mem_deletes {path : String} (h : path ∈ request.deletes) :
    path ∈ request.paths := List.mem_append_right _ h

end CommitRequest

namespace Repository

variable {r : Repository} {d d' : Disk} {request : CommitRequest} {p : Place}

/-! ### Where paths lead -/

/-- Different normal paths lead to different places. -/
theorem placeOf_inj {path path' : String} (h : Normal path) (h' : Normal path')
    (heq : r.placeOf d path = r.placeOf d path') : path = path' := by
  unfold placeOf pathOf at heq
  rw [h.leads_under, h'.leads_under] at heq
  exact h.eq_of_segments h' (List.append_cancel_left heq)

/-- The temporary file is where its own path leads. -/
theorem asideOf_eq (r : Repository) (d : Disk) (path : String) :
    r.asideOf d path = r.placeOf d (temporary path) := by
  unfold asideOf placeOf pathOf temporary
  rw [under_append _ _ (by decide)]

/-! ### Files in the way -/

/-- No file that is to stay has the name of a temporary file. -/
structure Spares (r : Repository) (d : Disk) (request : CommitRequest) : Prop where
  /-- No file is written where the temporary file of a later one will be. -/
  inOrder : request.puts.Pairwise fun put later => temporary later.1 ≠ put.1
  /-- A file that is where a temporary file will be is one that the request is about. -/
  free : ∀ put ∈ request.puts,
    d.textAt? (r.asideOf d put.1) = none ∨ temporary put.1 ∈ request.paths

/-- The disk after a commit is as it was asked. -/
structure AsAsked (r : Repository) (d d' : Disk) (request : CommitRequest) (id : String) :
    Prop where
  /-- Every file that was to be written is at its place. -/
  puts : ∀ put ∈ request.puts, d'.textAt? (r.placeOf d put.1) = some put.2
  /-- It can be read of the new head. -/
  reads : ∀ put ∈ request.puts, r.getFile d' r.name put.1 id = .ok put.2
  /-- Nothing is left of a file that was to go. -/
  deletes : ∀ path ∈ request.deletes, d'.isThere (r.pathOf path) = false
  /-- Everywhere else the disk has the files that it had, and no other ones. -/
  others : ∀ p, (∀ path ∈ request.paths, p ≠ r.placeOf d path) → d'.textAt? p = d.textAt? p

/-- A commit that succeeds was made on the head, and was carried out in full. -/
theorem carryOut_of_commit {repository id : String}
    (h : r.commit d repository request = (.ok id, d')) :
    repository = r.name ∧ r.head? d' = some id ∧ r.carryOut request d = (true, d') := by
  have hhead := (commit_eq_ok h).2
  unfold commit at h
  split at h
  · cases h
  rename_i hnone
  split at h
  swap
  · cases h
  split at h
  · cases h
  rename_i hcarry
  split at h
  · cases h
    exact ⟨(obstacle?_eq_none.1 hnone).1, hhead, hcarry⟩
  · cases h

/-- Where no file was removed, the text is the one that writing files left. -/
theorem textAt?_carryOut (h : r.carryOut request d = (true, d'))
    (hp : ∀ path ∈ request.deletes, p ≠ r.placeOf d path) :
    d'.textAt? p = request.puts.foldl (r.written d) d.textAt? p := by
  obtain ⟨d₁, hput, hdelete⟩ := carryOut_eq_true h
  rw [textAt?_deleteAll hdelete, Entry.foldl_apply_of_ne, textAt?_putAll hput]
  intro e he
  obtain ⟨path, hpath, rfl⟩ := List.mem_map.1 he
  rw [(carryOut_extends h).leads]
  exact hp path hpath

/-- Nothing is left where a temporary file was written, unless a file is written there later. -/
theorem foldl_written_aside {puts : List (String × String)} {texts : Place → Option String}
    {put : String × String} (hput : put ∈ puts) (hp : p = r.asideOf d put.1)
    (hplace : ∀ put ∈ puts, p ≠ r.placeOf d put.1) : puts.foldl (r.written d) texts p = none := by
  obtain ⟨before, after, rfl⟩ := List.append_of_mem hput
  rw [List.foldl_append, List.foldl_cons]
  refine foldl_written_eq_none ?_ fun later hlater =>
    hplace later (List.mem_append_right _ (List.mem_cons_of_mem put hlater))
  unfold written
  rw [Function.update_of_ne (hplace put hput), hp, Function.update_self]

/-- A file that was written keeps its text while neither it nor a temporary file is written at its
place. -/
theorem foldl_written_place {before after : List (String × String)} {put : String × String}
    {texts : Place → Option String}
    (hplace : ∀ later ∈ after, r.placeOf d put.1 ≠ r.placeOf d later.1)
    (haside : ∀ later ∈ after, r.placeOf d put.1 ≠ r.asideOf d later.1) :
    (before ++ put :: after).foldl (r.written d) texts (r.placeOf d put.1) = some put.2 := by
  rw [List.foldl_append, List.foldl_cons, foldl_written_of_ne hplace haside]
  exact Function.update_self _ _ _

/-! ### Commits -/

/-- A commit that spares files leaves every file that it is not about. -/
theorem textAt?_other (hcarry : r.carryOut request d = (true, d'))
    (hfree : ∀ put ∈ request.puts,
      d.textAt? (r.asideOf d put.1) = none ∨ temporary put.1 ∈ request.paths)
    (hp : ∀ path ∈ request.paths, p ≠ r.placeOf d path) : d'.textAt? p = d.textAt? p := by
  have hputs : ∀ put ∈ request.puts, p ≠ r.placeOf d put.1 := fun put hput =>
    hp _ (CommitRequest.mem_paths_of_mem_puts hput)
  rw [textAt?_carryOut hcarry fun path hpath =>
    hp path (CommitRequest.mem_paths_of_mem_deletes hpath)]
  by_cases haside : ∀ put ∈ request.puts, p ≠ r.asideOf d put.1
  · exact foldl_written_of_ne hputs haside
  · -- a temporary file was here, so nothing is left, and nothing was there before
    push Not at haside
    obtain ⟨put, hput, rfl⟩ := haside
    rw [foldl_written_aside hput rfl hputs]
    rcases hfree put hput with hnone | hmem
    · exact hnone.symm
    · exact absurd (asideOf_eq r d put.1) (hp _ hmem)

section

variable (hregular : request.Regular)

include hregular

/-- A file to be removed is at no place where one is written. -/
theorem placeOf_ne_delete {put : String × String} (hput : put ∈ request.puts) :
    ∀ path ∈ request.deletes, r.placeOf d put.1 ≠ r.placeOf d path := by
  intro path hpath heq
  have hsame : put.1 = path := placeOf_inj
    (hregular.normal _ (CommitRequest.mem_paths_of_mem_puts hput))
    (hregular.normal _ (CommitRequest.mem_paths_of_mem_deletes hpath)) heq
  exact (List.nodup_append.1 hregular.distinct).2.2 _ (List.mem_map_of_mem hput) _ hpath hsame

/-- A commit that spares files leaves every file that it writes with its text. -/
theorem textAt?_put (hcarry : r.carryOut request d = (true, d'))
    (hspares : request.puts.Pairwise fun put later => temporary later.1 ≠ put.1)
    {put : String × String} (hput : put ∈ request.puts) :
    d'.textAt? (r.placeOf d put.1) = some put.2 := by
  have hnormal : ∀ other ∈ request.puts, Normal other.1 := fun other hother =>
    hregular.normal _ (CommitRequest.mem_paths_of_mem_puts hother)
  rw [textAt?_carryOut hcarry (placeOf_ne_delete hregular hput)]
  have hdistinct : (request.puts.map Prod.fst).Nodup := (List.nodup_append.1 hregular.distinct).1
  obtain ⟨before, after, hsplit⟩ := List.append_of_mem hput
  rw [hsplit] at hspares hdistinct hnormal ⊢
  have hlater := (List.pairwise_cons.1 (List.pairwise_append.1 hspares).2.1).1
  rw [List.map_append, List.map_cons, List.nodup_append] at hdistinct
  have hput' := hnormal put (List.mem_append_right _ List.mem_cons_self)
  refine foldl_written_place (fun later hmem heq => ?_) fun later hmem heq => ?_
  · have hlater' := hnormal later (List.mem_append_right _ (List.mem_cons_of_mem put hmem))
    refine (List.nodup_cons.1 hdistinct.2.1).1 ?_
    rw [placeOf_inj hput' hlater' heq]
    exact List.mem_map_of_mem hmem
  · have hlater' := hnormal later (List.mem_append_right _ (List.mem_cons_of_mem put hmem))
    rw [asideOf_eq] at heq
    exact hlater later hmem (placeOf_inj hput' hlater'.temporary heq).symm

/-- A commit that does as it was asked wrote no file where the temporary file of a later one was. -/
theorem inOrder_of_asAsked (hcarry : r.carryOut request d = (true, d'))
    (hasked : ∀ put ∈ request.puts, d'.textAt? (r.placeOf d put.1) = some put.2) :
    request.puts.Pairwise fun put later => temporary later.1 ≠ put.1 := by
  have hdistinct : (request.puts.map Prod.fst).Nodup := (List.nodup_append.1 hregular.distinct).1
  have hnormal : ∀ put ∈ request.puts, Normal put.1 := fun put hput =>
    hregular.normal _ (CommitRequest.mem_paths_of_mem_puts hput)
  rw [List.pairwise_iff_forall_sublist]
  intro put later hsublist htemporary
  obtain ⟨before, after, hsplit, hput, hlater⟩ := List.cons_sublist_iff.1 hsublist
  rw [List.singleton_sublist] at hlater
  have hmem : put ∈ request.puts := hsplit ▸ List.mem_append_left _ hput
  have hwritten := hasked put hmem
  rw [textAt?_carryOut hcarry (placeOf_ne_delete hregular hmem), hsplit, List.foldl_append,
    foldl_written_aside hlater] at hwritten
  · cases hwritten
  · rw [asideOf_eq, htemporary]
  · intro other hother heq
    rw [hsplit, List.map_append, List.nodup_append] at hdistinct
    refine hdistinct.2.2 _ (List.mem_map_of_mem hput) _ (List.mem_map_of_mem hother) ?_
    exact placeOf_inj (hnormal put hmem)
      (hnormal other (hsplit ▸ List.mem_append_right _ hother)) heq

/-- A commit that leaves all that it is not about had no such file in its way. -/
theorem free_of_asAsked (hcarry : r.carryOut request d = (true, d'))
    (hasked : ∀ p, (∀ path ∈ request.paths, p ≠ r.placeOf d path) → d'.textAt? p = d.textAt? p) :
    ∀ put ∈ request.puts,
      d.textAt? (r.asideOf d put.1) = none ∨ temporary put.1 ∈ request.paths := by
  intro put hput
  by_contra hneither
  obtain ⟨hthere, hnot⟩ := not_or.1 hneither
  have hnormal := hregular.normal _ (CommitRequest.mem_paths_of_mem_puts hput)
  have hp : ∀ path ∈ request.paths, r.asideOf d put.1 ≠ r.placeOf d path := by
    intro path hpath heq
    rw [asideOf_eq] at heq
    exact hnot (placeOf_inj hnormal.temporary (hregular.normal path hpath) heq ▸ hpath)
  refine hthere ?_
  rw [← hasked _ hp, textAt?_carryOut hcarry fun path hpath =>
    hp path (CommitRequest.mem_paths_of_mem_deletes hpath)]
  exact foldl_written_aside hput rfl fun other hother =>
    hp _ (CommitRequest.mem_paths_of_mem_puts hother)

end

/-- What can be read of the head. -/
theorem getFile_of_read? {id path text : String} (hhead : r.head? d = some id)
    (hread : d.read? (r.pathOf path) = some text) : r.getFile d r.name path id = .ok text := by
  unfold getFile
  rw [obstacle?_eq_none.2 ⟨rfl, hhead⟩]
  simp only [isThere_of_read? hread, if_true, hread]

/-- **A commit that succeeds does what was asked, and nothing more, if and only if it spares the
files that have a name of a temporary file.** Its answer is the head afterwards in any case. -/
theorem commit_as_asked {repository id : String} (hregular : request.Regular)
    (h : r.commit d repository request = (.ok id, d')) :
    repository = r.name ∧ r.head? d' = some id ∧
      (r.Spares d request ↔ r.AsAsked d d' request id) := by
  obtain ⟨hname, hhead, hcarry⟩ := carryOut_of_commit h
  refine ⟨hname, hhead, ?_, ?_⟩
  · intro hspares
    have hputs : ∀ put ∈ request.puts, d'.textAt? (r.placeOf d put.1) = some put.2 :=
      fun put hput => textAt?_put hregular hcarry hspares.inOrder hput
    obtain ⟨d₁, hput, hdelete⟩ := carryOut_eq_true hcarry
    refine ⟨hputs, fun put hmem => getFile_of_read? hhead ?_,
      fun path hpath => not_isThere_of_deleteAll hdelete hpath,
      fun p hp => textAt?_other hcarry hspares.free hp⟩
    rw [read?_eq, locate?_of_putAll hput (deleteAll_sameFolders hdelete).extends hmem,
      Option.bind_some]
    exact hputs put hmem
  · intro hasked
    exact ⟨inOrder_of_asAsked hregular hcarry hasked.puts,
      free_of_asAsked hregular hcarry hasked.others⟩

/-! ### A folder with files in the way -/

/-- The folder of a repository, with a temporary file left in it. -/
def cluttered : Disk :=
  { nodes := [(["repo"], .folder), (["repo", "config.yaml"], .file "a: 1\n"),
      (["repo", "config.yaml.tmp"], .file "a: 0\n"), (["repo", ".notes"], .file "none\n")] }

/-- The same after `config.yaml` was written, a unit's file was added and the temporary file was
removed. -/
def tidied : Disk :=
  { nodes := [(["repo"], .folder), (["repo", "config.yaml"], .file "a: 2\n"),
      (["repo", ".notes"], .file "none\n"), (["repo", "units"], .folder),
      (["repo", "units", "core.yaml"], .file "b: 1\n")] }

/-- A request made upon the head of `cluttered`. -/
def uponCluttered (puts : List (String × String)) (deletes : List String) : CommitRequest :=
  { parent := (Shared.team.head? cluttered).getD "", puts, deletes }

/-- A request to do that, and to remove the temporary file. -/
def tidyUp : CommitRequest :=
  uponCluttered [("config.yaml", "a: 2\n"), ("units/core.yaml", "b: 1\n")] ["config.yaml.tmp"]

theorem commit_as_asked_cluttered : ∃ id, tidyUp.Regular ∧
    Shared.team.commit cluttered "config" tidyUp = (.ok id, tidied) ∧
      "config" = Shared.team.name ∧ Shared.team.head? tidied = some id ∧
      Shared.team.Spares cluttered tidyUp ∧ Shared.team.AsAsked cluttered tidied tidyUp id := by
  have hregular : tidyUp.Regular := by decide +kernel
  have hspares : Shared.team.Spares cluttered tidyUp := ⟨by decide +kernel, by decide +kernel⟩
  obtain ⟨id, hcommit⟩ : ∃ id, Shared.team.commit cluttered "config" tidyUp = (.ok id, tidied) :=
    ⟨(Shared.team.head? tidied).getD "", by decide +kernel⟩
  obtain ⟨hname, hhead, hasked⟩ := commit_as_asked hregular hcommit
  exact ⟨id, hregular, hcommit, hname, hhead, hspares, hasked.1 hspares⟩

/-- `cluttered` after a commit that was only to write `config.yaml`. -/
def swept : Disk :=
  { nodes := [(["repo"], .folder), (["repo", "config.yaml"], .file "a: 2\n"),
      (["repo", ".notes"], .file "none\n")] }

/-- `cluttered` after a commit that was to write `units.tmp` and then `units`. -/
def overwritten : Disk :=
  { nodes := cluttered.nodes ++ [(["repo", "units"], .file "b: 2\n")] }

/-- Commits that succeed and take away a file that nobody asked to remove: one beside the file that
is written, and one that the same commit has written before. -/
theorem commit_loses_neighbour :
    (let request := uponCluttered [("config.yaml", "a: 2\n")] []
    ∃ id, request.Regular ∧ Shared.team.commit cluttered "config" request = (.ok id, swept) ∧
      cluttered.textAt? ["repo", "config.yaml.tmp"] = some "a: 0\n" ∧
      swept.textAt? ["repo", "config.yaml.tmp"] = none) ∧
    let request := uponCluttered [("units.tmp", "b: 1\n"), ("units", "b: 2\n")] []
    ∃ id, request.Regular ∧
      Shared.team.commit cluttered "config" request = (.ok id, overwritten) ∧
      Shared.team.getFile overwritten "config" "units.tmp" id =
        .error (.notFound .getFile "units.tmp") := by
  constructor
  · refine ⟨(Shared.team.head? swept).getD "", ?_, ?_, ?_, ?_⟩
    all_goals decide +kernel
  · refine ⟨(Shared.team.head? overwritten).getD "", ?_, ?_, ?_⟩
    all_goals decide +kernel

end Repository
end OrgAlign.Files
