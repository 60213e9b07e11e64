import OrgAlign.Proofs.Files.Head
import OrgAlign.Proofs.Files.Listing

/-!
# Clients of one repository

Several clients share a repository. Each takes the head as the parent of what it will commit, reads
files, and commits later; in between the others do the same, in any order, but one call at a time.
What a client took is the digest of the visible files only, so these are what a commit can rely on.
Main statements:

* `Repository.shows_iff_of_head?_eq`: disks with the same head show the same files, unless digests
  collide or a text has a zero character;
* `Shared.run_follows`, `Shared.parents_run`: what any calls keep;
* `Shared.commit_finds_what_was_taken`: a commit that succeeds finds every visible file as it was
  when its client took the parent;
* `Shared.commit_loses_update`: it may overwrite files that are hidden, or outside the folder, and
  files that a text with zero characters stood for.
-/

namespace OrgAlign.Files

open Org Disk

/-! ### What a head stands for -/

namespace Repository

variable {r : Repository} {d d' : Disk} {files files' : List (List String × String)}

/-- A visible file of the repository: where it is, and its text. -/
structure Shows (r : Repository) (d : Disk) (p : Place) (text : String) : Prop where
  /-- It is below the repository's folder, and no name on the way from there is hidden. -/
  below : ∃ base steps, d.locate? r.folder = some base ∧ d.isFolder base = true ∧ steps ≠ [] ∧
    p = base ++ steps ∧ ∀ name ∈ steps, isHidden name = false
  /-- It is there. -/
  there : d.at? p = some (.file text)

/-- No visible file has a text with a zero character. -/
def Plain (r : Repository) (d : Disk) : Prop := ∀ p text, r.Shows d p text → ZeroFree text

/-- The bytes that the head is the digest of. -/
def bytes? (r : Repository) (d : Disk) : Option (List UInt8) :=
  (r.contents? d).map fun files => stream (visibleFiles files)

/-- The digest tells apart what the heads of two disks are digests of. -/
def NoCollision (r : Repository) (d d' : Disk) : Prop :=
  ∀ bytes bytes', r.bytes? d = some bytes → r.bytes? d' = some bytes' →
    Sha256.hexDigest bytes = Sha256.hexDigest bytes' → bytes = bytes'

theorem head?_eq (r : Repository) (d : Disk) :
    r.head? d = (r.bytes? d).map Sha256.hexDigest := by
  unfold head? bytes?
  rw [Option.map_map]
  rfl

/-- The visible files are those of the contents without a hidden name. -/
theorem shows_iff (hd : d.Sound) (h : r.contents? d = some files) {p : Place} {text : String} :
    r.Shows d p text ↔ ∃ base steps, d.locate? r.folder = some base ∧ p = base ++ steps ∧
      (steps, text) ∈ files ∧ ∀ name ∈ steps, isHidden name = false := by
  constructor
  · rintro ⟨⟨base, steps, hbase, hfolder, hne, rfl, hvisible⟩, hthere⟩
    have hfiles : files = d.filesBelow base :=
      Option.some.inj (h.symm.trans (contents?_of_folder hbase hfolder))
    refine ⟨base, steps, hbase, rfl, ?_, hvisible⟩
    rw [hfiles]
    exact hd.mem_filesBelow_iff.2 ⟨hne, hthere⟩
  · rintro ⟨base, steps, hbase, rfl, hfile, hvisible⟩
    obtain ⟨base', hbase', hfolder, rfl⟩ := exists_folder_of_mem h hfile
    obtain rfl : base = base' := Option.some.inj (hbase.symm.trans hbase')
    obtain ⟨hne, hthere⟩ := hd.mem_filesBelow_iff.1 hfile
    exact ⟨⟨base, steps, hbase, hfolder, hne, rfl, hvisible⟩, hthere⟩

/-- Neither paths nor texts of the visible files have a zero character. -/
theorem zeroFree_of_plain (hd : d.Sound) (hplain : r.Plain d) (h : r.contents? d = some files) :
    ∀ f ∈ visibleFiles files, ZeroFree f.1 ∧ ZeroFree f.2 := by
  refine zeroFree_visibleFiles (tidy_of_contents? hd h) fun f hfile hvisible => ?_
  obtain ⟨base, hbase, -⟩ := exists_folder_of_mem h hfile
  exact hplain _ _ ((shows_iff hd h).2 ⟨base, f.1, hbase, rfl, hfile, hvisible⟩)

/-- Disks whose visible files have the same paths and texts show the same files. -/
theorem shows_of_visibleFiles_eq (hd : d.Sound) (hd' : d'.Sound) (hcurrent : d'.current = d.current)
    (h : r.contents? d = some files) (h' : r.contents? d' = some files')
    (hsame : visibleFiles files = visibleFiles files') {p : Place} {text : String}
    (hshows : r.Shows d p text) : r.Shows d' p text := by
  obtain ⟨base, steps, hbase, rfl, hfile, hvisible⟩ := (shows_iff hd h).1 hshows
  have hfile' : (steps, text) ∈ files' := mem_of_visibleFiles_eq (tidy_of_contents? hd h)
    (tidy_of_contents? hd' h') hsame hfile hvisible
  obtain ⟨base', hbase', -⟩ := exists_folder_of_mem h' hfile'
  -- the folder's path leads to the same place wherever it leads somewhere
  have hleads : d'.leads r.folder = d.leads r.folder := by
    unfold leads origin
    rw [hcurrent]
  have hplace : base = base' := by
    rw [locate?_eq_leads hbase, locate?_eq_leads hbase', hleads]
  exact (shows_iff hd' h').2 ⟨base', steps, hbase', hplace ▸ rfl, hfile', hvisible⟩

/-- **Disks with the same head show the same files**, unless digests collide or a text has a zero
character. -/
theorem shows_iff_of_head?_eq (hd : d.Sound) (hd' : d'.Sound) (hcurrent : d'.current = d.current)
    {id : String} (hhead : r.head? d = some id) (hhead' : r.head? d' = some id)
    (hcollision : r.NoCollision d d') (hplain : r.Plain d) (hplain' : r.Plain d') (p : Place)
    (text : String) : r.Shows d' p text ↔ r.Shows d p text := by
  rw [head?_eq, Option.map_eq_some_iff] at hhead hhead'
  obtain ⟨bytes, hbytes, hid⟩ := hhead
  obtain ⟨bytes', hbytes', hid'⟩ := hhead'
  have hstream : bytes = bytes' := hcollision bytes bytes' hbytes hbytes' (hid.trans hid'.symm)
  obtain ⟨files, hfiles, rfl⟩ := Option.map_eq_some_iff.1 hbytes
  obtain ⟨files', hfiles', rfl⟩ := Option.map_eq_some_iff.1 hbytes'
  have hsame : visibleFiles files = visibleFiles files' :=
    stream_injective (zeroFree_of_plain hd hplain hfiles) (zeroFree_of_plain hd' hplain' hfiles')
      hstream
  constructor
  · exact shows_of_visibleFiles_eq hd' hd hcurrent.symm hfiles' hfiles hsame.symm
  · exact shows_of_visibleFiles_eq hd hd' hcurrent hfiles hfiles' hsame

/-- A commit that succeeds was made on the head. -/
theorem head?_of_commit {repository id : String} {request : CommitRequest}
    (h : r.commit d repository request = (.ok id, d')) : r.head? d = some request.parent := by
  unfold commit at h
  split at h
  · cases h
  · rename_i hnone
    exact (obstacle?_eq_none.1 hnone).2

end Repository

/-! ### Clients -/

/-- What a client asks for. -/
inductive Call
  /-- It takes the head as the parent of its commits. -/
  | take
  /-- It reads a file of a revision. -/
  | read (repository path commit : String)
  /-- It writes and removes files on the parent that it took. -/
  | commit (repository : String) (puts : List (String × String)) (deletes : List String)
deriving DecidableEq, Repr

/-- What several clients of a repository have before them. -/
structure Shared where
  /-- The disk. -/
  disk : Disk
  /-- The parent that each client took last, if it got one. -/
  parents : Nat → Option String

namespace Shared

variable {r : Repository} {s : Shared}

/-- What a client's commit answers, and the disk after it; without a parent it makes none. -/
def commit (r : Repository) (s : Shared) (client : Nat) (repository : String)
    (puts : List (String × String)) (deletes : List String) :
    Option (Except ClientError String × Disk) :=
  (s.parents client).map fun parent => r.commit s.disk repository { parent, puts, deletes }

/-- One call of a client. Reading leaves everything as it is. -/
def step (r : Repository) (s : Shared) (client : Nat) : Call → Shared
  | .take => { s with parents := fun c => if c = client then r.head? s.disk else s.parents c }
  | .read _ _ _ => s
  | .commit repository puts deletes =>
    match s.commit r client repository puts deletes with
    | some (_, d) => { s with disk := d }
    | none => s

/-- Calls of clients, one after the other. -/
def run (r : Repository) (s : Shared) (calls : List (Nat × Call)) : Shared :=
  calls.foldl (fun s call => s.step r call.1 call.2) s

/-- A call keeps the disk sound, and relative paths start where they started. -/
theorem step_follows (hs : s.disk.Sound) (client : Nat) (call : Call) :
    Follows s.disk (s.step r client call).disk := by
  cases call with
  | take => exact Follows.refl hs
  | read => exact Follows.refl hs
  | commit repository puts deletes =>
    unfold step commit
    cases s.parents client with
    | none => exact Follows.refl hs
    | some parent => exact Repository.commit_follows hs repository _

/-- So do any calls. -/
theorem run_follows (hs : s.disk.Sound) (calls : List (Nat × Call)) :
    Follows s.disk (s.run r calls).disk := by
  induction calls generalizing s with
  | nil => exact Follows.refl hs
  | cons call calls ih =>
    have hstep := step_follows (r := r) hs call.1 call.2
    exact hstep.trans (ih hstep.sound)

/-- Only taking the head gives a client another parent. -/
theorem parents_step {client other : Nat} {call : Call} (h : (other, call) ≠ (client, .take)) :
    (s.step r other call).parents client = s.parents client := by
  cases call with
  | take =>
    have hne : client ≠ other := fun heq => h (heq ▸ rfl)
    exact if_neg hne
  | read => rfl
  | commit repository puts deletes =>
    simp only [step]
    split
    · rfl
    · rfl

/-- A client keeps its parent until it takes the head again. -/
theorem parents_run {client : Nat} {calls : List (Nat × Call)} (h : (client, .take) ∉ calls) :
    (s.run r calls).parents client = s.parents client := by
  induction calls generalizing s with
  | nil => rfl
  | cons call calls ih =>
    have hcall : (call.1, call.2) ≠ (client, .take) := fun heq => h (heq ▸ List.mem_cons_self)
    have hrest : (client, .take) ∉ calls := fun hmem => h (List.mem_cons_of_mem call hmem)
    exact (ih hrest).trans (parents_step hcall)

/-- At a place, a file is overwritten or removed that was not there like this before. -/
def LosesUpdate (before now after : Disk) (p : Place) : Prop :=
  ∃ text, now.at? p = some (.file text) ∧ before.at? p ≠ some (.file text) ∧
    after.at? p ≠ some (.file text)

/-- **A commit that succeeds finds every visible file as it was when its client took the parent**,
whatever clients did in between, and so overwrites and removes no visible file that changed. This
needs that the digest tells the two moments apart, and that no visible text had a zero character. -/
theorem commit_finds_what_was_taken (hs : s.disk.Sound) (client : Nat)
    {between : List (Nat × Call)} (hbetween : (client, .take) ∉ between) {now : Shared}
    (hnow : now = s.run r ((client, .take) :: between)) {repository id : String}
    {puts : List (String × String)} {deletes : List String} {after : Disk}
    (hcommit : now.commit r client repository puts deletes = some (.ok id, after))
    (hcollision : r.NoCollision s.disk now.disk) (hplain : r.Plain s.disk)
    (hplain' : r.Plain now.disk) :
    (∀ p text, r.Shows now.disk p text ↔ r.Shows s.disk p text) ∧
      ∀ p text, r.Shows now.disk p text → ¬ LosesUpdate s.disk now.disk after p := by
  subst hnow
  have hfollows : Follows s.disk (s.run r ((client, .take) :: between)).disk := run_follows hs _
  have htaken : (s.run r ((client, .take) :: between)).parents client = r.head? s.disk :=
    (parents_run (s := s.step r client .take) hbetween).trans (if_pos rfl)
  obtain ⟨parent, hparent, hanswer⟩ := Option.map_eq_some_iff.1 hcommit
  have hhead := htaken.symm.trans hparent
  have hhead' := Repository.head?_of_commit hanswer
  have hsame : ∀ p text, r.Shows (s.run r ((client, .take) :: between)).disk p text ↔
      r.Shows s.disk p text :=
    Repository.shows_iff_of_head?_eq hs hfollows.sound hfollows.current hhead hhead' hcollision
      hplain hplain'
  refine ⟨hsame, ?_⟩
  rintro p text hshows ⟨text', hnow, hbefore, -⟩
  have htext : text = text' := by simpa [hshows.there] using hnow
  exact hbefore (htext ▸ ((hsame p text).1 hshows).there)

/-! ### A shared folder -/

/-- A repository of some clients. -/
def team : Repository := ⟨"config", "/repo"⟩

/-- Its folder, with a visible file and a hidden one. -/
def teamStart : Shared where
  disk := { nodes := [(["repo"], .folder), (["repo", "config.yaml"], .file "a: 1\n"),
    (["repo", ".notes"], .file "none\n")] }
  parents _ := none

/-- A file whose text, with the zero characters in it, stands for those of two files. -/
def twoInOne : Shared where
  disk := { nodes := [(["repo"], .folder), (["repo", "a"], .file "x\x00b\x00y")] }
  parents _ := none

/-- On a disk whose texts have no zero character, those of the visible files have none. -/
theorem plain_of_nodes {d : Disk} (hd : d.Sound)
    (h : ∀ e ∈ d.nodes, e.2 = .folder ∨ ∃ text, e.2 = .file text ∧ ZeroFree text) :
    r.Plain d := by
  rintro p text ⟨⟨base, steps, -, -, hne, rfl, -⟩, hthere⟩
  rcases h _ ((hd.at?_eq_some_iff (by simp [hne])).1 hthere) with hfolder | ⟨text', hfile, hfree⟩
  · cases hfolder
  · cases hfile
    exact hfree

/-- An answer that passes a check is a success. -/
theorem exists_ok_of_any (answer? : Option (Except ClientError String × Disk)) (good : Disk → Bool)
    (h : answer?.any (fun answer => answer.1.toBool && good answer.2) = true) :
    ∃ id after, answer? = some (.ok id, after) ∧ good after = true := by
  cases answer? with
  | none => cases h
  | some answer =>
    obtain ⟨answer, after⟩ := answer
    obtain ⟨hok, hgood⟩ := Bool.and_eq_true_iff.1 h
    cases answer with
    | error e => cases hok
    | ok id => exact ⟨id, after, rfl, hgood⟩

theorem commit_finds_what_was_taken_team :
    let between : List (Nat × Call) := [(2, .take), (2, .read "config" "config.yaml" ""),
      (2, .commit "config" [(".notes", "theirs\n")] [])]
    let now := teamStart.run team ((1, .take) :: between)
    ∃ id after, now.commit team 1 "config" [("config.yaml", "a: 2\n")] [] =
        some (.ok id, after) ∧ now.disk ≠ teamStart.disk ∧
      ((∀ p text, team.Shows now.disk p text ↔ team.Shows teamStart.disk p text) ∧
        ∀ p text, team.Shows now.disk p text →
          ¬ LosesUpdate teamStart.disk now.disk after p) := by
  intro between now
  let finish : Disk :=
    { nodes := [(["repo"], .folder), (["repo", "config.yaml"], .file "a: 1\n"),
        (["repo", ".notes"], .file "theirs\n")] }
  have hdisk : now.disk = finish := by decide +kernel
  have hstart : teamStart.disk.Sound := by decide +kernel
  have hfinish : now.disk.Sound := by
    rw [hdisk]
    decide +kernel
  have hbytes : team.bytes? teamStart.disk = team.bytes? now.disk := by
    rw [hdisk]
    decide +kernel
  obtain ⟨id, after, hcommit, -⟩ := exists_ok_of_any
    (now.commit team 1 "config" [("config.yaml", "a: 2\n")] []) (fun _ => true)
    (by decide +kernel)
  refine ⟨id, after, hcommit, ?_, ?_⟩
  · rw [hdisk]
    decide +kernel
  · refine commit_finds_what_was_taken hstart 1 (by decide) rfl hcommit ?_ ?_ ?_
    · intro bytes bytes' h h' _
      exact Option.some.inj (h.symm.trans (hbytes.trans h'))
    · exact plain_of_nodes hstart (by simp [teamStart, ZeroFree])
    · refine plain_of_nodes hfinish ?_
      rw [hdisk]
      simp [finish, ZeroFree]

/-- Commits that succeed although files changed since the parent was taken: a hidden one and one
outside the folder, and one of the two that a text with zero characters stood for. -/
theorem commit_loses_update :
    (∃ id after,
      let now := teamStart.run team [(1, .take), (2, .take),
        (2, .commit "config" [(".notes", "theirs\n"), ("../other", "theirs\n")] [])]
      now.commit team 1 "config" [(".notes", "mine\n")] ["../other"] = some (.ok id, after) ∧
        LosesUpdate teamStart.disk now.disk after ["repo", ".notes"] ∧
        LosesUpdate teamStart.disk now.disk after ["other"]) ∧
    (∃ id after,
      let now := twoInOne.run team [(1, .take), (2, .take),
        (2, .commit "config" [("a", "x"), ("b", "y")] [])]
      now.commit team 1 "config" [("b", "z")] [] = some (.ok id, after) ∧
        LosesUpdate twoInOne.disk now.disk after ["repo", "b"]) := by
  refine ⟨?_, ?_⟩
  · let now := teamStart.run team [(1, .take), (2, .take),
      (2, .commit "config" [(".notes", "theirs\n"), ("../other", "theirs\n")] [])]
    obtain ⟨id, after, hcommit, hafter⟩ := exists_ok_of_any
      (now.commit team 1 "config" [(".notes", "mine\n")] ["../other"])
      (fun after => after.at? ["repo", ".notes"] ≠ some (.file "theirs\n") &&
        after.at? ["other"] ≠ some (.file "theirs\n")) (by decide +kernel)
    simp only [Bool.and_eq_true, decide_eq_true_eq] at hafter
    refine ⟨id, after, hcommit, ⟨"theirs\n", ?_, ?_, hafter.1⟩, ⟨"theirs\n", ?_, ?_, hafter.2⟩⟩
    all_goals decide +kernel
  · let now := twoInOne.run team [(1, .take), (2, .take),
      (2, .commit "config" [("a", "x"), ("b", "y")] [])]
    obtain ⟨id, after, hcommit, hafter⟩ := exists_ok_of_any
      (now.commit team 1 "config" [("b", "z")] [])
      (fun after => after.at? ["repo", "b"] ≠ some (.file "y")) (by decide +kernel)
    refine ⟨id, after, hcommit, "y", ?_, ?_, of_decide_eq_true hafter⟩
    all_goals decide +kernel

end Shared
end OrgAlign.Files
