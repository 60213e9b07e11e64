import OrgAlign.Files.Repository
import OrgAlign.Proofs.Files.Outside

/-!
# The route of a path

What is at the end of a path depends on the places that its steps pass and on nothing else. A file
that is written, moved or removed elsewhere leaves it alone, and so do folders that are made
elsewhere: two paths have nothing to do with each other where all that their routes share are
folders that are there. That is so whether an operation takes place or fails. Main statements:

* `SameOnRoute.node?`: what is at the end of a path only depends on its route;
* `sameOnRoute_replace`, `sameOnRoute_remove?`: what replacing and removing a file leaves alone;
* `Repository.sameOnRoute_commit`: a commit, whatever its answer, leaves what is at the end of any
  path that its request keeps off.
-/

namespace OrgAlign.Files

namespace Disk

variable {d d' : Disk} {p q : Place} {path other : String}

/-! ### Routes -/

/-- The places that a path's steps pass, from where it starts to where it leads. -/
def route (d : Disk) (path : String) : List Place := (stepsOf path).scanl stepFrom (d.origin path)

/-- Two paths meet in folders only: every place on both routes is a folder. -/
def MeetInFolders (d : Disk) (path other : String) : Prop :=
  ∀ p ∈ d.route path, p ∈ d.route other → d.isFolder p = true

instance (d : Disk) (path other : String) : Decidable (d.MeetInFolders path other) :=
  inferInstanceAs (Decidable (∀ p ∈ d.route path, p ∈ d.route other → d.isFolder p = true))

/-- A route ends where the path leads. -/
theorem leads_mem_route (d : Disk) (path : String) : d.leads path ∈ d.route path :=
  List.mem_of_getLast? List.getLast?_scanl

/-- What is no folder and at the end of one path is not on the other's route. -/
theorem MeetInFolders.not_mem_route (h : d.MeetInFolders path other)
    (hp : d.locate? other = some p) (hfolder : d.isFolder p = false) : p ∉ d.route path := by
  intro hroute
  have hend : p ∈ d.route other := locate?_eq_leads hp ▸ leads_mem_route d other
  rw [h p hroute hend] at hfolder
  cases hfolder

/-! ### The same on a route -/

/-- Steps lead to the same place where all the places that they pass are the same. -/
theorem walk?_of_same {steps : List String}
    (h : ∀ q ∈ steps.scanl stepFrom p, d'.at? q = d.at? q) :
    d'.walk? p steps = d.walk? p steps := by
  induction steps generalizing p with
  | nil => rfl
  | cons step steps ih =>
    rw [List.scanl_cons] at h
    obtain ⟨hp, hrest⟩ := List.forall_mem_cons.1 h
    have hfolder : d'.isFolder p = d.isFolder p := by
      unfold isFolder
      rw [hp]
    unfold walk?
    rw [hfolder, ih hrest]

/-- Two disks are the same all along the route of a path. -/
structure SameOnRoute (d d' : Disk) (path : String) : Prop where
  /-- At each of its places is the same. -/
  at? : ∀ p ∈ d.route path, d'.at? p = d.at? p
  /-- Relative paths start at the same place. -/
  current : d'.current = d.current

namespace SameOnRoute

theorem refl (d : Disk) (path : String) : SameOnRoute d d path := ⟨fun _ _ => rfl, rfl⟩

/-- Routes stay the routes that they were. -/
theorem route (h : SameOnRoute d d' path) (other : String) : d'.route other = d.route other := by
  unfold Disk.route origin
  rw [h.current]

theorem trans {d'' : Disk} (h : SameOnRoute d d' path) (h' : SameOnRoute d' d'' path) :
    SameOnRoute d d'' path := by
  refine ⟨fun p hp => ?_, h'.current.trans h.current⟩
  rw [h'.at? p (h.route path ▸ hp), h.at? p hp]

/-- The same places on the route are folders. -/
theorem isFolder (h : SameOnRoute d d' path) (hp : p ∈ d.route path) :
    d'.isFolder p = d.isFolder p := by
  unfold Disk.isFolder
  rw [h.at? p hp]

/-- What met in folders only does so still. -/
theorem meetInFolders (h : SameOnRoute d d' path) (hmeet : d.MeetInFolders path other) :
    d'.MeetInFolders path other := by
  intro p hp hother
  rw [h.route] at hp hother
  rw [h.isFolder hp]
  exact hmeet p hp hother

/-- **What is at the end of a path only depends on its route.** -/
theorem node? (h : SameOnRoute d d' path) : d'.node? path = d.node? path := by
  have horigin : d'.origin path = d.origin path := by
    unfold origin
    rw [h.current]
  unfold Disk.node? locate?
  rw [horigin, walk?_of_same h.at?]
  split
  · rfl
  · cases hwalk : d.walk? (d.origin path) (stepsOf path) with
    | none => rfl
    | some p =>
      have hend : p ∈ d.route path := walk?_eq_foldl hwalk ▸ leads_mem_route d path
      rw [Option.bind_some, Option.bind_some, h.isFolder hend]
      split
      · rfl
      · exact h.at? p hend

end SameOnRoute

/-! ### Operations elsewhere -/

theorem sameOnRoute_set (hp : p ≠ []) (hoff : p ∉ d.route path) (n : Node) :
    SameOnRoute d (d.set p n) path := by
  refine ⟨fun q hq => ?_, current_set d p n⟩
  rw [at?_set hp, if_neg]
  rintro rfl
  exact hoff hq

theorem sameOnRoute_erase (hp : p ≠ []) (hoff : p ∉ d.route path) :
    SameOnRoute d (d.erase p) path := by
  refine ⟨fun q hq => ?_, rfl⟩
  rw [at?_erase hp, if_neg]
  rintro rfl
  exact hoff hq

/-- Making way leaves a route alone that meets the steps in folders only, also where it fails: no
folder is made on the route. -/
theorem sameOnRoute_makeWay {steps : List String}
    (h : ∀ q ∈ steps.scanl stepFrom p, q ∈ d.route path → d.isFolder q = true) :
    SameOnRoute d (d.makeWay p steps).2 path := by
  induction steps generalizing d p with
  | nil => exact .refl d path
  | cons step steps ih =>
    rw [List.scanl_cons] at h
    obtain ⟨-, hrest⟩ := List.forall_mem_cons.1 h
    unfold makeWay
    split
    · dsimp only
      split
      · exact ih hrest
      · rename_i hnone
        have hnext : stepFrom p step ∈ steps.scanl stepFrom (stepFrom p step) := by
          cases steps <;> simp
        have hoff : stepFrom p step ∉ d.route path := by
          intro hroute
          have hfolder := hrest _ hnext hroute
          unfold isFolder at hfolder
          rw [hnone] at hfolder
          cases hfolder
        -- the new folder is off the route, which the other steps so meet as before
        have hset := sameOnRoute_set (ne_nil_of_at?_eq_none hnone) hoff .folder
        refine hset.trans (ih fun q hq hroute => ?_)
        rw [hset.route] at hroute
        rw [hset.isFolder hroute]
        exact hrest q hq hroute
    · exact .refl d path

/-- Making way to a path leaves another one alone. -/
theorem sameOnRoute_makeParent (h : d.MeetInFolders path other) :
    SameOnRoute d (d.makeParent other).2 path := by
  unfold makeParent
  split
  · exact .refl d path
  · rename_i steps hsteps
    refine sameOnRoute_makeWay fun q hq hroute => h q hroute ?_
    -- the way to a path is its route but for the end
    have hsplit := List.dropLast_append_getLast hsteps
    unfold route
    rw [← hsplit, List.scanl_append]
    exact List.mem_append_left _ hq

/-- Writing a file leaves another path alone. -/
theorem sameOnRoute_write? {text : String} (h : d.MeetInFolders path other)
    (hwrite : d.write? other text = some d') : SameOnRoute d d' path := by
  obtain ⟨-, p, hp, hfolder, rfl⟩ := write?_eq_some hwrite
  exact sameOnRoute_set (ne_nil_of_not_isFolder hfolder) (h.not_mem_route hp hfolder) _

/-- Removing a file leaves another path alone. -/
theorem sameOnRoute_remove? (h : d.MeetInFolders path other) (hremove : d.remove? other = some d') :
    SameOnRoute d d' path := by
  obtain ⟨p, hp, hfolder, rfl⟩ := remove?_eq_some hremove
  exact sameOnRoute_erase (ne_nil_of_not_isFolder hfolder) (h.not_mem_route hp hfolder)

/-- Moving a file leaves another path alone. -/
theorem sameOnRoute_rename? {source target : String} (hsource : d.MeetInFolders path source)
    (htarget : d.MeetInFolders path target) (hrename : d.rename? source target = some d') :
    SameOnRoute d d' path := by
  obtain ⟨p, q, text, hp, htext, hq, hfolder, rfl⟩ := rename?_eq_some hrename
  obtain ⟨p', hp', hfile⟩ := read?_eq_some htext
  obtain rfl : p = p' := Option.some.inj (hp.symm.trans hp')
  have hpfolder : d.isFolder p = false := not_isFolder_of_file hfile
  have herase := sameOnRoute_erase (ne_nil_of_not_isFolder hpfolder)
    (hsource.not_mem_route hp hpfolder)
  refine herase.trans (sameOnRoute_set (ne_nil_of_not_isFolder hfolder) ?_ _)
  rw [herase.route]
  exact htarget.not_mem_route hq hfolder

/-- **Replacing a file leaves a path alone** that meets it and its temporary file in folders only,
whether it takes place or not. -/
theorem sameOnRoute_replace (h : d.MeetInFolders path other)
    (htemporary : d.MeetInFolders path (temporary other)) (text : String) :
    SameOnRoute d (d.replace other text).2 path := by
  have hparent := sameOnRoute_makeParent h
  unfold replace
  split
  · rename_i way hway
    rwa [hway] at hparent
  · rename_i way hway
    rw [hway] at hparent
    have haside := hparent.meetInFolders htemporary
    split
    · exact hparent
    · rename_i written hwritten
      have hwrite := sameOnRoute_write? haside hwritten
      have hdone := hparent.trans hwrite
      split
      · rename_i renamed hrenamed
        exact hdone.trans (sameOnRoute_rename? (hdone.meetInFolders htemporary)
          (hdone.meetInFolders h) hrenamed)
      · cases hremove : written.remove? (temporary other) with
        | none => exact hdone
        | some removed =>
          exact hdone.trans (sameOnRoute_remove? (hdone.meetInFolders htemporary) hremove)

end Disk

/-! ### Requests elsewhere -/

namespace Repository

open Disk

variable {r : Repository} {d : Disk} {path : String}

/-- The paths at which a request does something: those of the files to write, each with the one of
its temporary file, and those of the files to remove. -/
def touched (r : Repository) (request : CommitRequest) : List String :=
  request.puts.flatMap (fun f => [r.pathOf f.1, temporary (r.pathOf f.1)]) ++
    request.deletes.map r.pathOf

/-- A request keeps off a path: it only meets it in folders. -/
def KeepsOff (r : Repository) (d : Disk) (request : CommitRequest) (path : String) : Prop :=
  ∀ other ∈ r.touched request, d.MeetInFolders path other

instance (r : Repository) (d : Disk) (request : CommitRequest) (path : String) :
    Decidable (r.KeepsOff d request path) :=
  inferInstanceAs (Decidable (∀ other ∈ r.touched request, d.MeetInFolders path other))

/-- Writing files leaves a path alone, up to the first that cannot be written. -/
theorem sameOnRoute_putAll {puts : List (String × String)}
    (h : ∀ f ∈ puts, d.MeetInFolders path (r.pathOf f.1) ∧
      d.MeetInFolders path (temporary (r.pathOf f.1))) :
    SameOnRoute d (r.putAll puts d).2 path := by
  induction puts generalizing d with
  | nil => exact .refl d path
  | cons f puts ih =>
    obtain ⟨⟨hfile, haside⟩, hrest⟩ := List.forall_mem_cons.1 h
    have hone := sameOnRoute_replace hfile haside f.2
    unfold putAll
    split
    · rename_i done hdone
      rw [hdone] at hone
      -- the route is as it was, so that the other files meet it in folders only still
      exact hone.trans (ih fun g hg =>
        ⟨hone.meetInFolders (hrest g hg).1, hone.meetInFolders (hrest g hg).2⟩)
    · rename_i stopped hstopped
      rwa [hstopped] at hone

/-- Removing files leaves a path alone, up to the first that cannot be removed. -/
theorem sameOnRoute_deleteAll {deletes : List String}
    (h : ∀ file ∈ deletes, d.MeetInFolders path (r.pathOf file)) :
    SameOnRoute d (r.deleteAll deletes d).2 path := by
  induction deletes generalizing d with
  | nil => exact .refl d path
  | cons file deletes ih =>
    obtain ⟨hfile, hrest⟩ := List.forall_mem_cons.1 h
    unfold deleteAll
    split
    · split
      · rename_i removed hremoved
        have hone := sameOnRoute_remove? hfile hremoved
        exact hone.trans (ih fun other hother => hone.meetInFolders (hrest other hother))
      · exact .refl d path
    · exact ih hrest

/-- Carrying a request out leaves a path alone that it keeps off, also where it stops half way. -/
theorem sameOnRoute_carryOut {request : CommitRequest} (h : r.KeepsOff d request path) :
    SameOnRoute d (r.carryOut request d).2 path := by
  have hput : SameOnRoute d (r.putAll request.puts d).2 path := by
    refine sameOnRoute_putAll fun f hf => ⟨h _ ?_, h _ ?_⟩
    all_goals
      refine List.mem_append_left _ (List.mem_flatMap.2 ⟨f, hf, ?_⟩)
      simp
  unfold carryOut
  split
  · rename_i written hwritten
    rw [hwritten] at hput
    refine hput.trans (sameOnRoute_deleteAll fun file hfile => hput.meetInFolders (h _ ?_))
    exact List.mem_append_right _ (List.mem_map_of_mem hfile)
  · rename_i stopped hstopped
    rwa [hstopped] at hput

/-- **A commit leaves a path alone that its request keeps off**, whatever its answer is. -/
theorem sameOnRoute_commit {request : CommitRequest} (h : r.KeepsOff d request path)
    (repository : String) : SameOnRoute d (r.commit d repository request).2 path := by
  have hcarry := sameOnRoute_carryOut h
  unfold commit
  split
  · exact .refl d path
  · split
    · split
      · rename_i stopped hstopped
        rwa [hstopped] at hcarry
      · rename_i done hdone
        rw [hdone] at hcarry
        split
        · exact hcarry
        · exact hcarry
    · exact .refl d path

end Repository
end OrgAlign.Files
