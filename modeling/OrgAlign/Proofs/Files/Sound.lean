import Mathlib.Data.List.Nodup
import OrgAlign.Proofs.Files.Fingerprint
import OrgAlign.Proofs.Files.Replace

/-!
# Sound disks

On a sound disk a place stands once, and the names on the way to it can be names of files. Paths
are made of such names, so whatever is done with files, a commit included, keeps a disk sound, also
where it fails half way. Main statements:

* `Sound.at?_eq_some_iff`, `Sound.mem_filesBelow_iff`: what is at a place, and below a folder;
* `Follows`: the disk is still sound, and relative paths start where they started;
* `replace_follows`, `Repository.commit_follows`: replacing a file and committing do that.
-/

namespace OrgAlign.Files

namespace Disk

variable {d d' d'' : Disk}

/-- Places stand once, and are made of names that files can have. -/
structure Sound (d : Disk) : Prop where
  /-- Every place stands once. -/
  nodup : (d.nodes.map Prod.fst).Nodup
  /-- The names on the way to it can be names of files. -/
  names : ∀ e ∈ d.nodes, ∀ name ∈ e.1, IsFileName name
  /-- So can those on the way to the current folder. -/
  current : ∀ name ∈ d.current, IsFileName name

instance : DecidablePred Sound := fun d =>
  decidable_of_iff ((d.nodes.map Prod.fst).Nodup ∧
    (∀ e ∈ d.nodes, ∀ name ∈ e.1, IsFileName name) ∧ ∀ name ∈ d.current, IsFileName name)
    ⟨fun h => ⟨h.1, h.2.1, h.2.2⟩, fun h => ⟨h.nodup, h.names, h.current⟩⟩

/-! ### What is where -/

/-- What is at a place below the top stands there. -/
theorem Sound.at?_eq_some_iff (hd : d.Sound) {p : Place} (hp : p ≠ []) {n : Node} :
    d.at? p = some n ↔ (p, n) ∈ d.nodes := by
  unfold at?
  rw [if_neg hp, Option.map_eq_some_iff]
  constructor
  · rintro ⟨e, hfind, rfl⟩
    have hplace : e.1 = p := by simpa using List.find?_some hfind
    exact hplace ▸ List.mem_of_find?_eq_some hfind
  · intro hmem
    cases hfind : d.nodes.find? (·.1 == p) with
    | none => exact absurd (beq_self_eq_true p) (List.find?_eq_none.1 hfind _ hmem)
    | some e =>
      have hplace : e.1 = p := by simpa using List.find?_some hfind
      have hthere := List.mem_of_find?_eq_some hfind
      exact ⟨e, rfl, congrArg Prod.snd (List.inj_on_of_nodup_map hd.nodup hthere hmem hplace)⟩

/-- The steps below a folder are those that lead on from it. -/
theorem below?_eq_some_iff {base p steps : List String} :
    below? base p = some steps ↔ steps ≠ [] ∧ p = base ++ steps := by
  unfold below?
  constructor
  · intro h
    split at h
    · rename_i hbelow
      simp only [Bool.and_eq_true, List.isPrefixOf_iff_prefix, decide_eq_true_eq] at hbelow
      obtain ⟨⟨more, rfl⟩, hne⟩ := hbelow
      rw [List.drop_left] at h
      cases h
      exact ⟨fun hnil => hne (by rw [hnil, List.append_nil]), rfl⟩
    · cases h
  · rintro ⟨hne, rfl⟩
    rw [if_pos, List.drop_left]
    simp [hne]

/-- The files below a folder are those at the places below it. -/
theorem Sound.mem_filesBelow_iff (hd : d.Sound) {base : Place} {steps : List String}
    {text : String} : (steps, text) ∈ d.filesBelow base ↔
      steps ≠ [] ∧ d.at? (base ++ steps) = some (.file text) := by
  unfold filesBelow
  rw [List.mem_filterMap]
  constructor
  · rintro ⟨⟨p, n⟩, he, hfile⟩
    split at hfile
    · rename_i text' steps' hn hbelow
      cases hfile
      obtain ⟨hne, hp⟩ := below?_eq_some_iff.1 hbelow
      refine ⟨hne, (hd.at?_eq_some_iff (by simp [hne])).2 ?_⟩
      rw [← hp, ← hn]
      exact he
    · cases hfile
  · rintro ⟨hne, hthere⟩
    refine ⟨(base ++ steps, .file text), (hd.at?_eq_some_iff (by simp [hne])).1 hthere, ?_⟩
    simp only [below?_eq_some_iff.2 ⟨hne, rfl⟩]

/-! ### One change -/

/-- The disk is sound still, and relative paths start where they started. -/
structure Follows (d d' : Disk) : Prop where
  /-- It is sound. -/
  sound : d'.Sound
  /-- The current folder stayed. -/
  current : d'.current = d.current

theorem Follows.refl (hd : d.Sound) : Follows d d := ⟨hd, rfl⟩

theorem Follows.trans (h : Follows d d') (h' : Follows d' d'') : Follows d d'' :=
  ⟨h'.sound, h'.current.trans h.current⟩

/-- Putting a node at a place made of file names keeps a disk sound. -/
theorem set_follows (hd : d.Sound) {p : Place} (hp : ∀ name ∈ p, IsFileName name) (n : Node) :
    Follows d (d.set p n) := by
  unfold set
  split
  · have hplaces : (d.nodes.map fun e => if e.1 == p then (p, n) else e).map Prod.fst =
        d.nodes.map Prod.fst := by
      rw [List.map_map]
      refine List.map_congr_left fun e _ => ?_
      by_cases he : e.1 = p
      · simp [he]
      · simp [he]
    refine ⟨⟨hplaces ▸ hd.nodup, ?_, hd.current⟩, rfl⟩
    intro e he
    obtain ⟨f, hf, rfl⟩ := List.mem_map.1 he
    split
    · exact hp
    · exact hd.names f hf
  · rename_i habsent
    simp only [Bool.not_eq_true, List.any_eq_false, beq_iff_eq] at habsent
    refine ⟨⟨?_, ?_, hd.current⟩, rfl⟩
    · rw [List.map_append, List.nodup_append]
      refine ⟨hd.nodup, List.nodup_singleton p, ?_⟩
      intro q hq q' hq' heq
      obtain ⟨e, he, rfl⟩ := List.mem_map.1 hq
      exact habsent e he (heq.trans (List.mem_singleton.1 hq'))
    · intro e he
      rcases List.mem_append.1 he with he | he
      · exact hd.names e he
      · rw [List.mem_singleton.1 he]
        exact hp

/-- Taking a node away keeps a disk sound. -/
theorem erase_follows (hd : d.Sound) (p : Place) : Follows d (d.erase p) :=
  ⟨⟨hd.nodup.sublist (List.filter_sublist.map Prod.fst),
    fun e he => hd.names e (List.mem_filter.1 he).1, hd.current⟩, rfl⟩

/-! ### Where paths lead -/

/-- A step leads to a place made of file names. -/
theorem names_stepFrom {p : Place} (hp : ∀ name ∈ p, IsFileName name) {step : String}
    (hstep : Path.IsName step) (hname : isName step = true) :
    ∀ name ∈ stepFrom p step, IsFileName name := by
  unfold stepFrom
  split
  · exact fun name hmem => hp name (List.dropLast_subset p hmem)
  · intro name hmem
    rcases List.mem_append.1 hmem with hmem | hmem
    · exact hp name hmem
    · obtain rfl := List.mem_singleton.1 hmem
      refine ⟨hstep, ?_⟩
      unfold isName at hname
      simp only [Bool.and_eq_true, Bool.not_eq_true', List.contains_eq_mem,
        decide_eq_false_iff_not] at hname
      exact hname.2

/-- Steps lead to a place made of file names. -/
theorem names_walk? {p q : Place} (hp : ∀ name ∈ p, IsFileName name) {steps : List String}
    (hsteps : ∀ step ∈ steps, Path.IsName step) (h : d.walk? p steps = some q) :
    ∀ name ∈ q, IsFileName name := by
  induction steps generalizing p with
  | nil =>
    cases h
    exact hp
  | cons step steps ih =>
    obtain ⟨hstep, hsteps⟩ := List.forall_mem_cons.1 hsteps
    unfold walk? at h
    split at h
    · rename_i hgo
      exact ih (names_stepFrom hp hstep (Bool.and_eq_true_iff.1 hgo).2) hsteps h
    · cases h

/-- The steps of a path are names. -/
theorem isName_of_mem_stepsOf (path : String) : ∀ step ∈ stepsOf path, Path.IsName step :=
  fun _ hstep => Path.isName_of_mem_segments (List.mem_filter.1 hstep).1

theorem Sound.names_origin (hd : d.Sound) (path : String) :
    ∀ name ∈ d.origin path, IsFileName name := by
  unfold origin
  split
  · exact fun name hmem => absurd hmem List.not_mem_nil
  · exact hd.current

/-- A path leads to a place made of file names. -/
theorem Sound.names_locate? (hd : d.Sound) {path : String} {p : Place}
    (h : d.locate? path = some p) : ∀ name ∈ p, IsFileName name :=
  names_walk? (hd.names_origin path) (isName_of_mem_stepsOf path) (walk?_of_locate? h).2

/-! ### Operations -/

/-- Making way keeps a disk sound, also where a file is in the way. -/
theorem makeWay_follows (hd : d.Sound) {p : Place} (hp : ∀ name ∈ p, IsFileName name)
    {steps : List String} (hsteps : ∀ step ∈ steps, Path.IsName step) :
    Follows d (d.makeWay p steps).2 := by
  induction steps generalizing d p with
  | nil => exact Follows.refl hd
  | cons step steps ih =>
    obtain ⟨hstep, hsteps⟩ := List.forall_mem_cons.1 hsteps
    simp only [makeWay]
    split
    · rename_i hgo
      have hnext := names_stepFrom hp hstep (Bool.and_eq_true_iff.1 hgo).2
      split
      · exact ih hd hnext hsteps
      · have hset := set_follows hd hnext .folder
        exact hset.trans (ih hset.sound hnext hsteps)
    · exact Follows.refl hd

theorem makeParent_follows (hd : d.Sound) (path : String) : Follows d (d.makeParent path).2 := by
  unfold makeParent
  split
  · exact Follows.refl hd
  · refine makeWay_follows hd (hd.names_origin path) fun step hstep => ?_
    exact isName_of_mem_stepsOf path step (List.dropLast_subset _ hstep)

theorem write?_follows (hd : d.Sound) {path text : String} (h : d.write? path text = some d') :
    Follows d d' := by
  obtain ⟨-, p, hp, -, rfl⟩ := write?_eq_some h
  exact set_follows hd (hd.names_locate? hp) _

theorem rename?_follows (hd : d.Sound) {source target : String}
    (h : d.rename? source target = some d') : Follows d d' := by
  obtain ⟨p, q, text, -, -, hq, -, rfl⟩ := rename?_eq_some h
  have herase := erase_follows hd p
  exact herase.trans (set_follows herase.sound (hd.names_locate? hq) _)

theorem remove?_follows (hd : d.Sound) {path : String} (h : d.remove? path = some d') :
    Follows d d' := by
  obtain ⟨p, -, -, rfl⟩ := remove?_eq_some h
  exact erase_follows hd p

/-- Replacing a file keeps a disk sound, also where it fails. -/
theorem replace_follows (hd : d.Sound) (path text : String) :
    Follows d (d.replace path text).2 := by
  have hway := makeParent_follows hd path
  unfold replace
  split
  · rename_i way hmade
    rw [hmade] at hway
    exact hway
  · rename_i way hmade
    rw [hmade] at hway
    split
    · exact hway
    · rename_i written hwritten
      have hwrite := hway.trans (write?_follows hway.sound hwritten)
      split
      · rename_i renamed hrenamed
        exact hwrite.trans (rename?_follows hwrite.sound hrenamed)
      · -- the temporary file is taken away again, if it can be
        cases hremove : written.remove? (temporary path) with
        | none => exact hwrite
        | some removed => exact hwrite.trans (remove?_follows hwrite.sound hremove)

end Disk

/-! ### Commits -/

namespace Repository

open Disk

variable {r : Repository} {d : Disk}

theorem putAll_follows (hd : d.Sound) (puts : List (String × String)) :
    Follows d (r.putAll puts d).2 := by
  induction puts generalizing d with
  | nil => exact Follows.refl hd
  | cons put puts ih =>
    have hreplace := replace_follows hd (r.pathOf put.1) put.2
    unfold putAll
    split
    · rename_i replaced hdone
      rw [hdone] at hreplace
      exact hreplace.trans (ih hreplace.sound)
    · rename_i replaced hdone
      rw [hdone] at hreplace
      exact hreplace

theorem deleteAll_follows (hd : d.Sound) (deletes : List String) :
    Follows d (r.deleteAll deletes d).2 := by
  induction deletes generalizing d with
  | nil => exact Follows.refl hd
  | cons path deletes ih =>
    unfold deleteAll
    split
    · split
      · rename_i removed hremove
        have hremoved := remove?_follows hd hremove
        exact hremoved.trans (ih hremoved.sound)
      · exact Follows.refl hd
    · exact ih hd

theorem carryOut_follows (hd : d.Sound) (request : CommitRequest) :
    Follows d (r.carryOut request d).2 := by
  have hput := putAll_follows (r := r) hd request.puts
  unfold carryOut
  split
  · rename_i put hdone
    rw [hdone] at hput
    exact hput.trans (deleteAll_follows hput.sound request.deletes)
  · rename_i put hdone
    rw [hdone] at hput
    exact hput

/-- A commit keeps a disk sound, whatever its answer. -/
theorem commit_follows (hd : d.Sound) (repository : String) (request : CommitRequest) :
    Follows d (r.commit d repository request).2 := by
  have hcarry := carryOut_follows (r := r) hd request
  unfold commit
  split
  · exact Follows.refl hd
  split
  · split
    · rename_i done hdone
      rw [hdone] at hcarry
      exact hcarry
    · rename_i done hdone
      rw [hdone] at hcarry
      split
      · exact hcarry
      · exact hcarry
  · exact Follows.refl hd

end Repository
end OrgAlign.Files
