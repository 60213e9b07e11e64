import OrgAlign.Proofs.Files.Replace
import OrgAlign.Proofs.Path

/-!
# Files outside a folder

Where a path leads, if it leads anywhere, can be read off the path alone (`Disk.leads`). A file that
is replaced outside a folder leaves the files in that folder as they are. Main statements:

* `locate?_eq_leads`: a path leads to the place read off it;
* `Extends`: folders were only added, so that paths still lead where they led;
* `replace_extends`, `filesBelow_replace`: what replacing a file leaves alone;
* `isThere_of_read?_under`: where a file is read in a folder, the folder is there.
-/

namespace OrgAlign.Files

/-! ### Paths below paths -/

/-- A relative path below a folder's path leads on from the folder's segments. -/
theorem under_eq {folder path : String} (hpath : isAbsolute path = false) (hfolder : folder ≠ "") :
    ∃ above, under folder path = above ++ "/" ++ path ∧
      Path.segments above = Path.segments folder ∧
      isAbsolute (under folder path) = isAbsolute folder := by
  have hhead : ∀ rest : String, isAbsolute (folder ++ rest) = isAbsolute folder := by
    intro rest
    have hne : folder.toList ≠ [] := fun h => hfolder (String.toList_inj.1 h)
    obtain ⟨c, cs, hcs⟩ := List.exists_cons_of_ne_nil hne
    unfold isAbsolute
    rw [String.toList_append, hcs]
    rfl
  have hempty : folder.isEmpty = false := by simpa using hfolder
  unfold under
  rw [hpath, hempty]
  split
  · simp at *
  split
  · -- the folder's path ends in the slash already
    rename_i hlast
    obtain ⟨cs, hcs⟩ := List.getLast?_eq_some_iff.1 hlast
    have hsplit : folder = String.ofList cs ++ "/" := by
      apply String.toList_inj.1
      rw [String.toList_append, String.toList_ofList, hcs]
      rfl
    refine ⟨String.ofList cs, ?_, ?_, hhead path⟩
    · rw [hsplit]
    · have hsegments := Path.segments_below (String.ofList cs) ""
      rw [String.append_empty, ← hsplit] at hsegments
      rw [hsegments]
      simp
  · refine ⟨folder, rfl, rfl, ?_⟩
    rw [String.append_assoc]
    exact hhead _

/-- The steps below a folder are those to the folder and the further ones. -/
theorem stepsOf_under {folder path : String} (hpath : isAbsolute path = false)
    (hfolder : folder ≠ "") : stepsOf (under folder path) = stepsOf folder ++ stepsOf path := by
  obtain ⟨above, hunder, hsegments, -⟩ := under_eq hpath hfolder
  unfold stepsOf
  rw [hunder, Path.segments_below, hsegments, List.filter_append]

/-- A path below a folder without a step of its own can only lead to a folder. -/
theorem endsInFolder_under {folder path : String} (hpath : isAbsolute path = false)
    (hfolder : folder ≠ "") (hsteps : stepsOf path = []) :
    endsInFolder (under folder path) = true := by
  obtain ⟨above, hunder, -⟩ := under_eq hpath hfolder
  unfold endsInFolder
  rw [hunder, Bool.or_eq_true]
  cases hsegments : Path.segments path with
  | nil =>
    -- without a segment the path is empty, and what comes before it ends in a slash
    have hnone : path = "" := by
      cases hlist : path.toList with
      | nil => exact String.toList_inj.1 hlist
      | cons c cs =>
        exfalso
        have hc : c ≠ Path.separator := fun h => by simp [isAbsolute, hlist, h] at hpath
        unfold Path.segments at hsegments
        rw [hlist] at hsegments
        unfold Text.splitAt at hsegments
        rw [if_neg hc] at hsegments
        cases hsplit : Text.splitAt Path.separator cs with
        | nil => exact Text.splitAt_ne_nil _ _ hsplit
        | cons piece pieces => simp [hsplit] at hsegments
    refine .inl ?_
    rw [hnone, String.append_empty, String.toList_append]
    simp [Path.separator]
  | cons step steps =>
    -- all segments are `.`, the last one too
    refine .inr (decide_eq_true ?_)
    have hall : ∀ x ∈ Path.segments path, x = here := by
      intro x hx
      by_contra hne
      exact absurd hsteps (List.ne_nil_of_mem (List.mem_filter.2 ⟨hx, by simpa using hne⟩))
    rw [hsegments] at hall
    unfold Path.leaf
    rw [Path.segments_below, hsegments, List.getLastD_eq_getLast?,
      List.getLast?_append_of_ne_nil _ (List.cons_ne_nil _ _),
      List.getLast?_eq_some_getLast (List.cons_ne_nil _ _), Option.getD_some]
    exact hall _ (List.getLast_mem _)

/-- Long names are neither `.` nor `..`. -/
theorem ne_of_long {name : String} (h : 2 < name.length) : name ≠ here ∧ name ≠ above := by
  constructor
  · rintro rfl
    exact absurd h (by decide)
  · rintro rfl
    exact absurd h (by decide)

/-- A name behind a path does not change where the path starts. -/
theorem isAbsolute_append (path : String) {name : String} (hname : Path.IsName name) :
    isAbsolute (path ++ name) = isAbsolute path := by
  unfold isAbsolute
  rw [String.toList_append]
  cases path.toList with
  | nil =>
    obtain ⟨hne, hslash⟩ := hname
    cases hlist : name.toList with
    | nil => rfl
    | cons c cs =>
      have hc : c ≠ Path.separator := by
        rintro rfl
        exact hslash (hlist ▸ List.mem_cons_self)
      simp [hc]
  | cons c cs => rfl

/-- A name behind a path below a folder is behind the whole path. -/
theorem under_append (folder path : String) {name : String} (hname : Path.IsName name) :
    under folder (path ++ name) = under folder path ++ name := by
  unfold under
  rw [isAbsolute_append path hname]
  split
  · rfl
  · split
    · rw [String.append_assoc]
    · rw [String.append_assoc, String.append_assoc, String.append_assoc]

namespace Disk

variable {d d' : Disk}

/-! ### Where paths lead -/

/-- The place that a path leads to if all that is on the way is there. -/
def leads (d : Disk) (path : String) : Place := (stepsOf path).foldl stepFrom (d.origin path)

/-- Steps through folders lead where they say. -/
theorem walk?_eq_foldl {p q : Place} {steps : List String} (h : d.walk? p steps = some q) :
    q = steps.foldl stepFrom p := by
  induction steps generalizing p with
  | nil => exact (Option.some.inj h).symm
  | cons step steps ih =>
    unfold walk? at h
    split at h
    · exact ih h
    · cases h

/-- A path leads to the place read off it. -/
theorem locate?_eq_leads {path : String} {p : Place} (h : d.locate? path = some p) :
    p = d.leads path := walk?_eq_foldl (walk?_of_locate? h).2

/-- A name behind a path goes to the name of the place that it leads to. Only short names, `.` and
`..`, stand for other places. -/
theorem exists_leads_append (d : Disk) (path : String) : ∃ folder last, ∀ name, Path.IsName name →
    2 < name.length → d.leads (path ++ name) = folder ++ [last ++ name] := by
  obtain ⟨above, last, hsegments⟩ := Path.exists_segments_append path
  refine ⟨(above.filter (· ≠ here)).foldl stepFrom (d.origin path), last, ?_⟩
  intro name hname hlong
  have hlonger : 2 < (last ++ name).length := by
    rw [String.length_append]
    omega
  obtain ⟨hhere, habove⟩ := ne_of_long hlonger
  have horigin : d.origin (path ++ name) = d.origin path := by
    unfold origin
    rw [isAbsolute_append path hname]
  unfold leads stepsOf
  rw [hsegments name hname, List.filter_append, List.filter_cons_of_pos (by simpa using hhere),
    List.filter_nil, List.foldl_append, horigin, List.foldl_cons, List.foldl_nil]
  unfold stepFrom
  rw [if_neg habove]

/-- Steps one after the other. -/
theorem walk?_append (p : Place) (steps more : List String) :
    d.walk? p (steps ++ more) = (d.walk? p steps).bind fun q => d.walk? q more := by
  induction steps generalizing p with
  | nil => rfl
  | cons step steps ih =>
    simp only [List.cons_append, walk?]
    split
    · exact ih _
    · rfl

/-- Where a file is read in a folder, the folder is there. -/
theorem isThere_of_read?_under {folder path text : String} (hpath : isAbsolute path = false)
    (hfolder : folder ≠ "") (h : d.read? (under folder path) = some text) :
    d.isThere folder = true := by
  obtain ⟨-, -, -, habsolute⟩ := under_eq hpath hfolder
  obtain ⟨p, hp, hfile⟩ := read?_eq_some h
  have hnofolder : d.isFolder p = false := not_isFolder_of_file hfile
  unfold locate? at hp
  split at hp
  · cases hp
  obtain ⟨q, hwalk, hq⟩ := Option.bind_eq_some_iff.1 hp
  split at hq
  · cases hq
  rename_i hends
  cases hq
  have horigin : d.origin (under folder path) = d.origin folder := by
    unfold origin
    rw [habsolute]
  rw [stepsOf_under hpath hfolder, horigin, walk?_append] at hwalk
  obtain ⟨top, htop, hrest⟩ := Option.bind_eq_some_iff.1 hwalk
  have htopFolder : d.isFolder top = true := by
    cases hsteps : stepsOf path with
    | nil =>
      rw [endsInFolder_under hpath hfolder hsteps, hnofolder] at hends
      exact absurd rfl hends
    | cons step steps =>
      rw [hsteps] at hrest
      unfold walk? at hrest
      split at hrest
      · rename_i hstep
        exact (Bool.and_eq_true_iff.1 hstep).1
      · cases hrest
  have hlocate : d.locate? folder = some top := by
    unfold locate?
    rw [if_neg (by simpa using hfolder), htop]
    simp [htopFolder]
  have hat : d.at? top = some .folder := of_decide_eq_true htopFolder
  exact isThere_iff.2 ⟨top, hlocate, by rw [hat]; rfl⟩

/-! ### More folders -/

/-- Folders were only added, and the current one stayed. -/
structure Extends (d d' : Disk) : Prop where
  /-- What was a folder is one. -/
  isFolder : ∀ p, d.isFolder p = true → d'.isFolder p = true
  /-- Relative paths start at the same place. -/
  current : d'.current = d.current

theorem Extends.refl (d : Disk) : Extends d d := ⟨fun _ h => h, rfl⟩

theorem Extends.trans {d'' : Disk} (h : Extends d d') (h' : Extends d' d'') : Extends d d'' :=
  ⟨fun p hp => h'.isFolder p (h.isFolder p hp), h'.current.trans h.current⟩

theorem SameFolders.extends (h : SameFolders d d') : Extends d d' :=
  ⟨fun p hp => by rw [h.isFolder, hp], h.current⟩

/-- The places that paths say they lead to stay. -/
theorem Extends.leads (h : Extends d d') (path : String) : d'.leads path = d.leads path := by
  unfold Disk.leads origin
  rw [h.current]

/-- Steps still lead where they led. -/
theorem Extends.walk? (h : Extends d d') {p q : Place} {steps : List String}
    (hwalk : d.walk? p steps = some q) : d'.walk? p steps = some q := by
  induction steps generalizing p with
  | nil => exact hwalk
  | cons step steps ih =>
    unfold Disk.walk? at hwalk ⊢
    split at hwalk
    · rename_i hstep
      obtain ⟨hfolder, hname⟩ := Bool.and_eq_true_iff.1 hstep
      rw [h.isFolder p hfolder, hname]
      exact ih hwalk
    · cases hwalk

/-- A path still leads where it led: if it has to lead to a folder, that is one still. -/
theorem Extends.locate? (h : Extends d d') {path : String} {p : Place}
    (hpath : d.locate? path = some p) : d'.locate? path = some p := by
  unfold Disk.locate? at hpath ⊢
  split at hpath
  · cases hpath
  · rename_i hempty
    obtain ⟨q, hwalk, hq⟩ := Option.bind_eq_some_iff.1 hpath
    have horigin : d'.origin path = d.origin path := by
      unfold origin
      rw [h.current]
    split at hq
    · cases hq
    · rename_i hends
      cases hq
      rw [if_neg hempty, horigin, h.walk? hwalk, Option.bind_some, if_neg]
      intro hends'
      simp only [Bool.and_eq_true, Bool.not_eq_true'] at hends hends'
      refine hends ⟨hends'.1, Bool.eq_false_iff.2 fun hp => ?_⟩
      rw [h.isFolder p hp] at hends'
      cases hends'.2

/-! ### The files of a folder -/

/-- A place that is not below a folder is none of the places below it. -/
theorem below?_eq_none {base p : Place} (h : ¬ base <+: p) : below? base p = none := by
  unfold below?
  rw [if_neg]
  simp [h]

/-- Putting a node outside a folder leaves the folder's files. -/
theorem filesBelow_set {base p : Place} (h : ¬ base <+: p) (n : Node) :
    (d.set p n).filesBelow base = d.filesBelow base := by
  have hp := below?_eq_none h
  unfold filesBelow set
  split
  · rw [List.filterMap_map]
    refine List.filterMap_congr fun e _ => ?_
    by_cases he : e.1 = p
    · simp only [Function.comp_apply, he, beq_self_eq_true, if_true, hp]
      cases n <;> cases e.2 <;> rfl
    · simp [he]
  · rw [List.filterMap_append, List.filterMap_cons_none, List.filterMap_nil, List.append_nil]
    simp only [hp]

/-- Making a folder where nothing is leaves every folder's files. -/
theorem filesBelow_set_folder {p : Place} (h : d.at? p = none) (base : Place) :
    (d.set p .folder).filesBelow base = d.filesBelow base := by
  unfold at? at h
  split at h
  · cases h
  have habsent : ¬ d.nodes.any (·.1 == p) = true := by
    rw [Option.map_eq_none_iff, List.find?_eq_none] at h
    rw [List.any_eq_true]
    rintro ⟨e, he, hep⟩
    exact h e he hep
  unfold filesBelow set
  rw [if_neg habsent, List.filterMap_append, List.filterMap_cons_none rfl, List.filterMap_nil,
    List.append_nil]

/-- Taking away a node outside a folder leaves the folder's files. -/
theorem filesBelow_erase {base p : Place} (h : ¬ base <+: p) :
    (d.erase p).filesBelow base = d.filesBelow base := by
  unfold filesBelow erase
  rw [List.filterMap_filter]
  refine List.filterMap_congr fun e _ => ?_
  split
  · rfl
  · rename_i he
    have hp : e.1 = p := by simpa using he
    rw [hp, below?_eq_none h]
    cases e.2 <;> rfl

/-! ### Replacing a file -/

/-- Making way leaves every folder's files. -/
theorem filesBelow_makeWay {p : Place} {steps : List String} {made : Bool}
    (h : d.makeWay p steps = (made, d')) (base : Place) :
    d'.filesBelow base = d.filesBelow base := by
  refine makeWay_keeps (P := fun x => x.filesBelow base = d.filesBelow base) ?_ h rfl
  intro x p hnone hx
  exact (filesBelow_set_folder hnone base).trans hx

/-- Making way to a path, also where it fails, adds folders and leaves every folder's files. -/
theorem makeParent_extends {path : String} {made : Bool} (h : d.makeParent path = (made, d')) :
    Extends d d' ∧ ∀ base, d'.filesBelow base = d.filesBelow base := by
  unfold makeParent at h
  split at h
  · obtain rfl := (Prod.mk.inj h).2
    exact ⟨Extends.refl d, fun _ => rfl⟩
  · obtain ⟨hgrows, hcurrent⟩ := makeWay_grows h
    exact ⟨⟨hgrows, hcurrent⟩, filesBelow_makeWay h⟩

/-- Replacing a file leaves the folders. -/
theorem replace_extends {path text : String} (h : d.replace path text = (true, d')) :
    Extends d d' := by
  obtain ⟨way, p, q, hway, -, -, hp, -, hq, rfl⟩ := replace_eq_true h
  exact (makeParent_extends hway).1.trans (sameFolders_replaced hp hq text).extends

/-- **Replacing a file outside a folder leaves the folder's files**, if the temporary file is not
inside, either; it cannot be in the folder's own place. -/
theorem filesBelow_replace {path text : String} (h : d.replace path text = (true, d'))
    {base : Place} (hbase : d.isFolder base = true) (hout : ¬ base <+: d.leads path)
    (htemporary : base <+: d.leads (temporary path) → base = d.leads (temporary path)) :
    d'.filesBelow base = d.filesBelow base := by
  obtain ⟨way, p, q, hway, -, hp, hpfolder, hq, -, rfl⟩ := replace_eq_true h
  obtain ⟨hextends, hfiles⟩ := makeParent_extends hway
  have hp' : p = d.leads (temporary path) := (locate?_eq_leads hp).trans (hextends.leads _)
  have hq' : q = d.leads path := (locate?_eq_leads hq).trans (hextends.leads _)
  have hpout : ¬ base <+: p := by
    intro hbelow
    have heq : base = p := (htemporary (hp' ▸ hbelow)).trans hp'.symm
    rw [← heq, hextends.isFolder base hbase] at hpfolder
    cases hpfolder
  rw [filesBelow_set (hq' ▸ hout), filesBelow_erase hpout, filesBelow_set hpout, hfiles]

end Disk
end OrgAlign.Files
