import OrgAlign.Drift.Detect
import OrgAlign.Proofs.Config.Renames
import OrgAlign.Proofs.Drift.Amendment

/-!
# Keys of units that moved

Units that moved since the state was published are followed one after the other, the shallowest
first, and each time the keys at or below the old path go to the new one. Main statements:

* `forall₂_detect`: what following the organization makes of each key, move by move;
* `detect_follows_units`: where no key is caught twice, the key of every unit that was recorded and
  is still there becomes the path it has now;
* `detect_misses_moved_child`: a unit that was renamed together with the one above it is lost.
-/

namespace OrgAlign.Drift

open Config Org

variable {tree : OrgTree} {r r' : Amendment}

/-! ### Moves -/

/-- A path that was recorded and the path it is now. -/
abbrev Move := String × String

/-- Where the recorded units were that are still there, and where they are. -/
def sightings (tree : OrgTree) (ous : List CanonicalOu) : List Move :=
  ous.filterMap fun before => (tree.ouById? before.id).map fun live => (before.path, live.path)

/-- The sightings of units that are elsewhere now. -/
def moves (tree : OrgTree) (ous : List CanonicalOu) : List Move :=
  (sightings tree ous).filter fun m => m.1 ≠ m.2

/-- What following moves one after the other may make of a key. -/
def Trail : List Move → String → String → Prop
  | [], k, k' => k' = k
  | m :: ms, k, k' => ∃ k₁, Follows m.1 m.2 k k₁ ∧ Trail ms k₁ k'

theorem Trail.append {ms ms' : List Move} {k k₁ k' : String} (h : Trail ms k k₁)
    (h' : Trail ms' k₁ k') : Trail (ms ++ ms') k k' := by
  induction ms generalizing k with
  | nil => exact (h : k₁ = k) ▸ h'
  | cons m ms ih =>
    obtain ⟨k₂, hm, hms⟩ := h
    exact ⟨k₂, hm, ih hms⟩

/-- What following a unit makes of each key of each file. -/
theorem forall₂_followOu {before : CanonicalOu} (hkey : before.logicalKey = before.path)
    (h : followOu tree r before = .ok r') :
    List.Forall₂ (Trail (moves tree [before])) r.workspace.ous.keys r'.workspace.ous.keys := by
  have hsame : List.Forall₂ (Trail []) r.workspace.ous.keys r.workspace.ous.keys :=
    List.forall₂_same.2 fun _ _ => rfl
  simp only [followOu] at h
  cases hlive : tree.ouById? before.id with
  | none =>
    rw [hlive] at h
    cases h
    simpa [moves, sightings, hlive] using hsame
  | some live =>
    simp only [hlive, newKey?] at h
    by_cases hpath : live.path = before.path
    · rw [if_pos hpath] at h
      cases h
      simpa [moves, sightings, hlive, hpath] using hsame
    · have hmoves : moves tree [before] = [(before.path, live.path)] := by
        simp [moves, sightings, hlive, Ne.symm hpath]
      rw [if_neg hpath, if_pos hkey, hkey] at h
      simp only at h
      cases hrenamed : r.workspace.renameOu before.path live.path with
      | error e =>
        rw [hrenamed] at h
        cases h
      | ok renamed =>
        have hworkspace : r'.workspace = renamed.1 := by
          rw [hrenamed] at h
          cases h
          simp only
          split <;> rfl
        rw [hmoves, hworkspace]
        exact (Workspace.forall₂_renameOu (Ne.symm hpath) hrenamed).imp
          fun k k' hk => ⟨k', hk, rfl⟩

/-- What following units makes of each key of each file. -/
theorem forall₂_followOus {ous : List CanonicalOu}
    (hkeys : ∀ before ∈ ous, before.logicalKey = before.path)
    (h : followOus tree ous r = (none, r')) :
    List.Forall₂ (Trail (moves tree ous)) r.workspace.ous.keys r'.workspace.ous.keys := by
  induction ous generalizing r with
  | nil =>
    cases h
    exact List.forall₂_same.2 fun _ _ => rfl
  | cons before ous ih =>
    unfold followOus at h
    split at h
    · rename_i r₁ hstep
      have hsplit : moves tree (before :: ous) = moves tree [before] ++ moves tree ous := by
        unfold moves
        rw [← List.filter_append]
        unfold sightings
        rw [← List.filterMap_append]
        rfl
      rw [hsplit]
      exact forall₂_trans (T := Trail (moves tree [before] ++ moves tree ous))
        (fun _ _ _ hk hk' => hk.append hk')
        (forall₂_followOu (hkeys before List.mem_cons_self) hstep)
        (ih (fun b hb => hkeys b (List.mem_cons_of_mem before hb)) h)
    · cases h

/-- What following the organization makes of each key of each file: the moves are followed one after
the other, the shallowest recorded paths first. -/
theorem forall₂_detect {state : PublishedState} {w : Workspace}
    (hkeys : ∀ before ∈ state.ous, before.logicalKey = before.path)
    (h : detect tree (some state) w = (none, r)) :
    List.Forall₂ (Trail (moves tree (byDepth state.ous))) w.ous.keys r.workspace.ous.keys := by
  have hous : (markAllSuspended tree
      (state.accounts.foldl (followAccount tree) ⟨w, []⟩)).workspace.ous = w.ous := by
    have hpatch : ∀ (w' : Workspace) key p, w'.ous = w.ous →
        (w'.updateAccount key p).1.ous = w.ous :=
      fun _ _ _ hw => Workspace.ous_updateAccount.trans hw
    refine markAllSuspended_keeps (fun w' => w'.ous = w.ous) hpatch ?_
    exact foldl_keeps (fun r : Amendment => r.workspace.ous = w.ous)
      (fun r a hr => followAccount_keeps (fun w' => w'.ous = w.ous) hpatch a hr) _ _ rfl
  have hordered : ∀ before ∈ byDepth state.ous, before.logicalKey = before.path := by
    intro before hbefore
    rw [byDepth, Sorting.mem_sort] at hbefore
    exact hkeys before hbefore
  have hfollowed := forall₂_followOus hordered h
  rwa [hous] at hfollowed

/-! ### Moves that do not interfere -/

/-- The recorded units moved such that no key of theirs is caught twice when the moves are followed
one after the other in this order. -/
structure Orderly (tree : OrgTree) (ous : List CanonicalOu) (keys : List String) : Prop where
  /-- What was at or below a unit that moved went along with it. -/
  along : ∀ m ∈ moves tree ous, ∀ b ∈ sightings tree ous, b.1 ∈ keys →
    Path.Under b.1 m.1 → Path.rebase b.1 m.1 m.2 = some b.2
  /-- What went along with a unit did not go to a place at or below where that unit was, … -/
  away : ∀ m ∈ moves tree ous, ∀ b ∈ sightings tree ous, b.1 ∈ keys →
    Path.Under b.1 m.1 → ¬ Path.Under b.2 m.1
  /-- … nor to a place at or below where a unit was that is followed later. -/
  clear : (moves tree ous).Pairwise fun m later => ∀ b ∈ sightings tree ous, b.1 ∈ keys →
    Path.Under b.1 m.1 → ¬ Path.Under b.2 later.1

namespace Trail

variable {ms : List Move} {k k' : String}

/-- A key that no move is for stays. -/
theorem eq_self (h : Trail ms k k') (hms : ∀ m ∈ ms, ¬ Path.Under k m.1) : k' = k := by
  induction ms with
  | nil => exact h
  | cons m ms ih =>
    obtain ⟨k₁, hm, hrest⟩ := h
    have hsame : k₁ = k := hm.1 (hms m List.mem_cons_self)
    subst hsame
    exact ih hrest fun m' hm' => hms m' (List.mem_cons_of_mem m hm')

/-- A key of a unit waits for the first move that the unit went along with, and stays where that
move takes it. -/
theorem arrives {b : Move} (h : Trail ms b.1 k') (hself : b.1 ≠ b.2 → b ∈ ms)
    (halong : ∀ m ∈ ms, Path.Under b.1 m.1 → Path.rebase b.1 m.1 m.2 = some b.2)
    (haway : ∀ m ∈ ms, Path.Under b.1 m.1 → ¬ Path.Under b.2 m.1)
    (hclear : ms.Pairwise fun m later => Path.Under b.1 m.1 → ¬ Path.Under b.2 later.1) :
    k' = b.2 := by
  induction ms with
  | nil =>
    by_contra hne
    exact absurd (hself fun hsame => hne ((h : k' = b.1).trans hsame)) List.not_mem_nil
  | cons m ms ih =>
    obtain ⟨k₁, hm, hrest⟩ := h
    obtain ⟨hlater, hclear⟩ := List.pairwise_cons.1 hclear
    by_cases hunder : Path.Under b.1 m.1
    · have hmoved : k₁ = b.2 := hm.2 _ (halong m List.mem_cons_self hunder)
        (haway m List.mem_cons_self hunder)
      subst hmoved
      exact hrest.eq_self fun later hin => hlater later hin hunder
    · have hsame : k₁ = b.1 := hm.1 hunder
      subst hsame
      refine ih hrest (fun hne => ?_) (fun m' hm' => halong m' (List.mem_cons_of_mem m hm'))
        (fun m' hm' => haway m' (List.mem_cons_of_mem m hm')) hclear
      refine (List.mem_cons.1 (hself hne)).resolve_left fun hb => hunder ?_
      rw [← hb]
      exact .inl rfl

end Trail

/-- **Where no key is caught twice, every key follows its unit.** Whatever else the configuration
declares, in one file or in several: if following the organization meets no conflict, each key that
is the recorded path of a unit that is still there becomes the path that the unit has now. -/
theorem detect_follows_units {state : PublishedState} {w : Workspace}
    (hkeys : ∀ before ∈ state.ous, before.logicalKey = before.path)
    (horderly : Orderly tree (byDepth state.ous) w.ous.keys)
    (h : detect tree (some state) w = (none, r)) :
    List.Forall₂ (fun k k' => ∀ before ∈ state.ous, ∀ live, tree.ouById? before.id = some live →
      k = before.path → k' = live.path) w.ous.keys r.workspace.ous.keys := by
  refine ((List.forall₂_and_left (p := (· ∈ w.ous.keys)) _ _).2
    ⟨fun k hk => hk, forall₂_detect hkeys h⟩).imp ?_
  rintro k k' ⟨hk, htrail⟩ before hbefore live hlive rfl
  have hb : (before.path, live.path) ∈ sightings tree (byDepth state.ous) := by
    refine List.mem_filterMap.2 ⟨before, ?_, by rw [hlive]; rfl⟩
    rwa [byDepth, Sorting.mem_sort]
  refine Trail.arrives (b := (before.path, live.path)) htrail (fun hne => ?_)
    (fun m hm => horderly.along m hm _ hb hk) (fun m hm => horderly.away m hm _ hb hk)
    (horderly.clear.imp fun hclear => hclear _ hb hk)
  exact List.mem_filter.2 ⟨hb, by simpa using hne⟩

/-- Units that were recorded as `A`, `A/X` and `C`. -/
def recordedUnits : PublishedState :=
  { publishedAt := ⟨0, 0, 0⟩, commitId := "c0", accounts := [], warnings := []
    ous := [⟨"ou-3", "C", "C", "C"⟩, ⟨"ou-2", "X", "A/X", "A/X"⟩, ⟨"ou-1", "A", "A", "A"⟩] }

/-- A configuration that declares units, some of them twice. -/
def declaredUnits : Workspace :=
  { rootPath := "c.yaml", options := {}, mandatory := ⟨.inline .empty, []⟩
    workload := ⟨.inline .empty, []⟩, extra := [], rootDirty := false, deleted := []
    loadedTexts := []
    ous := ⟨.load ["a.yaml", "b.yaml"],
      [⟨"a.yaml", .ofList [("A", {}), ("C", {}), ("A/New", {})], false⟩,
        ⟨"b.yaml", .ofList [("A/X", {}), ("A", {})], false⟩]⟩ }

/-- `A` is called `B` now and `C` is called `D`. -/
def renamedUnits : OrgTree :=
  ⟨"r-1", [⟨"ou-1", "B", "r-1", "B"⟩, ⟨"ou-2", "X", "ou-1", "B/X"⟩, ⟨"ou-3", "D", "r-1", "D"⟩], []⟩

/-- Two units are followed, with what lies below one of them. -/
theorem detect_follows_renamed_units :
    (∀ before ∈ recordedUnits.ous, before.logicalKey = before.path) ∧
      Orderly renamedUnits (byDepth recordedUnits.ous) declaredUnits.ous.keys ∧
      ∃ r, detect renamedUnits (some recordedUnits) declaredUnits = (none, r) ∧
        List.Forall₂ (fun k k' => ∀ before ∈ recordedUnits.ous, ∀ live,
          renamedUnits.ouById? before.id = some live → k = before.path → k' = live.path)
          declaredUnits.ous.keys r.workspace.ous.keys := by
  have hkeys : ∀ before ∈ recordedUnits.ous, before.logicalKey = before.path := by decide
  have horderly : Orderly renamedUnits (byDepth recordedUnits.ous) declaredUnits.ous.keys :=
    ⟨by decide +kernel, by decide +kernel, by decide +kernel⟩
  have hrun : (detect renamedUnits (some recordedUnits) declaredUnits).1 = none := by
    decide +kernel
  exact ⟨hkeys, horderly, _, Prod.ext hrun rfl,
    detect_follows_units hkeys horderly (Prod.ext hrun rfl)⟩

/-- A unit that was recorded, and one below it. -/
def nestedUnits : PublishedState :=
  { recordedUnits with ous := [⟨"ou-1", "A", "A", "A"⟩, ⟨"ou-2", "X", "A/X", "A/X"⟩] }

/-- A configuration that declares both. -/
def nestedKeys : Workspace :=
  { declaredUnits with ous := ⟨.inline (.ofList [("A", {}), ("A/X", {})]), []⟩ }

/-- `A` is called `B` now, and the unit below it, which was `X`, is called `Y`. -/
def renamedTwice : OrgTree :=
  ⟨"r-1", [⟨"ou-1", "B", "r-1", "B"⟩, ⟨"ou-2", "Y", "ou-1", "B/Y"⟩], []⟩

/-- Following `A` takes the key `A/X` to `B/X`, and then nothing is found under `A/X` that could
follow the unit to `B/Y`. -/
theorem detect_misses_moved_child :
    (nestedUnits.ous.map CanonicalOu.id).Nodup ∧ (nestedUnits.ous.map CanonicalOu.path).Nodup ∧
      (∀ before ∈ nestedUnits.ous, before.logicalKey = before.path) ∧
      (renamedTwice.ouById? "ou-2").map LiveOu.path = some "B/Y" ∧
      nestedKeys.ous.keys = ["A", "A/X"] ∧
      ∃ r, detect renamedTwice (some nestedUnits) nestedKeys = (none, r) ∧
        r.workspace.ous.keys = ["B", "B/X"] := by
  have hrun : (detect renamedTwice (some nestedUnits) nestedKeys).1 = none := by
    decide +kernel
  exact ⟨by decide, by decide, by decide, by decide, by decide, _, Prod.ext hrun rfl,
    by decide +kernel⟩

end OrgAlign.Drift
