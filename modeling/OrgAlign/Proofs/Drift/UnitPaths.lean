import OrgAlign.Proofs.Drift.InPlace
import OrgAlign.Proofs.Drift.Minimal

/-!
# The paths there are after convergence

Where names make paths, the last segment of a unit's path is its name, and every beginning of it is
a unit's path. So the paths that there are when a reference is looked up decide what becomes of it:
nothing if it is a bare name and some unit has it, and else every beginning of it is there
afterwards. Main statements:

* `hasName_createDeclared`, `mem_paths_createDeclared`: the names and the paths after one reference;
* `mem_paths_foldl`: the paths after a list of references, which are passed over if an earlier one
  has them as a segment;
* `mem_paths_converge`: the paths after convergence, the unit of suspended accounts included.
-/

namespace OrgAlign.Drift

open Config Org Reconcile

namespace Convergence

variable {c : Convergence} {config : Configuration}

/-! ### Names and paths -/

/-- A unit has the name. -/
def HasName (t : OrgTree) (name : String) : Prop := ∃ ou ∈ t.ous, ou.name = name

/-- A unit's path ends with its name. -/
theorem Charted.leaf_path (hc : c.Charted) (hn : c.org.snapshot.Named) {ou : LiveOu}
    (hou : ou ∈ c.tree.ous) : Path.IsName ou.name ∧ Path.leaf ou.path = ou.name := by
  rw [hc.charts.ous] at hou
  obtain ⟨node, hnode, rfl⟩ := List.mem_map.1 hou
  have hname := hn.names node hnode
  refine ⟨hname, ?_⟩
  change Path.leaf (c.org.snapshot.pathOf node) = node.name
  rw [hc.rooted.linked.pathOf_eq_join hnode, Path.leaf_join _ hname]

/-- A unit has the name iff a path ends with it. -/
theorem Charted.hasName_iff (hc : c.Charted) (hn : c.org.snapshot.Named) {name : String} :
    HasName c.tree name ↔ ∃ path ∈ paths c.tree, Path.leaf path = name := by
  constructor
  · rintro ⟨ou, hou, rfl⟩
    exact ⟨ou.path, List.mem_map_of_mem hou, (hc.leaf_path hn hou).2⟩
  · rintro ⟨path, hpath, rfl⟩
    obtain ⟨ou, hou, rfl⟩ := mem_paths.1 hpath
    exact ⟨ou, hou, (hc.leaf_path hn hou).2.symm⟩

/-- Every beginning of a path that is there is there. -/
theorem Charted.mem_paths_of_ancestry (hc : c.Charted) (hn : c.org.snapshot.Named)
    {path start : String} (hpath : path ∈ paths c.tree) (hstart : start ∈ Path.ancestry path) :
    start ∈ paths c.tree := by
  obtain ⟨ou, hou, rfl⟩ := mem_paths.1 hpath
  rw [hc.charts.ous] at hou
  obtain ⟨node, hnode, rfl⟩ := List.mem_map.1 hou
  obtain ⟨up, hup, hat⟩ := hc.rooted.linked.exists_of_mem_ancestry hn hnode hstart
  refine mem_paths.2 ⟨c.org.snapshot.located up, ?_, hat⟩
  rw [hc.charts.ous]
  exact List.mem_map_of_mem hup

/-! ### One reference -/

/-- After a reference was looked up there are the paths that there were and every beginning of the
reference, unless it is ignored, or a bare name that some unit has. -/
theorem mem_paths_createDeclared (g : GlobalOptions) {declared : String} (hc : c.Charted)
    (hn : c.org.snapshot.Named) (hfail : Unharmed c.org (createDeclared g c declared).org)
    {path : String} : path ∈ paths (createDeclared g c declared).tree ↔ path ∈ paths c.tree ∨
      (g.isIgnored (Path.topLevel declared) = false ∧ path ∈ Path.ancestry declared ∧
        ¬ (Path.IsName declared ∧ HasName c.tree declared)) := by
  obtain ⟨-, -, -, hpaths⟩ := createDeclared_adds g declared hc
  rw [hpaths hfail]
  cases hnowhere : leadsNowhere g c declared with
  | true =>
    obtain ⟨hignored, hmatch⟩ := Bool.and_eq_true_iff.1 hnowhere
    obtain ⟨-, hname⟩ := matchOu_eq_notFound.1 (beq_iff_eq.1 hmatch)
    rw [if_pos rfl, Configuration.mem_foldl_addNew]
    refine or_congr_right ⟨fun hpath => ⟨by simpa using hignored, hpath, ?_⟩, fun h => h.2.1⟩
    rintro ⟨-, ou, hou, hat⟩
    exact hname ou hou hat
  | false =>
    rw [if_neg Bool.false_ne_true]
    refine ⟨.inl, ?_⟩
    rintro (hpath | ⟨hignored, hstart, hbare⟩)
    · exact hpath
    · -- the reference leads somewhere, and so it is a path that is there
      by_contra hnew
      refine Bool.false_ne_true
        (hnowhere.symm.trans (Bool.and_eq_true_iff.2 ⟨by simp [hignored], ?_⟩))
      rw [beq_iff_eq, matchOu_eq_notFound]
      constructor
      · intro ou hou hat
        exact hnew (hc.mem_paths_of_ancestry hn (mem_paths.2 ⟨ou, hou, hat⟩) hstart)
      · intro ou hou hat
        exact hbare ⟨hat ▸ (hc.leaf_path hn hou).1, ou, hou, hat⟩

/-- After a reference was looked up units have the names that there were, and the segments of the
reference unless it is ignored. -/
theorem hasName_createDeclared (g : GlobalOptions) {declared : String} (hc : c.Charted)
    (hn : c.org.snapshot.Named) (hfail : Unharmed c.org (createDeclared g c declared).org)
    {name : String} : HasName (createDeclared g c declared).tree name ↔ HasName c.tree name ∨
      (g.isIgnored (Path.topLevel declared) = false ∧ name ∈ Path.segments declared) := by
  have hafter : HasName (createDeclared g c declared).tree name ↔ _ :=
    (createDeclared_grows g declared hc).1.hasName_iff (createDeclared_named g hn declared)
  simp only [mem_paths_createDeclared g hc hn hfail] at hafter
  rw [hafter]
  constructor
  · rintro ⟨path, hpath | ⟨hignored, hstart, -⟩, rfl⟩
    · exact .inl ((hc.hasName_iff hn).2 ⟨path, hpath, rfl⟩)
    · exact .inr ⟨hignored, Path.leaf_mem_segments hstart⟩
  · rintro (hname | ⟨hignored, hsegment⟩)
    · obtain ⟨path, hpath, hleaf⟩ := (hc.hasName_iff hn).1 hname
      exact ⟨path, .inl hpath, hleaf⟩
    · by_cases hbare : Path.IsName declared ∧ HasName c.tree declared
      · -- the name that some unit has is the only segment
        rw [hbare.1.segments, List.mem_singleton] at hsegment
        obtain ⟨path, hpath, hleaf⟩ := (hc.hasName_iff hn).1 (hsegment ▸ hbare.2)
        exact ⟨path, .inl hpath, hleaf⟩
      · obtain ⟨path, hstart, hleaf⟩ :=
          Path.exists_mem_descend (fun _ => Path.isName_of_mem_segments) hsegment ""
        exact ⟨path, .inr ⟨hignored, hstart, hbare⟩, hleaf⟩

/-! ### All references -/

/-- A reference is passed over when its turn comes: it is a bare name, and some unit has it, or it
is a segment of a reference before it that is not ignored. -/
def PassedOver (g : GlobalOptions) (t : OrgTree) (rs : List String) (r : String) : Prop :=
  Path.IsName r ∧ (HasName t r ∨
    ∃ q ∈ rs.takeWhile (· ≠ r), g.isIgnored (Path.topLevel q) = false ∧ r ∈ Path.segments q)

/-- The path is in the tree, or a beginning of a reference that is neither ignored nor passed
over. -/
def Grown (g : GlobalOptions) (t : OrgTree) (rs : List String) (path : String) : Prop :=
  path ∈ paths t ∨ ∃ r ∈ rs, g.isIgnored (Path.topLevel r) = false ∧ path ∈ Path.ancestry r ∧
    ¬ PassedOver g t rs r

/-- **The paths there are after a list of references was looked up**, if no call is made to fail. -/
theorem mem_paths_foldl (g : GlobalOptions) {rs : List String} (honce : rs.Nodup) (hc : c.Charted)
    (hn : c.org.snapshot.Named) (hfail : Unharmed c.org (rs.foldl (createDeclared g) c).org)
    {path : String} :
    path ∈ paths (rs.foldl (createDeclared g) c).tree ↔ Grown g c.tree rs path := by
  induction rs generalizing c with
  | nil => simp [Grown]
  | cons first rs ih =>
    obtain ⟨hnew, honce⟩ := List.nodup_cons.1 honce
    rw [List.foldl_cons] at hfail ⊢
    have hcharted := (createDeclared_grows g first hc).1
    obtain ⟨_, hadds, -⟩ := foldl_createDeclared_adds g rs hcharted
    obtain ⟨hfirst, hrest⟩ :=
      Unharmed.split (issued_createDeclared g c first) hadds.calls.issued hfail
    rw [ih honce hcharted (createDeclared_named g hn first) hrest]
    -- the first reference comes before all others
    have hothers : ∀ r ∈ rs, PassedOver g (createDeclared g c first).tree rs r ↔
        PassedOver g c.tree (first :: rs) r := by
      intro r hr
      have hne : first ≠ r := fun h => hnew (h ▸ hr)
      unfold PassedOver
      rw [hasName_createDeclared g hc hn hfirst, List.takeWhile_cons_of_pos (by simpa using hne),
        List.exists_mem_cons_iff, or_assoc]
    have hitself : PassedOver g c.tree (first :: rs) first ↔
        Path.IsName first ∧ HasName c.tree first := by
      unfold PassedOver
      rw [List.takeWhile_cons_of_neg (by simp)]
      simp
    unfold Grown
    rw [mem_paths_createDeclared g hc hn hfirst, List.exists_mem_cons_iff, hitself, or_assoc]
    refine or_congr_right (or_congr_right ⟨?_, ?_⟩)
    · rintro ⟨r, hr, hignored, hstart, hkept⟩
      exact ⟨r, hr, hignored, hstart, fun h => hkept ((hothers r hr).2 h)⟩
    · rintro ⟨r, hr, hignored, hstart, hkept⟩
      exact ⟨r, hr, hignored, hstart, fun h => hkept ((hothers r hr).1 h)⟩

/-! ### The unit of suspended accounts -/

/-- The path at which a unit is created for another path, if one is: below a path that is there, or
right under the root. -/
def MadeFor (there : String → Prop) (path made : String) : Prop :=
  (Path.parent? path = none ∧ made = Path.leaf path) ∨
    ∃ above, Path.parent? path = some above ∧ there above ∧ made = Path.join above (Path.leaf path)

/-- There is no parent for the path, and it is made nowhere, or the parent decides where. -/
theorem parentFor_cases (hc : c.Charted) (path : String) :
    (∃ e, parentFor c.tree path = .error e ∧ ∀ made, ¬ MadeFor (· ∈ paths c.tree) path made) ∨
    ∃ parent, parentFor c.tree path = .ok parent ∧ c.org.snapshot.isParent parent = true ∧
      ∀ made, MadeFor (· ∈ paths c.tree) path made ↔
        made = Path.join (c.org.snapshot.pathAt parent) (Path.leaf path) := by
  unfold parentFor MadeFor
  cases Path.parent? path with
  | none =>
    obtain ⟨hparent, hpathAt⟩ := hc.charts.pathAt_root hc.rooted.linked
    exact .inr ⟨c.tree.rootId, rfl, hparent, fun made => by simp [hpathAt]⟩
  | some above =>
    cases hfind : c.tree.ouByPath? above with
    | none =>
      have hmissing : above ∉ paths c.tree := by
        intro habove
        obtain ⟨ou, hou, hat⟩ := mem_paths.1 habove
        exact OrgTree.ouByPath?_eq_none.1 hfind ou hou hat
      exact .inl ⟨.notFound .createOrganizationalUnit above, by simp only [hfind],
        fun made => by simp [hmissing]⟩
    | some ou =>
      obtain ⟨hou, hat⟩ := OrgTree.ouByPath?_eq_some hfind
      have hthere : above ∈ paths c.tree := mem_paths.2 ⟨ou, hou, hat⟩
      obtain ⟨hparent, hpathAt⟩ := hc.charts.pathAt_of_mem hc.rooted.linked hou
      exact .inr ⟨ou.id, by simp only [hfind], hparent,
        fun made => by simp [hpathAt, hat, hthere]⟩

/-- A unit that is there is at the path that is made for its own. -/
theorem Charted.madeFor_of_mem (hc : c.Charted) (hn : c.org.snapshot.Named) {path made : String}
    (hpath : path ∈ paths c.tree) (hmade : MadeFor (· ∈ paths c.tree) path made) : made = path := by
  obtain ⟨ou, hou, rfl⟩ := mem_paths.1 hpath
  rw [hc.charts.ous] at hou
  obtain ⟨node, hnode, rfl⟩ := List.mem_map.1 hou
  have hname := hn.names node hnode
  have hjoin : c.org.snapshot.pathOf node = _ := hc.rooted.linked.pathOf_eq_join hnode
  change MadeFor _ (c.org.snapshot.pathOf node) made at hmade
  change made = c.org.snapshot.pathOf node
  unfold MadeFor at hmade
  rw [hjoin, Path.parent?_join _ hname, Path.leaf_join _ hname] at hmade
  rw [hjoin]
  split at hmade
  · rename_i hempty
    rcases hmade with ⟨-, hat⟩ | ⟨above, habove, -⟩
    · rw [hempty]
      exact hat
    · cases habove
  · rcases hmade with ⟨hnone, -⟩ | ⟨above, habove, -, hat⟩
    · cases hnone
    · cases habove
      exact hat

/-- Where a unit is not created though nothing was made to fail, one of its name is there. -/
theorem mem_paths_of_refused (hc : c.Charted) {name parent : String} {e : ClientError}
    (hthere : c.org.snapshot.isParent parent = true)
    (hfail : Unharmed c.org (c.org.createOu name parent).2)
    (h : (c.org.createOu name parent).1 = .error e) :
    Path.join (c.org.snapshot.pathAt parent) name ∈ paths c.tree := by
  obtain ⟨o, ho, hop, hon⟩ : ∃ o ∈ c.org.snapshot.ous, o.parent = parent ∧ o.name = name := by
    by_contra hroom
    have hvacant : c.org.snapshot.Vacant name parent :=
      ⟨hthere, fun o ho hop hon => hroom ⟨o, ho, hop, hon⟩⟩
    rcases Organization.createOu_of_vacant hvacant with ⟨e', -, hfailing, -⟩ | hcreated
    · exact Unharmed.no_subject (c := .createOu name parent) hfail hfailing
    · rw [hcreated] at h
      cases h
  have hat : c.org.snapshot.pathOf o = Path.join (c.org.snapshot.pathAt parent) name := by
    rw [hc.rooted.linked.pathOf_eq_join ho, hop, hon]
  refine mem_paths.2 ⟨c.org.snapshot.located o, ?_, hat⟩
  rw [hc.charts.ous]
  exact List.mem_map_of_mem ho

/-- A unit that was created is at its name under its parent. -/
theorem paths_of_created (hc : c.Charted) {name parent : String} {node : OuNode}
    (h : (c.org.createOu name parent).1 = .ok node) :
    paths (c.tree.insertOu node).2 =
      paths c.tree ++ [Path.join (c.org.snapshot.pathAt parent) name] := by
  rcases c.org.createOu_cases name parent with ⟨e, ho⟩ | ⟨node', s, hcreated, ho⟩
  · rw [ho] at h
    cases h
  rw [ho] at h
  cases h
  obtain ⟨-, hfits, hname, hunder, -⟩ := Snapshot.created_eq_ok hcreated
  obtain ⟨-, -, hous⟩ := hc.charts.insertOu hc.rooted hfits
  have hat : ((c.org.snapshot.addOu node).located node).path =
      Path.join (c.org.snapshot.pathAt parent) name := by
    change (c.org.snapshot.addOu node).pathOf node = _
    rw [hc.rooted.pathUnder_addOu hfits hfits.parent, hunder, hname]
  unfold paths
  rw [hous, List.map_append, List.map_singleton, hat]

/-- **After an attempt to create a unit there are the paths that there were and the one made for
it**, if it was not made to fail. -/
theorem mem_paths_createOu (hc : c.Charted) {path : String}
    (hfail : Unharmed c.org (c.createOu path).2.org) {made : String} :
    made ∈ paths (c.createOu path).2.tree ↔
      made ∈ paths c.tree ∨ MadeFor (· ∈ paths c.tree) path made := by
  rcases parentFor_cases hc path with ⟨e, hparent, hnone⟩ | ⟨parent, hparent, hthere, hmade⟩
  · have hstep : (c.createOu path).2.tree = c.tree := by simp only [createOu, hparent]
    rw [hstep]
    exact (or_iff_left (hnone made)).symm
  rcases c.createOu_cases path with ⟨e, herror, -⟩ | ⟨parent', hok, hcalled⟩
  · rw [hparent] at herror
    cases herror
  rw [hparent] at hok
  cases hok
  rw [hmade]
  rcases hcalled with ⟨e, he, hstep⟩ | ⟨node, hnode, hstep⟩
  · rw [hstep] at hfail ⊢
    refine (or_iff_left_of_imp ?_).symm
    rintro rfl
    exact mem_paths_of_refused hc hthere hfail he
  · rw [hstep, paths_of_created hc hnode, List.mem_append, List.mem_singleton]

/-- After the unit of suspended accounts was looked for, the paths are those that there were and the
one made for it. -/
theorem mem_paths_suspendedTarget (hc : c.Charted) (hn : c.org.snapshot.Named) {path : String}
    (hfail : Unharmed c.org (c.suspendedTarget path).2.org) {made : String} :
    made ∈ paths (c.suspendedTarget path).2.tree ↔
      made ∈ paths c.tree ∨ MadeFor (· ∈ paths c.tree) path made := by
  cases hfound : c.tree.ouByPath? path with
  | some ou =>
    have hstep : (c.suspendedTarget path).2.tree = c.tree := by
      simp only [suspendedTarget, hfound]
    have hpath : path ∈ paths c.tree := mem_paths.2 ⟨ou, OrgTree.ouByPath?_eq_some hfound⟩
    rw [hstep]
    refine (or_iff_left_of_imp fun hmade => ?_).symm
    rwa [hc.madeFor_of_mem hn hpath hmade]
  | none =>
    obtain ⟨horg, htree⟩ := suspendedTarget_of_none hfound
    rw [horg] at hfail
    rw [htree]
    exact mem_paths_createOu hc hfail

/-- After the second stage the paths are those that there were and, if a suspended account was out
of its place, the one made for their unit. -/
theorem mem_paths_relocateSuspended (config : Configuration) (hc : c.Charted)
    (hn : c.org.snapshot.Named) (hfail : Unharmed c.org (c.relocateSuspended config).org)
    {made : String} : made ∈ paths (c.relocateSuspended config).tree ↔ made ∈ paths c.tree ∨
      (outOfPlace c.tree config.options.suspendedOu ≠ [] ∧
        MadeFor (· ∈ paths c.tree) config.options.suspendedOu made) := by
  by_cases hout : outOfPlace c.tree config.options.suspendedOu = []
  · have hstep : c.relocateSuspended config = c := by simp only [relocateSuspended, hout]
    rw [hstep]
    exact (or_iff_left fun h => h.1 hout).symm
  have hissued := issued_suspendedTarget c config.options.suspendedOu
  have hpaths : Unharmed c.org (c.suspendedTarget config.options.suspendedOu).2.org →
      (made ∈ paths (c.suspendedTarget config.options.suspendedOu).2.tree ↔ _) :=
    fun h => mem_paths_suspendedTarget hc hn h
  rw [and_iff_right hout]
  rcases htarget : c.suspendedTarget config.options.suspendedOu with ⟨_ | id, c'⟩
  · rw [htarget] at hpaths
    rw [relocateSuspended_of_none hout htarget] at hfail ⊢
    exact hpaths hfail
  · rw [htarget] at hpaths hissued
    rw [relocateSuspended_of_some hout htarget] at hfail ⊢
    rw [← hpaths (Unharmed.split hissued (issued_foldl_moveSuspended _ _ _ c') hfail).1]
    unfold paths
    rw [ous_foldl_moveSuspended]

end Convergence

/-! ### All of it -/

open Convergence

/-- **The paths there are after convergence**, if no call is made to fail: what the declared
references have grown, and the path made for the unit of suspended accounts if one of these is out
of its place. -/
theorem mem_paths_converge (config : Configuration) {org : Organization} {tree : OrgTree}
    (h : (⟨org, tree, {}⟩ : Convergence).Tracks) (hn : org.snapshot.Named)
    (hfail : Unharmed org (converge config org tree).org) {path : String} :
    path ∈ paths (converge config org tree).tree ↔
      Grown config.options tree config.declaredPaths path ∨
        (outOfPlace tree config.options.suspendedOu ≠ [] ∧
          MadeFor (Grown config.options tree config.declaredPaths)
            config.options.suspendedOu path) := by
  let start : Convergence := ⟨org, tree, {}⟩
  let grown := start.createMissing config
  obtain ⟨htracks, hframe⟩ : grown.Tracks ∧ Frame (fun _ => False) start grown :=
    createMissing_frame config h
  have hlast := issued_relocatePrimary config (beforePrimary config org tree)
  have hmoves : Issued grown.org (beforePrimary config org tree).org :=
    issued_relocateSuspended config grown
  obtain ⟨hfirst, hlater⟩ :=
    Unharmed.split (issued_createMissing config start) (hmoves.trans hlast) hfail
  obtain ⟨hsecond, -⟩ := Unharmed.split hmoves hlast hlater
  have hgrown : (· ∈ paths grown.tree) = Grown config.options tree config.declaredPaths :=
    funext fun path => propext
      (mem_paths_foldl config.options Configuration.nodup_declaredPaths h.charted hn hfirst)
  have hplace : outOfPlace grown.tree config.options.suspendedOu = [] ↔
      outOfPlace start.tree config.options.suspendedOu = [] := by
    rw [List.eq_nil_iff_forall_not_mem, List.eq_nil_iff_forall_not_mem]
    exact forall_congr' fun a => not_congr (hframe.mem_outOfPlace h htracks)
  have hthird : paths (converge config org tree).tree =
      paths (grown.relocateSuspended config).tree :=
    congrArg (List.map LiveOu.path) (relocatePrimary_ous config _)
  rw [hthird, mem_paths_relocateSuspended config htracks.charted (createMissing_named hn) hsecond,
    hgrown, ne_eq, hplace, ← hgrown]

end OrgAlign.Drift
