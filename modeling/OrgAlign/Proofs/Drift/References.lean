import OrgAlign.Proofs.Drift.Creation
import OrgAlign.Proofs.Org.Places
import OrgAlign.Proofs.Org.Reading

/-!
# What references stand for after convergence

Convergence completes the declared hierarchy, and no two units share a path in the end. So a
reference is left open only where it is a bare name that a created unit shares. Main statements:

* `converge_nodup_paths`: no two units share a path in the end, whatever fails;
* `exists_wanted`: where a created unit comes from;
* `converge_resolves`: a declared reference stands for one unit in the end, unless it was blurred;
* `converge_blurs_name`: a name that was clear may be blurred, and what is no proper path is created
  without standing for anything.
-/

namespace OrgAlign.Drift

open Config Org Reconcile

namespace Convergence

variable {c : Convergence} {config : Configuration}

/-! ### Paths of their own -/

/-- An attempt to create a unit whose name can stand in a path leaves units named. -/
theorem createOu_named (hn : c.org.snapshot.Named) {path : String}
    (hleaf : Path.IsName (Path.leaf path)) : (c.createOu path).2.org.snapshot.Named := by
  rcases c.createOu_effect path with ⟨hs, -⟩ | ⟨parent, node, -, hmade, hs, -⟩
  · rwa [hs]
  · obtain ⟨-, -, hname, hparent, hnew⟩ := Snapshot.created_eq_ok hmade
    rw [hs]
    exact hn.addOu (hname ▸ hleaf) (hparent ▸ hname ▸ hnew)

/-- The tree of a chart shows no path twice, if names make paths. -/
theorem Charted.nodup_paths (hc : c.Charted) (hn : c.org.snapshot.Named) :
    (c.tree.ous.map LiveOu.path).Nodup := by
  rw [hc.charts.ous, List.map_map]
  exact hc.rooted.linked.nodup_paths hn

/-- Paths of units have segments, if names make paths. -/
theorem Charted.segments_ne_nil (hc : c.Charted) (hn : c.org.snapshot.Named) {ou : LiveOu}
    (hou : ou ∈ c.tree.ous) : Path.segments ou.path ≠ [] := by
  rw [hc.charts.ous] at hou
  obtain ⟨node, hnode, rfl⟩ := List.mem_map.1 hou
  change Path.segments (c.org.snapshot.pathOf node) ≠ []
  rw [hc.rooted.linked.pathOf_eq_join hnode, Path.segments_join _ (hn.names node hnode)]
  exact List.append_ne_nil_of_right_ne_nil _ (List.cons_ne_nil _ _)

/-- What is created right under the root has its name as its path. -/
theorem Charted.pathAt_parentFor (hc : c.Charted) {path parent : String}
    (hparent : parentFor c.tree path = .ok parent) (hnone : Path.parent? path = none) :
    c.org.snapshot.pathAt parent = "" := by
  unfold parentFor at hparent
  rw [hnone] at hparent
  rw [← Except.ok.inj hparent]
  exact (hc.charts.pathAt_root hc.rooted.linked).2

/-- **An attempt to create a unit leaves no path to two units**, whatever the path is. -/
theorem createOu_nodup_paths (hc : c.Charted) (hn : c.org.snapshot.Named) (path : String) :
    ((c.createOu path).2.tree.ous.map LiveOu.path).Nodup := by
  rcases Path.leaf_cases path with ⟨hsegments, hempty⟩ | hleaf
  · rcases c.createOu_effect path with ⟨-, ht⟩ | ⟨parent, node, hparent, hmade, -, ht⟩
    · rw [ht]
      exact hc.nodup_paths hn
    · -- a path without segments is only created under the root, and no other unit is at it
      obtain ⟨-, hfits, hname, hnode, -⟩ := Snapshot.created_eq_ok hmade
      have hnone : Path.parent? path = none := by
        rw [Option.eq_none_iff_forall_ne_some]
        intro above habove
        obtain ⟨rest, rfl⟩ := Path.eq_of_parent? habove
        rw [Path.segments_below, List.append_eq_nil_iff] at hsegments
        unfold parentFor at hparent
        rw [habove] at hparent
        cases hfind : c.tree.ouByPath? above with
        | none => simp [hfind] at hparent
        | some ou =>
          obtain ⟨hou, hpath⟩ := OrgTree.ouByPath?_eq_some hfind
          exact hc.segments_ne_nil hn hou (hpath ▸ hsegments.1)
      obtain ⟨-, -, hous⟩ := hc.charts.insertOu hc.rooted hfits
      have hnew : ((c.org.snapshot.addOu node).located node).path = "" := by
        change (c.org.snapshot.addOu node).pathOf node = ""
        rw [hc.rooted.pathUnder_addOu hfits hfits.parent, hnode, hname, hempty,
          hc.pathAt_parentFor hparent hnone]
        rfl
      rw [ht, hous, List.map_append, List.map_singleton, hnew]
      refine List.nodup_append.2 ⟨hc.nodup_paths hn, List.nodup_singleton _, ?_⟩
      intro p hp q hq heq
      obtain ⟨ou, hou, rfl⟩ := List.mem_map.1 hp
      rw [List.mem_singleton.1 hq] at heq
      refine hc.segments_ne_nil hn hou ?_
      rw [heq]
      rfl
  · exact (hc.createOu path).nodup_paths (createOu_named hn hleaf)

/-- Going down to a declared path leaves units named. -/
theorem createDeclared_named (g : GlobalOptions) (hn : c.org.snapshot.Named) (declared : String) :
    (createDeclared g c declared).org.snapshot.Named := by
  rcases createDeclared_eq g c declared with h | ⟨-, -, h⟩
  · rw [h]
    exact hn
  · rw [h]
    refine createDown_keeps (fun c => c.org.snapshot.Named) (fun _ _ h => h) declared
      (fun c path hpath h => createOu_named h ?_) c hn
    exact Path.isName_of_mem_segments (Path.leaf_mem_segments hpath)

/-- After the first stage names still make paths. -/
theorem createMissing_named (hn : c.org.snapshot.Named) :
    (c.createMissing config).org.snapshot.Named :=
  foldl_keeps (fun c : Convergence => c.org.snapshot.Named)
    (fun _ r h => createDeclared_named config.options h r) config.declaredPaths c hn

/-- And so they do after all of convergence, if the name of the unit of suspended accounts is
one. -/
theorem converge_named {org : Organization} {tree : OrgTree} (hn : org.snapshot.Named)
    (hleaf : Path.IsName (Path.leaf config.options.suspendedOu)) :
    (converge config org tree).org.snapshot.Named := by
  refine converge_keeps (fun c => c.org.snapshot.Named) (fun _ _ h => h) config
    (fun c path hpath h => createOu_named h ?_) (fun c a id path h => ?_) hn
  · rcases hpath with ⟨declared, -, -, hpath⟩ | rfl
    · exact Path.isName_of_mem_segments (Path.leaf_mem_segments hpath)
    · exact hleaf
  · obtain ⟨-, hous, -⟩ := c.move_units a id path
    exact ⟨hous ▸ h.siblings, hous ▸ h.names⟩

/-- Looking for the unit of suspended accounts adds that unit to the tree, if any. -/
theorem suspendedTarget_tree (c : Convergence) (path : String) :
    (c.suspendedTarget path).2.tree = c.tree ∨
      (c.suspendedTarget path).2.tree = (c.createOu path).2.tree := by
  cases hfound : c.tree.ouByPath? path with
  | some ou =>
    refine .inl ?_
    simp only [suspendedTarget, hfound]
  | none => exact .inr (suspendedTarget_of_none hfound).2

/-- Moving suspended accounts adds no unit. -/
theorem ous_foldl_moveSuspended (targetId targetPath : String) (as : List LiveAccount)
    (c : Convergence) :
    (as.foldl (moveSuspended targetId targetPath) c).tree.ous = c.tree.ous := by
  refine foldl_keeps (fun d : Convergence => d.tree.ous = c.tree.ous) (fun d a hd => ?_) as c rfl
  refine moveSuspended_keeps (fun d => d.tree.ous = c.tree.ous) (fun _ _ h => h) _ _ d a ?_
  exact (d.move_units a _ _).2.2.2.trans hd

/-- The second stage adds the unit of suspended accounts, if any. -/
theorem relocateSuspended_ous (config : Configuration) (c : Convergence) :
    (c.relocateSuspended config).tree.ous = c.tree.ous ∨
      (c.relocateSuspended config).tree.ous =
        (c.createOu config.options.suspendedOu).2.tree.ous := by
  have htarget := (c.suspendedTarget_tree config.options.suspendedOu).imp
    (congrArg OrgTree.ous) (congrArg OrgTree.ous)
  simp only [relocateSuspended]
  split
  · exact .inl rfl
  split
  · rename_i h
    rw [h] at htarget
    rw [ous_foldl_moveSuspended]
    exact htarget
  · rename_i h
    rw [h] at htarget
    exact htarget

end Convergence

open Convergence

section

variable {config : Configuration} {org : Organization} {tree : OrgTree}

/-- Convergence shows the units in its tree, and only adds some, whatever fails. -/
theorem converge_grows (h : (⟨org, tree, {}⟩ : Convergence).Charted) :
    (converge config org tree).Charted ∧ tree.ous <+: (converge config org tree).tree.ous := by
  refine converge_keeps (fun c => c.Charted ∧ tree.ous <+: c.tree.ous)
    (fun _ _ h => ⟨h.1.congr rfl rfl, h.2⟩) config (fun c path _ h => ?_) (fun c a id path h => ?_)
    ⟨h, List.prefix_rfl⟩
  · exact ⟨h.1.createOu path, h.2.trans (c.ous_createOu path)⟩
  · refine ⟨h.1.move a id path, ?_⟩
    rw [(c.move_units a id path).2.2.2]
    exact h.2

/-- Convergence leaves the units of its first stage, or these and the unit of suspended accounts. -/
theorem converge_ous (config : Configuration) (org : Organization) (tree : OrgTree) :
    (converge config org tree).tree.ous =
        ((⟨org, tree, {}⟩ : Convergence).createMissing config).tree.ous ∨
      (converge config org tree).tree.ous =
        (((⟨org, tree, {}⟩ : Convergence).createMissing config).createOu
          config.options.suspendedOu).2.tree.ous := by
  have hlast := relocatePrimary_ous config (beforePrimary config org tree)
  change (converge config org tree).tree.ous = _ at hlast
  rw [hlast]
  exact relocateSuspended_ous config _

/-- **No two units share a path after convergence**, whatever fails. -/
theorem converge_nodup_paths (h : (⟨org, tree, {}⟩ : Convergence).Charted)
    (hn : org.snapshot.Named) : ((converge config org tree).tree.ous.map LiveOu.path).Nodup := by
  have hmissing : ((⟨org, tree, {}⟩ : Convergence).createMissing config).Charted :=
    createMissing_keeps Charted (fun _ _ h => h.congr rfl rfl) config
      (fun _ path _ h => h.createOu path) _ h
  have hnamed : ((⟨org, tree, {}⟩ : Convergence).createMissing config).org.snapshot.Named :=
    createMissing_named hn
  rcases converge_ous config org tree with hous | hous
  · rw [hous]
    exact hmissing.nodup_paths hnamed
  · rw [hous]
    exact createOu_nodup_paths hmissing hnamed _

/-- **A created unit has the last segment of a wanted path as its name**, and that is its path where
nothing stands above. -/
theorem exists_wanted (h : (⟨org, tree, {}⟩ : Convergence).Charted) {new : LiveOu}
    (hnew : new ∈ (converge config org tree).tree.ous) (hbefore : new ∉ tree.ous) :
    ∃ path, Wanted config path ∧ new.name = Path.leaf path ∧
      (Path.parent? path = none → new.path = new.name) := by
  let Inv : Convergence → Prop := fun c => c.Charted ∧ ∀ ou ∈ c.tree.ous, ou ∉ tree.ous →
    ∃ path, Wanted config path ∧ ou.name = Path.leaf path ∧
      (Path.parent? path = none → ou.path = ou.name)
  have hall : Inv (converge config org tree) := by
    refine converge_keeps Inv (fun _ _ h => ⟨h.1.congr rfl rfl, h.2⟩) config
      (fun c path hpath h => ⟨h.1.createOu path, fun ou hou hold => ?_⟩)
      (fun c a id path h => ⟨h.1.move a id path, ?_⟩) ⟨h, fun ou hou hold => absurd hou hold⟩
    · rcases c.createOu_effect path with ⟨-, ht⟩ | ⟨parent, node, hparent, hmade, -, ht⟩
      · rw [ht] at hou
        exact h.2 ou hou hold
      · obtain ⟨-, hfits, hname, hnode, -⟩ := Snapshot.created_eq_ok hmade
        obtain ⟨-, -, hous⟩ := h.1.charts.insertOu h.1.rooted hfits
        rw [ht, hous] at hou
        rcases List.mem_append.1 hou with hou | hou
        · exact h.2 ou hou hold
        · rw [List.mem_singleton.1 hou]
          refine ⟨path, hpath, hname, fun hnone => ?_⟩
          change (c.org.snapshot.addOu node).pathOf node = node.name
          rw [h.1.rooted.pathUnder_addOu hfits hfits.parent, hnode,
            h.1.pathAt_parentFor hparent hnone, Path.join_empty]
    · rw [(c.move_units a id path).2.2.2]
      exact h.2
  exact hall.2 new hnew hbefore

/-- No declared reference leads nowhere after convergence, unless it is ignored or not a proper
path, if no call is made to fail. -/
theorem converge_reaches (h : (⟨org, tree, {}⟩ : Convergence).Charted)
    (hfail : Unharmed org (converge config org tree).org) {reference : String}
    (hdeclared : reference ∈ config.declaredPaths) (hproper : Path.Proper reference)
    (hignored : config.options.isIgnored (Path.topLevel reference) = false) :
    matchOu reference (converge config org tree).tree.ous ≠ .notFound := by
  have hcreated : matchOu reference
      ((⟨org, tree, {}⟩ : Convergence).createMissing config).tree.ous ≠ .notFound := by
    refine createMissing_reaches config h ?_ reference hdeclared hproper hignored
    exact (Unharmed.split (issued_createMissing config _) ((issued_relocateSuspended config _).trans
      (issued_relocatePrimary config _)) hfail).1
  have hmore : ((⟨org, tree, {}⟩ : Convergence).createMissing config).tree.ous <+:
      (converge config org tree).tree.ous := by
    rcases converge_ous config org tree with hous | hous
    · simp only [hous, List.prefix_rfl]
    · rw [hous]
      exact ous_createOu _ _
  obtain ⟨more, hmore⟩ := hmore
  rw [← hmore]
  exact matchOu_ne_notFound_append hcreated more

end

/-! ### Names that were clear -/

/-- A name was blurred: no unit is at it as a path, and a unit that was not there before has it
beside another one. -/
def Blurred (before after : List LiveOu) (name : String) : Prop :=
  (∀ ou ∈ after, ou.path ≠ name) ∧ ∃ new ∈ after, new ∉ before ∧ new.name = name ∧
    ∃ other ∈ after, other ≠ new ∧ other.name = name

/-- Where units were added and no two of them share a path, a reference that leads somewhere and was
not ambiguous stands for one unit iff it was not blurred. -/
theorem exists_found_iff_not_blurred {before after : List LiveOu} (hous : before <+: after)
    (hpaths : (after.map LiveOu.path).Nodup) {reference : String}
    (hfound : matchOu reference after ≠ .notFound)
    (hbefore : ∀ ous, matchOu reference before ≠ .ambiguous ous) :
    (∃ ou s, matchOu reference after = .found ou s) ↔ ¬ Blurred before after reference := by
  by_cases hpath : ∃ ou ∈ after, ou.path = reference
  · -- the unit at the path is the only one there
    obtain ⟨ou, hou, hat⟩ := hpath
    refine iff_of_true ⟨ou, ?_⟩ fun hblurred => hblurred.1 ou hou hat
    rw [← ou?_eq_some, ou?_matchOu_eq_some]
    refine .inl (filter_eq_singleton hpaths.of_map hou fun other hother => ?_)
    rw [beq_iff_eq, ← hat]
    exact ⟨fun h => List.inj_on_of_nodup_map hpaths hother hou h, fun h => h ▸ rfl⟩
  have hnone : ∀ ou ∈ after, ou.path ≠ reference := fun ou hou hat => hpath ⟨ou, hou, hat⟩
  constructor
  · rintro ⟨ou, s, hone⟩ ⟨-, new, hnew, -, hname, other, hother, hne, hname'⟩
    exact hne ((eq_of_found_of_no_path hnone hone hother hname').trans
      (eq_of_found_of_no_path hnone hone hnew hname).symm)
  · intro hclear
    refine (found_or_two_of_no_path hpaths.of_map hnone hfound).resolve_right ?_
    rintro ⟨a, ha, b, hb, hab, haname, hbname⟩
    -- both units were there before, and the name was ambiguous
    have haold : a ∈ before := by
      by_contra hnew
      exact hclear ⟨hnone, a, ha, hnew, haname, b, hb, hab.symm, hbname⟩
    have hbold : b ∈ before := by
      by_contra hnew
      exact hclear ⟨hnone, b, hb, hnew, hbname, a, ha, hab, haname⟩
    cases hmatch : matchOu reference before with
    | ambiguous ous => exact hbefore ous hmatch
    | notFound => exact (matchOu_eq_notFound.1 hmatch).2 a haold haname
    | found ou s =>
      have hnoneBefore : ∀ o ∈ before, o.path ≠ reference := fun o ho => hnone o (hous.subset ho)
      exact hab ((eq_of_found_of_no_path hnoneBefore hmatch haold haname).trans
        (eq_of_found_of_no_path hnoneBefore hmatch hbold hbname).symm)

section

variable {config : Configuration} {org : Organization} {tree : OrgTree}

/-- A name is only blurred by a unit on the way down to another reference, or by the unit of
suspended accounts. -/
theorem not_blurred (h : (⟨org, tree, {}⟩ : Convergence).Charted) {reference : String}
    (hproper : Path.Proper reference)
    (hdeeper : ∀ other ∈ config.declaredPaths,
      config.options.isIgnored (Path.topLevel other) = false →
      reference ∉ (Path.segments other).tail)
    (hsuspended : Path.leaf config.options.suspendedOu = reference →
      config.options.suspendedOu = reference) :
    ¬ Blurred tree.ous (converge config org tree).tree.ous reference := by
  rintro ⟨hnone, new, hnew, hbefore, hname, -⟩
  obtain ⟨path, hwanted, hleaf, htop⟩ := exists_wanted h hnew hbefore
  have hparent : Path.parent? path ≠ none := fun hp => hnone new hnew ((htop hp).trans hname)
  rw [hname] at hleaf
  rcases hwanted with ⟨other, hother, hignored, hdown⟩ | rfl
  · obtain ⟨front, name, back, hsegments, rfl⟩ := Path.exists_of_mem_descend hdown
    have hmem : name ∈ Path.segments other := by
      rw [hsegments]
      exact List.mem_append_right _ List.mem_cons_self
    have hisName := Path.isName_of_mem_segments hmem
    rw [Path.leaf_join _ hisName] at hleaf
    cases front with
    | nil =>
      refine hparent ?_
      rw [List.foldl_nil, Path.parent?_join _ hisName]
      rfl
    | cons first front =>
      refine hdeeper other hother hignored ?_
      rw [hsegments, hleaf]
      exact List.mem_append_right _ List.mem_cons_self
  · -- a proper path that is its own last segment has no parent
    have hsame := hsuspended hleaf.symm
    obtain ⟨above, name, hisName, hjoin⟩ := hproper.exists_join
    rw [hsame, hjoin, Path.leaf_join _ hisName] at hleaf
    refine hparent ?_
    rw [hsame, hjoin, hleaf]
    exact (Path.parent?_join "" hisName).trans (if_pos rfl)

/-- A reference stands for one unit of the organization. -/
def Settled (c : Convergence) (reference : String) : Prop :=
  ∃ node ∈ c.org.snapshot.ous, ∃ s,
    matchOu reference c.tree.ous = .found (c.org.snapshot.located node) s

/-- **A declared reference stands for one unit after convergence iff it was not blurred**, if it is
a proper path that is not ignored and was not ambiguous before, and no call is made to fail. It is
not blurred where no other reference goes through a unit of that name below another one, and the
unit of suspended accounts has another name or is that very one. -/
theorem converge_resolves (hs : org.snapshot.Rooted) (hn : org.snapshot.Named)
    (hread : OrgTree.read org = .ok tree) (hfail : Unharmed org (converge config org tree).org)
    {reference : String} (hdeclared : reference ∈ config.declaredPaths)
    (hproper : Path.Proper reference)
    (hignored : config.options.isIgnored (Path.topLevel reference) = false)
    (hbefore : ∀ ous, matchOu reference tree.ous ≠ .ambiguous ous) :
    (Settled (converge config org tree) reference ↔
        ¬ Blurred tree.ous (converge config org tree).tree.ous reference) ∧
      ((∀ other ∈ config.declaredPaths, config.options.isIgnored (Path.topLevel other) = false →
          reference ∉ (Path.segments other).tail) →
        (Path.leaf config.options.suspendedOu = reference →
          config.options.suspendedOu = reference) →
        Settled (converge config org tree) reference) := by
  have hstart : (⟨org, tree, {}⟩ : Convergence).Charted := ⟨hs, charts_of_read hs.ids hread⟩
  obtain ⟨hcharted, hous⟩ : (converge config org tree).Charted ∧ _ := converge_grows hstart
  have hsettled : Settled (converge config org tree) reference ↔
      ∃ ou s, matchOu reference (converge config org tree).tree.ous = .found ou s := by
    constructor
    · rintro ⟨node, -, s, hmatch⟩
      exact ⟨_, s, hmatch⟩
    · rintro ⟨ou, s, hmatch⟩
      have hin := (ou?_matchOu_eq_some.1 (ou?_eq_some.2 ⟨s, hmatch⟩)).mem
      rw [hcharted.charts.ous] at hin
      obtain ⟨node, hnode, rfl⟩ := List.mem_map.1 hin
      exact ⟨node, hnode, s, hmatch⟩
  have hexact := hsettled.trans (exists_found_iff_not_blurred hous (converge_nodup_paths hstart hn)
    (converge_reaches hstart hfail hdeclared hproper hignored) hbefore)
  exact ⟨hexact, fun hdeeper hsuspended =>
    hexact.2 (not_blurred hstart hproper hdeeper hsuspended)⟩

/-- A unit, and another one below it. -/
def unitBelow : Organization where
  snapshot :=
    { root := some ⟨"r-1", "Root"⟩
      ous := [⟨"ou-a", "Apps", "r-1"⟩, ⟨Snapshot.ouId 1, "Dev", "ou-a"⟩]
      accounts := [], policies := [] }

/-- They form a hierarchy, and their names make paths. -/
theorem unitBelow_wellFormed : unitBelow.snapshot.Rooted ∧ unitBelow.snapshot.Named := by
  have hflat : Snapshot.Flat ⟨some ⟨"r-1", "Root"⟩, [⟨"ou-a", "Apps", "r-1"⟩], [], []⟩
      ⟨"r-1", "Root"⟩ := by decide +kernel
  have hfits : Snapshot.Fits ⟨some ⟨"r-1", "Root"⟩, [⟨"ou-a", "Apps", "r-1"⟩], [], []⟩
      ⟨Snapshot.ouId 1, "Dev", "ou-a"⟩ :=
    ⟨by decide +kernel, ⟨1, rfl⟩, by decide +kernel⟩
  exact ⟨hflat.wellFormed.toRooted.addOu hfits,
    hflat.wellFormed.toNamed.addOu (by decide) (by decide)⟩

/-- A configuration that declares the one unit, and one below a unit that is not there. -/
def unitMissing : Configuration := ⟨{}, .ofList [("Apps", {}), ("Base/Dev", {})], .empty, .empty⟩

/-- A unit is created below another one that is created. -/
theorem converge_resolves_missing_unit :
    unitBelow.snapshot.Rooted ∧ unitBelow.snapshot.Named ∧
      ∃ t, OrgTree.read unitBelow = .ok t ∧
        Unharmed unitBelow (converge unitMissing unitBelow t).org ∧
        "Base/Dev" ∈ unitMissing.declaredPaths ∧ Path.Proper "Base/Dev" ∧
        unitMissing.options.isIgnored (Path.topLevel "Base/Dev") = false ∧
        (∀ ous, matchOu "Base/Dev" t.ous ≠ .ambiguous ous) ∧
        Settled (converge unitMissing unitBelow t) "Base/Dev" := by
  obtain ⟨hs, hn⟩ := unitBelow_wellFormed
  obtain ⟨t, hread, hnone⟩ : ∃ t, OrgTree.read unitBelow = .ok t ∧
      matchOu "Base/Dev" t.ous = .notFound := ⟨_, rfl, by decide +kernel⟩
  have hfail : Unharmed unitBelow (converge unitMissing unitBelow t).org :=
    Unharmed.of_failing_eq_nil rfl _
  have hdeclared : "Base/Dev" ∈ unitMissing.declaredPaths := by decide +kernel
  have hproper : Path.Proper "Base/Dev" := by decide +kernel
  have hignored : unitMissing.options.isIgnored (Path.topLevel "Base/Dev") = false := by
    decide +kernel
  have hbefore : ∀ ous, matchOu "Base/Dev" t.ous ≠ .ambiguous ous := by
    rw [hnone]
    exact fun _ h => nomatch h
  exact ⟨hs, hn, t, hread, hfail, hdeclared, hproper, hignored, hbefore,
    (converge_resolves hs hn hread hfail hdeclared hproper hignored hbefore).2
      (by decide +kernel) (by decide +kernel)⟩

/-- A configuration that refers to a unit by its name, and declares another one of that name, and a
path with a slash behind. -/
def nameTwice : Configuration :=
  ⟨{}, .ofList [("Dev", {}), ("Base/Dev", {}), ("Ops/", {})], .empty, .empty⟩

/-- Nothing fails, but the name that was clear is ambiguous in the end, and the path with a slash
behind leads nowhere, although its unit was created. -/
theorem converge_blurs_name :
    unitBelow.snapshot.Rooted ∧ unitBelow.snapshot.Named ∧ unitBelow.failing = [] ∧
      nameTwice.declaredPaths = ["Dev", "Base/Dev", "Ops/"] ∧ nameTwice.options.ignoredOus = [] ∧
      ∃ t, OrgTree.read unitBelow = .ok t ∧
        ((matchOu "Dev" t.ous).ou?.map LiveOu.path = some "Apps/Dev" ∧
          matchOu "Ops/" t.ous = .notFound) ∧
        (converge nameTwice unitBelow t).report.failures = [] ∧
        (converge nameTwice unitBelow t).tree.ous.map LiveOu.path =
          ["Apps", "Apps/Dev", "Base", "Base/Dev", "Ops"] ∧
        (matchOu "Dev" (converge nameTwice unitBelow t).tree.ous).ou? = none ∧
        matchOu "Ops/" (converge nameTwice unitBelow t).tree.ous = .notFound := by
  obtain ⟨hs, hn⟩ := unitBelow_wellFormed
  exact ⟨hs, hn, rfl, by decide +kernel, rfl, _, rfl, by decide +kernel, by decide +kernel,
    by decide +kernel, by decide +kernel, by decide +kernel⟩

end

end OrgAlign.Drift
