import Mathlib.Data.List.TakeWhile
import OrgAlign.Proofs.Drift.UnitPaths

/-!
# What the order of declarations decides

Two configurations that declare the same units in different orders leave the same units, but for
bare names: a name that is declared is passed over if a reference before it has brought a unit of
that name about, and gets a unit right under the root if that reference comes after it. Main
statements:

* `Contested`, `Overtaken`: the names that this can happen to, and when it does;
* `grown_iff_not_overtaken`, `Grown.of_perm`: what the order decides, and what it does not;
* `converge_order_iff`: the live paths are the same for both orders iff every contested name is
  overtaken in both or in neither;
* `converge_depends_on_order`: two names that are not, and a root that a unit is taken for.
-/

namespace OrgAlign.Drift

open Config Org Reconcile

namespace Convergence

/-! ### Contested names -/

/-- The name is a later segment of a reference before it that is not ignored. -/
def OvertakenIn (g : GlobalOptions) (rs : List String) (name : String) : Prop :=
  ∃ r ∈ rs.takeWhile (· ≠ name), g.isIgnored (Path.topLevel r) = false ∧
    name ∈ (Path.segments r).tail

/-- The order of references decides whether there is a unit of the name right under the root: it is
a bare name that is declared and not ignored, no unit has it, and no other reference starts with
it. -/
structure ContestedIn (g : GlobalOptions) (t : OrgTree) (rs : List String) (name : String) :
    Prop where
  /-- It is declared. -/
  declared : name ∈ rs
  /-- It is a bare name. -/
  isName : Path.IsName name
  /-- It is not ignored. -/
  kept : g.isIgnored name = false
  /-- No unit has it. -/
  free : ¬ HasName t name
  /-- No other reference starts with it. -/
  alone : ∀ r ∈ rs, Path.topLevel r = name → r = name

variable {c : Convergence} {g : GlobalOptions} {rs rs' : List String}

/-- What is contested does not depend on the order. -/
theorem ContestedIn.of_perm {t : OrgTree} {name : String} (h : ContestedIn g t rs name)
    (hperm : rs.Perm rs') : ContestedIn g t rs' name :=
  ⟨hperm.mem_iff.1 h.declared, h.isName, h.kept, h.free,
    fun r hr => h.alone r (hperm.mem_iff.2 hr)⟩

/-- A contested name has a unit right under the root iff it is not overtaken. -/
theorem grown_iff_not_overtaken (hc : c.Charted) (hn : c.org.snapshot.Named) {name : String}
    (h : ContestedIn g c.tree rs name) : Grown g c.tree rs name ↔ ¬ OvertakenIn g rs name := by
  have hpassed : PassedOver g c.tree rs name ↔ OvertakenIn g rs name := by
    constructor
    · rintro ⟨-, hhas | ⟨q, hq, hignored, hsegment⟩⟩
      · exact absurd hhas h.free
      · refine ⟨q, hq, hignored, ?_⟩
        -- the name is not the first segment of the reference, which would be the name itself
        cases hsegments : Path.segments q with
        | nil =>
          rw [hsegments] at hsegment
          exact absurd hsegment List.not_mem_nil
        | cons first rest =>
          rw [hsegments] at hsegment
          refine (List.mem_cons.1 hsegment).resolve_left fun hfirst => ?_
          have htop : Path.topLevel q = name := by
            unfold Path.topLevel
            rw [hsegments, hfirst]
            rfl
          have hsame := h.alone q ((List.takeWhile_prefix _).subset hq) htop
          exact absurd hsame (by simpa using List.mem_takeWhile_imp hq)
    · rintro ⟨q, hq, hignored, hsegment⟩
      exact ⟨h.isName, .inr ⟨q, hq, hignored, List.mem_of_mem_tail hsegment⟩⟩
  rw [← hpassed]
  constructor
  · rintro (hthere | ⟨r, hr, -, hstart, hkept⟩)
    · exact absurd ((hc.hasName_iff hn).2 ⟨name, hthere, h.isName.leaf⟩) h.free
    · rwa [h.alone r hr (h.isName.mem_ancestry_iff.1 hstart)] at hkept
  · intro hkept
    refine .inr ⟨name, h.declared, ?_, ?_, hkept⟩
    · rw [h.isName.topLevel]
      exact h.kept
    · rw [h.isName.ancestry]
      exact List.mem_singleton_self name

/-- What is not contested does not depend on the order. -/
theorem Grown.of_perm {t : OrgTree} {path : String} (h : Grown g t rs path) (hperm : rs.Perm rs')
    (hnot : ¬ ContestedIn g t rs path) : Grown g t rs' path := by
  rcases h with hthere | ⟨r, hr, hignored, hstart, hkept⟩
  · exact .inl hthere
  by_cases hname : Path.IsName r
  · rw [hname.ancestry, List.mem_singleton] at hstart
    subst hstart
    have hfree : ¬ HasName t path := fun hhas => hkept ⟨hname, .inl hhas⟩
    rw [hname.topLevel] at hignored
    -- so another reference starts with the name
    obtain ⟨q, hq, htop, hne⟩ : ∃ q ∈ rs, Path.topLevel q = path ∧ q ≠ path := by
      by_contra hnone
      exact hnot ⟨hr, hname, hignored, hfree, fun q hq htop => by
        by_contra hne
        exact hnone ⟨q, hq, htop, hne⟩⟩
    refine .inr ⟨q, hperm.mem_iff.1 hq, htop ▸ hignored, hname.mem_ancestry_iff.2 htop, ?_⟩
    rintro ⟨hbare, -⟩
    exact hne (hbare.topLevel.symm.trans htop)
  · exact .inr ⟨r, hperm.mem_iff.1 hr, hignored, hstart, fun h => hname h.1⟩

/-- Nothing grows at the empty path. -/
theorem Grown.ne_empty (hc : c.Charted) (hn : c.org.snapshot.Named) {path : String}
    (h : Grown g c.tree rs path) : path ≠ "" := by
  rintro rfl
  rcases h with hthere | ⟨r, -, -, hstart, -⟩
  · obtain ⟨ou, hou, hat⟩ := mem_paths.1 hthere
    refine hc.segments_ne_nil hn hou ?_
    rw [hat]
    rfl
  · have hleaf := Path.leaf_mem_segments hstart
    exact (Path.isName_of_mem_segments hleaf).1 rfl

/-- A bare name is only made for itself. -/
theorem eq_of_madeFor {there : String → Prop} (hthere : ∀ path, there path → path ≠ "")
    {path name : String} (hname : Path.IsName name) (h : MadeFor there path name) :
    path = name := by
  rcases h with ⟨hnone, hleaf⟩ | ⟨above, -, habove, hjoin⟩
  · rcases Path.parent?_eq_none_iff.1 hnone with rfl | hpath
    · exact absurd hleaf hname.1
    · rw [hleaf, hpath.leaf]
  · refine absurd ?_ hname.2
    rw [hjoin, Path.toList_join (hthere above habove)]
    exact List.mem_append_right _ List.mem_cons_self

end Convergence

open Convergence

/-! ### Two orders -/

/-- The name is a later segment of a path declared before it that is not ignored. -/
def Overtaken (config : Configuration) (name : String) : Prop :=
  OvertakenIn config.options config.declaredPaths name

/-- The order of declarations decides whether there is a unit of the name right under the root, also
when suspended accounts get theirs. -/
structure Contested (config : Configuration) (tree : OrgTree) (name : String) : Prop extends
    ContestedIn config.options tree config.declaredPaths name where
  /-- It is not the unit of suspended accounts, or all these are in their place. -/
  unneeded : name = config.options.suspendedOu → outOfPlace tree name = []

/-- There is a unit at the path in the end: it was there, a reference has grown it, or it was made
for the unit of suspended accounts. -/
def EndsAt (config : Configuration) (tree : OrgTree) (path : String) : Prop :=
  Grown config.options tree config.declaredPaths path ∨
    (outOfPlace tree config.options.suspendedOu ≠ [] ∧
      MadeFor (Grown config.options tree config.declaredPaths) config.options.suspendedOu path)

/-- Two configurations have the same options and refer to the same units, in whatever order. -/
structure Reordered (config config' : Configuration) : Prop where
  /-- The options are the same. -/
  options : config'.options = config.options
  /-- The references are the same. -/
  paths : config.declaredPaths.Perm config'.declaredPaths

section

variable {config config' : Configuration}

theorem Reordered.symm (h : Reordered config config') : Reordered config' config :=
  ⟨h.options.symm, h.paths.symm⟩

/-- Units that are declared in another order are referred to in another order. -/
theorem Reordered.of_perm {ous : KeyedMap OuEntry} (hperm : config.ous.entries.Perm ous.entries) :
    Reordered config { config with ous } := by
  have hkeys : config.ous.keys.Perm ous.keys := hperm.map Prod.fst
  refine ⟨rfl, ?_⟩
  unfold Configuration.declaredPaths
  rw [Configuration.foldl_addNew, Configuration.foldl_addNew]
  refine hkeys.append (List.Perm.of_eq (congrArg List.eraseDups (List.filter_congr fun r _ => ?_)))
  rw [decide_eq_decide, hkeys.mem_iff]

/-- What is contested does not depend on the order. -/
theorem Contested.reordered {tree : OrgTree} {name : String} (h : Contested config tree name)
    (hsame : Reordered config config') : Contested config' tree name := by
  refine ⟨?_, ?_⟩
  · rw [hsame.options]
    exact h.toContestedIn.of_perm hsame.paths
  · rw [hsame.options]
    exact h.unneeded

variable {c : Convergence} (hc : c.Charted) (hn : c.org.snapshot.Named)

include hc hn

/-- A contested name has a unit right under the root in the end iff it is not overtaken. -/
theorem endsAt_iff_not_overtaken {name : String} (h : Contested config c.tree name) :
    EndsAt config c.tree name ↔ ¬ Overtaken config name := by
  refine Iff.trans (or_iff_left ?_) (grown_iff_not_overtaken hc hn h.toContestedIn)
  rintro ⟨hout, hmade⟩
  have hunit := eq_of_madeFor (fun _ hgrown => Grown.ne_empty hc hn hgrown) h.isName hmade
  rw [hunit] at hout
  exact hout (h.unneeded hunit.symm)

/-- What references grow in one order they grow in the other, but for the unit of suspended accounts
where one is made for them, if every contested name is overtaken in both orders or in neither. -/
theorem grown_of_reordered (hsame : Reordered config config')
    (hboth : ∀ name, Contested config c.tree name →
      (Overtaken config name ↔ Overtaken config' name))
    {path : String} (h : Grown config.options c.tree config.declaredPaths path) :
    Grown config.options c.tree config'.declaredPaths path ∨
      (outOfPlace c.tree path ≠ [] ∧ Path.IsName path ∧ path = config.options.suspendedOu) := by
  by_cases hin : ContestedIn config.options c.tree config.declaredPaths path
  · by_cases hplace : path = config.options.suspendedOu → outOfPlace c.tree path = []
    · have hcontested : Contested config c.tree path := ⟨hin, hplace⟩
      left
      rw [grown_iff_not_overtaken hc hn (hin.of_perm hsame.paths)]
      rw [grown_iff_not_overtaken hc hn hin] at h
      refine fun hover => h ((hboth path hcontested).2 ?_)
      unfold Overtaken
      rwa [hsame.options]
    · obtain ⟨hunit, hout⟩ := Classical.not_imp.1 hplace
      exact .inr ⟨hout, hin.isName, hunit⟩
  · exact .inl (h.of_perm hsame.paths hin)

/-- Where there is a unit in the end for one order there is one for the other, if every contested
name is overtaken in both orders or in neither. -/
theorem EndsAt.reordered (hsame : Reordered config config')
    (hboth : ∀ name, Contested config c.tree name →
      (Overtaken config name ↔ Overtaken config' name))
    {path : String} (h : EndsAt config c.tree path) : EndsAt config' c.tree path := by
  have hgrown : ∀ p, Grown config.options c.tree config.declaredPaths p → _ := fun _ =>
    grown_of_reordered hc hn hsame hboth
  unfold EndsAt
  rw [hsame.options]
  rcases h with h | ⟨hout, hmade⟩
  · refine (hgrown path h).imp_right ?_
    rintro ⟨hout, hname, hunit⟩
    rw [← hunit]
    exact ⟨hout, .inl ⟨Path.parent?_eq_none_iff.2 (.inr hname), hname.leaf.symm⟩⟩
  · refine .inr ⟨hout, hmade.imp_right ?_⟩
    rintro ⟨above, habove, hthere, hjoin⟩
    refine ⟨above, habove, (hgrown above hthere).resolve_right ?_, hjoin⟩
    -- the unit of suspended accounts is no bare name, as something is above it
    rintro ⟨-, hname, hunit⟩
    rw [← hunit, Path.parent?_eq_none_iff.2 (.inr hname)] at habove
    cases habove

end

/-- The paths of the live units. -/
def livePaths (o : Organization) : List String := o.snapshot.ous.map o.snapshot.pathOf

/-- The live paths after convergence, if no call is made to fail. -/
theorem mem_livePaths_converge {config : Configuration} {org : Organization} {tree : OrgTree}
    (h : (⟨org, tree, {}⟩ : Convergence).Tracks) (hn : org.snapshot.Named)
    (hfail : Unharmed org (converge config org tree).org) {path : String} :
    path ∈ livePaths (converge config org tree).org ↔ EndsAt config tree path := by
  have hshown : livePaths (converge config org tree).org =
      paths (converge config org tree).tree := by
    unfold livePaths paths
    rw [(converge_grows h.charted).1.charts.ous, List.map_map]
    rfl
  rw [hshown]
  exact mem_paths_converge config h hn hfail

section

variable {config : Configuration} {ous : KeyedMap OuEntry} {org : Organization} {tree : OrgTree}

/-- **The order of declarations decides about contested names alone.** Where no call is made to
fail, two configurations that declare the same units in different orders leave the same live paths
iff every contested name is overtaken in both orders or in neither. -/
theorem converge_order_iff (hperm : config.ous.entries.Perm ous.entries)
    (hs : org.snapshot.Rooted) (hhoused : org.snapshot.Housed) (hn : org.snapshot.Named)
    (hread : OrgTree.read org = .ok tree) (hfail : Unharmed org (converge config org tree).org)
    (hfail' : Unharmed org (converge { config with ous } org tree).org) :
    (∀ path, path ∈ livePaths (converge config org tree).org ↔
        path ∈ livePaths (converge { config with ous } org tree).org) ↔
      ∀ name, Contested config tree name →
        (Overtaken config name ↔ Overtaken { config with ous } name) := by
  have h : (⟨org, tree, {}⟩ : Convergence).Tracks := tracks_of_read hs hhoused hread
  have hsame : Reordered config { config with ous } := .of_perm hperm
  simp only [mem_livePaths_converge h hn hfail, mem_livePaths_converge h hn hfail']
  constructor
  · intro hpaths name hname
    have hends := hpaths name
    rw [endsAt_iff_not_overtaken h.charted hn hname,
      endsAt_iff_not_overtaken h.charted hn (hname.reordered hsame)] at hends
    exact not_iff_not.1 hends
  · intro hboth path
    refine ⟨EndsAt.reordered h.charted hn hsame hboth,
      EndsAt.reordered h.charted hn hsame.symm fun name hname => ?_⟩
    exact (hboth name (hname.reordered hsame.symm)).symm

end

/-- A suspended account under the root, and no unit. -/
def noUnits : Organization where
  snapshot :=
    { root := some ⟨"r-1", "Root"⟩
      ous := []
      accounts := [⟨"1", "Old", "old@x", .suspended, "r-1"⟩]
      policies := [] }

/-- A configuration that declares units under these keys, in this order. -/
def declaring (keys : List String) : Configuration :=
  ⟨{}, .ofList (keys.map (·, {})), .empty, .empty⟩

instance (config : Configuration) : DecidablePred (Overtaken config) := fun name =>
  inferInstanceAs (Decidable (∃ r ∈ config.declaredPaths.takeWhile (· ≠ name), _))

/-- Orders that differ leave the same units, also those of a name that is overtaken in both. -/
theorem converge_order_iff_overtaken_in_both :
    noUnits.snapshot.Rooted ∧ noUnits.snapshot.Housed ∧ noUnits.snapshot.Named ∧
      (declaring ["Base/Dev", "Ops", "Dev"]).ous.entries.Perm
        (declaring ["Ops", "Base/Dev", "Dev"]).ous.entries ∧
      Overtaken (declaring ["Ops", "Base/Dev", "Dev"]) "Dev" ∧
      ∃ t, OrgTree.read noUnits = .ok t ∧
        ∀ path, path ∈ livePaths (converge (declaring ["Base/Dev", "Ops", "Dev"]) noUnits t).org ↔
          path ∈ livePaths (converge (declaring ["Ops", "Base/Dev", "Dev"]) noUnits t).org := by
  have hflat : noUnits.snapshot.Flat ⟨"r-1", "Root"⟩ := by decide +kernel
  have hs := hflat.wellFormed
  have hperm : (declaring ["Base/Dev", "Ops", "Dev"]).ous.entries.Perm
      (declaring ["Ops", "Base/Dev", "Dev"]).ous.entries := .swap _ _ _
  obtain ⟨t, hread⟩ : ∃ t, OrgTree.read noUnits = .ok t := ⟨_, rfl⟩
  refine ⟨hs.toRooted, hs.toHoused, hs.toNamed, hperm, by decide +kernel, t, hread, ?_⟩
  refine (converge_order_iff hperm hs.toRooted hs.toHoused hs.toNamed hread
    (Unharmed.of_failing_eq_nil rfl _) (Unharmed.of_failing_eq_nil rfl _)).2 ?_
  have hall : ∀ name ∈ (declaring ["Base/Dev", "Ops", "Dev"]).declaredPaths,
      (Overtaken (declaring ["Base/Dev", "Ops", "Dev"]) name ↔
        Overtaken (declaring ["Ops", "Base/Dev", "Dev"]) name) := by decide +kernel
  exact fun name hname => hall name hname.declared

/-- Nothing but a root, with an identifier that a unit may get. -/
def rootLikeUnit : Organization := ⟨⟨some ⟨Snapshot.ouId 1, "Root"⟩, [], [], []⟩, [], []⟩

/-- A name may get a unit of its own in one order and not in the other; and where the root has an
identifier that a unit may get, units end below the one that is created first. -/
theorem converge_depends_on_order :
    (noUnits.snapshot.WellFormed ∧ noUnits.failing = [] ∧
      (declaring ["Dev", "Base/Dev"]).ous.entries.Perm
        (declaring ["Base/Dev", "Dev"]).ous.entries ∧
      ∃ t, OrgTree.read noUnits = .ok t ∧
        livePaths (converge (declaring ["Dev", "Base/Dev"]) noUnits t).org =
          ["Dev", "Base", "Base/Dev", "Suspended"] ∧
        livePaths (converge (declaring ["Base/Dev", "Dev"]) noUnits t).org =
          ["Base", "Base/Dev", "Suspended"]) ∧
    rootLikeUnit.snapshot.Linked ∧ rootLikeUnit.snapshot.Housed ∧ rootLikeUnit.snapshot.Named ∧
      rootLikeUnit.failing = [] ∧
      (declaring ["A", "C"]).ous.entries.Perm (declaring ["C", "A"]).ous.entries ∧
      ∃ t, OrgTree.read rootLikeUnit = .ok t ∧
        paths (converge (declaring ["A", "C"]) rootLikeUnit t).tree = ["A", "A/C"] ∧
        paths (converge (declaring ["C", "A"]) rootLikeUnit t).tree = ["C", "C/A"] ∧
        livePaths (converge (declaring ["A", "C"]) rootLikeUnit t).org = ["A/A/A", "A/A/C"] ∧
        livePaths (converge (declaring ["C", "A"]) rootLikeUnit t).org = ["C/C/C", "C/C/A"] := by
  constructor
  · have hflat : noUnits.snapshot.Flat ⟨"r-1", "Root"⟩ := by decide +kernel
    exact ⟨hflat.wellFormed, rfl, .swap _ _ _, _, rfl, by decide +kernel, by decide +kernel⟩
  · have hlinked : rootLikeUnit.snapshot.Linked :=
      ⟨rfl, fun _ _ => rfl, List.nodup_nil, fun _ h => absurd h List.not_mem_nil, fun _ => 0,
        fun _ h => absurd h List.not_mem_nil⟩
    exact ⟨hlinked, ⟨List.nodup_nil, fun _ h => absurd h List.not_mem_nil⟩,
      ⟨List.Pairwise.nil, fun _ h => absurd h List.not_mem_nil⟩, rfl, .swap _ _ _, _, rfl,
      by decide +kernel, by decide +kernel, by decide +kernel, by decide +kernel⟩

end OrgAlign.Drift
