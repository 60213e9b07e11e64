import OrgAlign.Proofs.Config.Accounts
import OrgAlign.Proofs.Drift.Frame
import OrgAlign.Proofs.Path

/-!
# Creating missing units

Every call of the first stage creates a unit where there is room for it, and what it creates is at
the path that was asked for. Where no call is made to fail, every unit on the way down to a declared
path is there in the end. Main statements:

* `createOu_below`, `createDown_cases`: what becomes of a path below one that is there;
* `createDown_adds`: what becomes of a way down, whatever fails: units are added to the tree and to
  the report, at the paths that were missing;
* `createDown_reaches`: every beginning of a declared path is there;
* `createMissing_reaches`: afterwards no declared reference leads nowhere, unless it is ignored or
  not a proper path.
-/

namespace OrgAlign

open Config Org Reconcile

/-! ### Calls that create -/

namespace Org

variable {o : Organization} {name parent : String}

/-- Where there is room for a unit, a call creates it, unless one of its subjects is made to
fail. -/
theorem Organization.createOu_of_vacant (h : o.snapshot.Vacant name parent) :
    (∃ e, e.isNoOp = false ∧ (∃ x ∈ [name, parent], x ∈ o.failing) ∧ o.createOu name parent =
      (.error e, o.after (.createOu name parent) o.snapshot)) ∨
    o.createOu name parent = (.ok ⟨o.snapshot.nextOuId, name, parent⟩,
      o.after (.createOu name parent) (o.snapshot.addOu ⟨o.snapshot.nextOuId, name, parent⟩)) := by
  by_cases hfailing : ∃ x ∈ [name, parent], x ∈ o.failing
  · obtain ⟨e, hnoOp, hcall⟩ := Organization.createOu_of_failing hfailing
    exact .inl ⟨e, hnoOp, hfailing, hcall⟩
  · have hcall := Organization.createOu_of_available hfailing
    rw [h.created] at hcall
    exact .inr hcall

/-- The call creates a unit where there is room for it, and never finds the unit there. -/
def CreatesNew (o : Organization) (call : Call) : Prop :=
  ∃ name parent, call = .createOu name parent ∧ o.snapshot.Vacant name parent ∧
    ∀ e, (o.createOu name parent).1 = .error e → e.isNoOp = false

/-- Where there is room for a unit, a call that creates it does not find it there. -/
theorem Snapshot.Vacant.createsNew (h : o.snapshot.Vacant name parent) :
    CreatesNew o (.createOu name parent) := by
  refine ⟨name, parent, rfl, h, fun e he => ?_⟩
  rcases Organization.createOu_of_vacant h with ⟨e', hnoOp, -, hcall⟩ | hcall
  · rw [hcall] at he
    cases he
    exact hnoOp
  · rw [hcall] at he
    cases he

end Org

namespace Drift.Convergence

variable {c c' c'' : Convergence}

/-! ### One unit -/

/-- Something is at a path: the root at the empty one, or a unit. -/
def Reaches (t : OrgTree) (path : String) : Prop := path = "" ∨ ∃ ou ∈ t.ous, ou.path = path

/-- The parent of a path below one that is there. -/
theorem parentFor_join (hc : c.Charted) {above name : String} (hname : Path.IsName name)
    (habove : Reaches c.tree above) :
    ∃ parent, parentFor c.tree (Path.join above name) = .ok parent ∧
      c.org.snapshot.isParent parent = true ∧ c.org.snapshot.pathAt parent = above := by
  unfold parentFor
  rw [Path.parent?_join above hname]
  by_cases hempty : above = ""
  · rw [if_pos hempty, hempty]
    exact ⟨c.tree.rootId, rfl, hc.charts.pathAt_root hc.rooted.linked⟩
  · rw [if_neg hempty]
    obtain ⟨ou, hou, hpath⟩ := habove.resolve_left hempty
    cases hfind : c.tree.ouByPath? above with
    | none => exact absurd hpath (OrgTree.ouByPath?_eq_none.1 hfind ou hou)
    | some found =>
      obtain ⟨hin, hat⟩ := OrgTree.ouByPath?_eq_some hfind
      obtain ⟨hparent, hpathAt⟩ := hc.charts.pathAt_of_mem hc.rooted.linked hin
      exact ⟨found.id, by simp only [hfind], hparent, hpathAt.trans hat⟩

/-- A path below another one has a parent only if something is at the other one. -/
theorem reaches_of_parentFor {t : OrgTree} {above name parent : String} (hname : Path.IsName name)
    (h : parentFor t (Path.join above name) = .ok parent) : Reaches t above := by
  unfold parentFor at h
  rw [Path.parent?_join above hname] at h
  by_cases hempty : above = ""
  · exact .inl hempty
  · rw [if_neg hempty] at h
    cases habove : t.ouByPath? above with
    | none => simp [habove] at h
    | some up => exact .inr ⟨up, OrgTree.ouByPath?_eq_some habove⟩

/-- What becomes of a path below one that is there, if nothing is at it: a call is issued for it,
which is made to fail or creates the unit. -/
theorem createOu_below (hc : c.Charted) {above name : String} (hname : Path.IsName name)
    (habove : Reaches c.tree above) (hnew : c.tree.ouByPath? (Path.join above name) = none) :
    ∃ parent, c.org.snapshot.Vacant name parent ∧
      (c.createOu (Path.join above name)).2.org = c.org.perform (.createOu name parent) ∧
      ((∃ e, (∃ x ∈ [name, parent], x ∈ c.org.failing) ∧ c.createOu (Path.join above name) =
          (.failed e, { c with org := c.org.perform (.createOu name parent) })) ∨
        ∃ ou, (c.createOu (Path.join above name)).1 = .created ou ∧ ou.path = Path.join above name ∧
          (c.createOu (Path.join above name)).2.tree.ous = c.tree.ous ++ [ou] ∧
          (c.createOu (Path.join above name)).2.report = c.report) := by
  obtain ⟨parent, hparent, hthere, hpathAt⟩ := parentFor_join hc hname habove
  have hvacant : c.org.snapshot.Vacant name parent := by
    -- a sibling of that name would be at the path
    refine ⟨hthere, fun o ho hop hon => ?_⟩
    have hpath : c.org.snapshot.pathOf o = Path.join above name := by
      rw [hc.rooted.linked.pathOf_eq_join ho, hop, hpathAt, hon]
    have hin : c.org.snapshot.located o ∈ c.tree.ous := hc.charts.ous ▸ List.mem_map_of_mem ho
    exact OrgTree.ouByPath?_eq_none.1 hnew _ hin hpath
  refine ⟨parent, hvacant, ?_⟩
  have hleaf : Path.leaf (Path.join above name) = name := Path.leaf_join above hname
  have hperform : c.org.perform (.createOu name parent) = (c.org.createOu name parent).2 := rfl
  rcases Organization.createOu_of_vacant hvacant with ⟨e, hnoOp, hfailing, hcall⟩ | hcall
  · have hmade : c.createOu (Path.join above name) =
        (.failed e, { c with org := (c.org.createOu name parent).2 }) := by
      simp only [createOu, hparent, hleaf, hcall, hnoOp]
      rfl
    rw [hmade, hperform]
    exact ⟨rfl, .inl ⟨e, hfailing, rfl⟩⟩
  · have hmade : c.createOu (Path.join above name) =
        (.created (c.tree.insertOu ⟨c.org.snapshot.nextOuId, name, parent⟩).1,
          { c with
            org := (c.org.createOu name parent).2
            tree := (c.tree.insertOu ⟨c.org.snapshot.nextOuId, name, parent⟩).2 }) := by
      simp only [createOu, hparent, hleaf, hcall]
    obtain ⟨-, hfits, -⟩ := Snapshot.created_eq_ok hvacant.created
    obtain ⟨-, hlocated, hous⟩ := hc.charts.insertOu hc.rooted hfits
    rw [hmade, hperform]
    refine ⟨rfl, .inr ⟨_, rfl, ?_, ?_, rfl⟩⟩
    · rw [hlocated]
      change (c.org.snapshot.addOu _).pathOf _ = _
      rw [hc.rooted.pathUnder_addOu hfits hfits.parent, hpathAt]
    · rw [hlocated]
      exact hous

/-! ### The way down -/

theorem issued_createDown (declared : String) (paths : List String) (c : Convergence) :
    Issued c.org (createDown declared paths c).org :=
  createDown_keeps (fun c' => Issued c.org c'.org) (fun _ _ h => h) declared
    (fun c' path _ h => h.trans (c'.issued_createOu path)) c (Issued.refl c.org)

/-- On the way down units are added to the tree, and it shows them. -/
theorem createDown_grows (declared : String) (paths : List String) (hc : c.Charted) :
    (createDown declared paths c).Charted ∧
      c.tree.ous <+: (createDown declared paths c).tree.ous :=
  createDown_keeps (fun c' => c'.Charted ∧ c.tree.ous <+: c'.tree.ous)
    (fun _ _ h => ⟨h.1.congr rfl rfl, h.2⟩) declared
    (fun c' path _ h => ⟨h.1.createOu path, h.2.trans (c'.ous_createOu path)⟩) c
    ⟨hc, List.prefix_rfl⟩

/-- What a stretch of creating units adds: the same units to the tree and to the report, by calls
each of which creates a unit where there is room for it. -/
structure Adds (c c' : Convergence) (new : List LiveOu) : Prop where
  /-- The units are in the tree. -/
  ous : c'.tree.ous = c.tree.ous ++ new
  /-- The units are in the report. -/
  created : c'.report.created = c.report.created ++ new
  /-- The calls that created them. -/
  calls : IssuedAs CreatesNew c.org c'.org

theorem Adds.refl (c : Convergence) : Adds c c [] :=
  ⟨(List.append_nil _).symm, (List.append_nil _).symm, .refl _⟩

theorem Adds.trans {new new' : List LiveOu} (h : Adds c c' new) (h' : Adds c' c'' new') :
    Adds c c'' (new ++ new') := by
  refine ⟨?_, ?_, h.calls.trans h'.calls⟩
  · rw [h'.ous, h.ous, List.append_assoc]
  · rw [h'.created, h.created, List.append_assoc]

/-- The paths of a tree. -/
def paths (t : OrgTree) : List String := t.ous.map LiveOu.path

theorem mem_paths {t : OrgTree} {path : String} : path ∈ paths t ↔ ∃ ou ∈ t.ous, ou.path = path :=
  List.mem_map

/-- The next path on the way down is there, or the call that creates it is made to fail and nothing
below is tried, or it is created and the way goes on. -/
theorem createDown_cases (declared : String) (rest : List String) (hc : c.Charted)
    {above name : String} (hname : Path.IsName name) (habove : Reaches c.tree above) :
    (Path.join above name ∈ paths c.tree ∧
      createDown declared (Path.join above name :: rest) c = createDown declared rest c) ∨
    (Path.join above name ∉ paths c.tree ∧
      ((∃ parent reason, c.org.snapshot.Vacant name parent ∧
        (∃ x ∈ [name, parent], x ∈ c.org.failing) ∧
        createDown declared (Path.join above name :: rest) c =
          ({ c with org := c.org.perform (.createOu name parent) } : Convergence).fail reason) ∨
      ∃ ou c', ou.path = Path.join above name ∧ Adds c c' [ou] ∧ c'.Charted ∧
        createDown declared (Path.join above name :: rest) c = createDown declared rest c')) := by
  cases hthere : c.tree.ouByPath? (Path.join above name) with
  | some found =>
    exact .inl ⟨mem_paths.2 ⟨found, OrgTree.ouByPath?_eq_some hthere⟩,
      by simp only [createDown, hthere, Option.isSome_some, if_true]⟩
  | none =>
    have hmissing : Path.join above name ∉ paths c.tree := by
      rw [mem_paths]
      rintro ⟨other, hother, hat⟩
      exact OrgTree.ouByPath?_eq_none.1 hthere other hother hat
    refine .inr ⟨hmissing, ?_⟩
    have hcharted := hc.createOu (Path.join above name)
    obtain ⟨parent, hvacant, horg, ⟨e, hfailing, hmade⟩ | ⟨ou, hcreated, hpath, hous, hreport⟩⟩ :=
      createOu_below hc hname habove hthere
    · refine .inl ⟨parent, e.message?, hvacant, hfailing, ?_⟩
      simp only [createDown, hthere, Option.isSome_none, hmade, Bool.false_eq_true, if_false]
    · rcases hmade : c.createOu (Path.join above name) with ⟨creation, made⟩
      rw [hmade] at hcreated hous hreport horg hcharted
      cases hcreated
      refine .inr ⟨ou, (made.warn (.warning .missingOu declared
        ("Created organizational unit \"" ++ ou.path ++ "\""))).addCreated ou, hpath,
        ⟨hous, ?_, ?_⟩, hcharted.congr rfl rfl, ?_⟩
      · change made.report.created ++ [ou] = _
        rw [hreport]
      · change IssuedAs CreatesNew c.org made.org
        rw [horg]
        exact IssuedAs.perform hvacant.createsNew
      · simp only [createDown, hthere, Option.isSome_none, hmade, Bool.false_eq_true, if_false]

/-- A way down from a path that is there adds units on that way, whatever fails; if no call is made
to fail, the paths grow by those on the way that were missing. -/
theorem createDown_adds (declared : String) {names : List String}
    (hnames : ∀ name ∈ names, Path.IsName name) {above : String} (hc : c.Charted)
    (habove : Reaches c.tree above) :
    ∃ new, Adds c (createDown declared (Path.descend above names) c) new ∧
      (∀ ou ∈ new, ou.path ∈ Path.descend above names) ∧
      (Unharmed c.org (createDown declared (Path.descend above names) c).org →
        paths (createDown declared (Path.descend above names) c).tree =
          (Path.descend above names).foldl Configuration.addNew (paths c.tree)) := by
  induction names generalizing above c with
  | nil => exact ⟨[], Adds.refl c, fun _ h => absurd h List.not_mem_nil, fun _ => rfl⟩
  | cons name names ih =>
    have hname := hnames name List.mem_cons_self
    have hrest : ∀ n ∈ names, Path.IsName n := fun n hn => hnames n (List.mem_cons_of_mem _ hn)
    unfold Path.descend
    rw [List.foldl_cons]
    have hcases :=
      createDown_cases declared (Path.descend (Path.join above name) names) hc hname habove
    rcases hcases with
      ⟨hthere, hstep⟩ | ⟨hmissing, ⟨parent, reason, hvacant, hfailing, hstep⟩ |
        ⟨ou, noted, hpath, hadds, hcharted, hstep⟩⟩
    · rw [hstep, Configuration.addNew, if_pos (List.contains_iff_mem.2 hthere)]
      obtain ⟨new, hadds, hon, hall⟩ := ih hrest hc (.inr (mem_paths.1 hthere))
      exact ⟨new, hadds, fun ou hou => List.mem_cons_of_mem _ (hon ou hou), hall⟩
    · rw [hstep]
      refine ⟨[], ⟨(List.append_nil _).symm, (List.append_nil _).symm, ?_⟩,
        fun _ h => absurd h List.not_mem_nil, fun hfail => ?_⟩
      · exact IssuedAs.perform hvacant.createsNew
      · exact absurd hfailing hfail.no_subject
    · rw [hstep]
      have hmem : ou ∈ noted.tree.ous := by
        rw [hadds.ous]
        exact List.mem_append_right _ (List.mem_singleton_self ou)
      obtain ⟨new, hmore, hon, hall⟩ := ih hrest hcharted (.inr ⟨ou, hmem, hpath⟩)
      have hgrown : Configuration.addNew (paths c.tree) (Path.join above name) =
          paths noted.tree := by
        unfold paths at hmissing ⊢
        rw [Configuration.addNew, if_neg (fun h => hmissing (List.contains_iff_mem.1 h)),
          hadds.ous, List.map_append, List.map_singleton, hpath]
      refine ⟨ou :: new, hadds.trans hmore, ?_, fun hfail => ?_⟩
      · rw [List.forall_mem_cons]
        exact ⟨hpath ▸ List.mem_cons_self, fun o ho => List.mem_cons_of_mem _ (hon o ho)⟩
      · rw [hgrown]
        exact hall (Unharmed.split hadds.calls.issued hmore.calls.issued hfail).2

/-- Every path on the way down is there afterwards, if no call is made to fail. -/
theorem createDown_reaches (declared : String) {names : List String}
    (hnames : ∀ name ∈ names, Path.IsName name) {above : String} (hc : c.Charted)
    (habove : Reaches c.tree above)
    (hfail : Unharmed c.org (createDown declared (Path.descend above names) c).org) :
    ∀ path ∈ Path.descend above names,
      Reaches (createDown declared (Path.descend above names) c).tree path := by
  obtain ⟨-, -, -, hall⟩ := createDown_adds declared hnames hc habove
  intro path hpath
  refine .inr (mem_paths.1 ?_)
  rw [hall hfail]
  exact Configuration.mem_foldl_addNew.2 (.inr hpath)

/-! ### All declared paths -/

theorem createDeclared_eq (g : GlobalOptions) (c : Convergence) (declared : String) :
    createDeclared g c declared = c ∨
      (g.isIgnored (Path.topLevel declared) = false ∧
        matchOu declared c.tree.ous = .notFound ∧
        createDeclared g c declared = createDown declared (Path.ancestry declared) c) := by
  unfold createDeclared
  split
  · exact .inl rfl
  · rename_i hignored
    split
    · rename_i hnot
      exact .inr ⟨Bool.not_eq_true _ ▸ hignored, hnot, rfl⟩
    · exact .inl rfl

theorem issued_createDeclared (g : GlobalOptions) (c : Convergence) (declared : String) :
    Issued c.org (createDeclared g c declared).org := by
  rcases createDeclared_eq g c declared with h | ⟨-, -, h⟩
  · rw [h]
    exact Issued.refl _
  · rw [h]
    exact issued_createDown _ _ c

theorem createDeclared_grows (g : GlobalOptions) (declared : String) (hc : c.Charted) :
    (createDeclared g c declared).Charted ∧
      c.tree.ous <+: (createDeclared g c declared).tree.ous := by
  rcases createDeclared_eq g c declared with h | ⟨-, -, h⟩
  · rw [h]
    exact ⟨hc, List.prefix_rfl⟩
  · rw [h]
    exact createDown_grows _ _ hc

/-- A declared reference leads somewhere afterwards, if it is not ignored and a proper path, and no
call is made to fail. -/
theorem createDeclared_reaches (g : GlobalOptions) {declared : String} (hc : c.Charted)
    (hproper : Path.Proper declared) (hignored : g.isIgnored (Path.topLevel declared) = false)
    (hfail : Unharmed c.org (createDeclared g c declared).org) :
    matchOu declared (createDeclared g c declared).tree.ous ≠ .notFound := by
  cases hmatch : matchOu declared c.tree.ous with
  | notFound =>
    have heq : createDeclared g c declared =
        createDown declared (Path.ancestry declared) c := by
      simp only [createDeclared, hignored, hmatch]
      rfl
    rw [heq] at hfail ⊢
    have hreach := createDown_reaches declared (fun name => Path.isName_of_mem_segments) hc
      (.inl rfl) hfail declared hproper.mem_ancestry
    intro hnot
    rcases hreach with rfl | ⟨ou, hou, hpath⟩
    · exact absurd hproper (by decide)
    · exact (matchOu_eq_notFound.1 hnot).1 ou hou hpath
  | found ou s =>
    have heq : createDeclared g c declared = c := by
      simp only [createDeclared, hignored, hmatch]
      rfl
    rw [heq, hmatch]
    exact fun h => nomatch h
  | ambiguous candidates =>
    have heq : createDeclared g c declared = c := by
      simp only [createDeclared, hignored, hmatch]
      rfl
    rw [heq, hmatch]
    exact fun h => nomatch h

/-- **No declared reference leads nowhere after the first stage**, unless it is ignored or not a
proper path, if no call is made to fail. -/
theorem createMissing_reaches (config : Configuration) (hc : c.Charted)
    (hfail : Unharmed c.org (c.createMissing config).org) :
    ∀ r ∈ config.declaredPaths, Path.Proper r →
      config.options.isIgnored (Path.topLevel r) = false →
      matchOu r (c.createMissing config).tree.ous ≠ .notFound := by
  unfold createMissing at hfail ⊢
  generalize config.declaredPaths = rs at hfail ⊢
  induction rs generalizing c with
  | nil => exact fun r hr => absurd hr List.not_mem_nil
  | cons first rs ih =>
    rw [List.foldl_cons] at hfail ⊢
    obtain ⟨hcharted, -⟩ := createDeclared_grows config.options first hc
    -- what the rest of the walk issues, and what it adds
    have hrest : Issued (createDeclared config.options c first).org _ ∧ _ :=
      foldl_keeps (fun c' : Convergence =>
        Issued (createDeclared config.options c first).org c'.org ∧ c'.Charted ∧
          (createDeclared config.options c first).tree.ous <+: c'.tree.ous)
        (fun c' r h => ⟨h.1.trans (issued_createDeclared config.options c' r),
          (createDeclared_grows config.options r h.2.1).1,
          h.2.2.trans (createDeclared_grows config.options r h.2.1).2⟩)
        rs _ ⟨Issued.refl _, hcharted, List.prefix_rfl⟩
    obtain ⟨hissued, -, more, hmore⟩ := hrest
    obtain ⟨hfirst, hlater⟩ :=
      Unharmed.split (issued_createDeclared config.options c first) hissued hfail
    rw [List.forall_mem_cons]
    refine ⟨fun hproper hignored => ?_, ih hcharted hlater⟩
    rw [← hmore]
    exact matchOu_ne_notFound_append
      (createDeclared_reaches config.options hc hproper hignored hfirst) more

end Drift.Convergence
end OrgAlign
