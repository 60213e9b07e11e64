import OrgAlign.Proofs.Drift.References

/-!
# No unit is created needlessly

The first stage looks each declared reference up when its turn comes, in the tree that the ones
before it have left, and creates units for those that lead nowhere. Main statements:

* `unresolved`: the references that lead nowhere when their turn comes;
* `foldl_createDeclared_adds`: what going through references adds, and by which calls, whatever
  fails;
* `createMissing_minimal`: it creates nothing that is there, nothing twice and nothing that no such
  reference asks for, and all that they ask for if no call is made to fail.
-/

namespace OrgAlign.Drift

open Config Org Reconcile

namespace Convergence

variable {c : Convergence}

/-! ### References that lead nowhere -/

/-- The reference is not ignored, and leads nowhere. -/
def leadsNowhere (g : GlobalOptions) (c : Convergence) (declared : String) : Bool :=
  !g.isIgnored (Path.topLevel declared) && matchOu declared c.tree.ous == .notFound

/-- Of references that are looked up one after the other, those that are not ignored and lead
nowhere when their turn comes. -/
def unresolved (g : GlobalOptions) : Convergence → List String → List String
  | _, [] => []
  | c, declared :: rest =>
    if leadsNowhere g c declared then
      declared :: unresolved g (createDeclared g c declared) rest
    else unresolved g (createDeclared g c declared) rest

theorem unresolved_cons (g : GlobalOptions) (c : Convergence) (declared : String)
    (rest : List String) : unresolved g c (declared :: rest) =
      if leadsNowhere g c declared then
        declared :: unresolved g (createDeclared g c declared) rest
      else unresolved g (createDeclared g c declared) rest := rfl

theorem createDeclared_of_leadsNowhere {g : GlobalOptions} {declared : String}
    (h : leadsNowhere g c declared = true) :
    createDeclared g c declared = createDown declared (Path.ancestry declared) c := by
  obtain ⟨hignored, hmatch⟩ := Bool.and_eq_true_iff.1 h
  rw [Bool.not_eq_true'] at hignored
  simp only [createDeclared, hignored, beq_iff_eq.1 hmatch]
  rfl

theorem createDeclared_of_not {g : GlobalOptions} {declared : String}
    (h : leadsNowhere g c declared = false) : createDeclared g c declared = c := by
  rcases createDeclared_eq g c declared with heq | ⟨hignored, hmatch, -⟩
  · exact heq
  · simp [leadsNowhere, hignored, hmatch] at h

/-! ### All declared references -/

/-- Looking one reference up adds units on the way down to it if it leads nowhere, whatever fails;
if no call is made to fail, the paths grow by all on that way that were missing. -/
theorem createDeclared_adds (g : GlobalOptions) (declared : String) (hc : c.Charted) :
    ∃ new, Adds c (createDeclared g c declared) new ∧
      (∀ ou ∈ new, leadsNowhere g c declared = true ∧ ou.path ∈ Path.ancestry declared) ∧
      (Unharmed c.org (createDeclared g c declared).org →
        paths (createDeclared g c declared).tree =
          if leadsNowhere g c declared then
            (Path.ancestry declared).foldl Configuration.addNew (paths c.tree)
          else paths c.tree) := by
  cases hnowhere : leadsNowhere g c declared with
  | false =>
    rw [createDeclared_of_not hnowhere]
    exact ⟨[], Adds.refl c, fun _ h => absurd h List.not_mem_nil, fun _ => rfl⟩
  | true =>
    rw [createDeclared_of_leadsNowhere hnowhere]
    obtain ⟨new, hadds, hon, hall⟩ := createDown_adds declared
      (fun name => Path.isName_of_mem_segments) hc (.inl rfl)
    exact ⟨new, hadds, fun ou hou => ⟨rfl, hon ou hou⟩, hall⟩

/-- Going through references adds units on the way down to those that lead nowhere, whatever fails;
if no call is made to fail, the paths grow by all on these ways that were missing. -/
theorem foldl_createDeclared_adds (g : GlobalOptions) (rs : List String) (hc : c.Charted) :
    ∃ new, Adds c (rs.foldl (createDeclared g) c) new ∧
      (∀ ou ∈ new, ∃ r ∈ unresolved g c rs, ou.path ∈ Path.ancestry r) ∧
      (Unharmed c.org (rs.foldl (createDeclared g) c).org →
        paths (rs.foldl (createDeclared g) c).tree =
          ((unresolved g c rs).flatMap Path.ancestry).foldl Configuration.addNew
            (paths c.tree)) := by
  induction rs generalizing c with
  | nil => exact ⟨[], Adds.refl c, fun _ h => absurd h List.not_mem_nil, fun _ => rfl⟩
  | cons first rs ih =>
    obtain ⟨new, hnew, hon, hway⟩ := createDeclared_adds g first hc
    obtain ⟨more, hmore, hfrom, hall⟩ := ih (createDeclared_grows g first hc).1
    rw [List.foldl_cons, unresolved_cons]
    refine ⟨new ++ more, hnew.trans hmore, fun ou hou => ?_, fun hfail => ?_⟩
    · rcases List.mem_append.1 hou with hou | hou
      · obtain ⟨hnowhere, hpath⟩ := hon ou hou
        rw [if_pos hnowhere]
        exact ⟨first, List.mem_cons_self, hpath⟩
      · obtain ⟨r, hr, hpath⟩ := hfrom ou hou
        refine ⟨r, ?_, hpath⟩
        split
        · exact List.mem_cons_of_mem _ hr
        · exact hr
    · obtain ⟨hbefore, hafter⟩ := Unharmed.split hnew.calls.issued hmore.calls.issued hfail
      rw [hall hafter, hway hbefore]
      split
      · rw [List.flatMap_cons, List.foldl_append]
      · rfl

/-- **The first stage creates no unit needlessly.** Each of its calls creates a unit where its
parent is there and no sibling has its name, so that none finds its result already there; each unit
is at a beginning of a reference that led nowhere when its turn came; no two units share a path; and
if no call is made to fail, the paths created are the missing beginnings of these references, in the
order of the references and the shortest first. -/
theorem createMissing_minimal (config : Configuration) (hs : c.org.snapshot.Rooted)
    (hn : c.org.snapshot.Named) (hread : OrgTree.read c.org = .ok c.tree) :
    ∃ new, (c.createMissing config).report.created = c.report.created ++ new ∧
      IssuedAs CreatesNew c.org (c.createMissing config).org ∧
      (∀ ou ∈ new, ∃ r ∈ unresolved config.options c config.declaredPaths,
        ou.path ∈ Path.ancestry r) ∧
      (c.createMissing config).org.snapshot.ous.map (c.createMissing config).org.snapshot.located =
        c.tree.ous ++ new ∧
      ((c.tree.ous ++ new).map LiveOu.path).Nodup ∧
      (Unharmed c.org (c.createMissing config).org → new.map LiveOu.path =
        (((unresolved config.options c config.declaredPaths).flatMap Path.ancestry).filter
          (· ∉ c.tree.ous.map LiveOu.path)).eraseDups) := by
  have hc : c.Charted := ⟨hs, charts_of_read hs.ids hread⟩
  obtain ⟨new, hadds, hfrom, hall⟩ :=
    foldl_createDeclared_adds config.options config.declaredPaths hc
  have hcharted : (c.createMissing config).Charted :=
    createMissing_keeps Charted (fun _ _ h => h.congr rfl rfl) config
      (fun _ path _ h => h.createOu path) c hc
  refine ⟨new, hadds.created, hadds.calls, hfrom, ?_, ?_, fun hfail => ?_⟩
  · rw [← hadds.ous]
    exact hcharted.charts.ous.symm
  · rw [← hadds.ous]
    exact hcharted.nodup_paths (createMissing_named hn)
  · have hgrown := hall hfail
    rw [Configuration.foldl_addNew] at hgrown
    unfold paths at hgrown
    rw [hadds.ous, List.map_append] at hgrown
    exact List.append_cancel_left hgrown

/-- A name that resolves keeps a unit from being created; the others are created from the top
down. -/
theorem createMissing_minimal_unitBelow :
    unitBelow.snapshot.Rooted ∧ unitBelow.snapshot.Named ∧
      ∃ t, OrgTree.read unitBelow = .ok t ∧
        unresolved nameTwice.options ⟨unitBelow, t, {}⟩ nameTwice.declaredPaths =
          ["Base/Dev", "Ops/"] ∧
        ((⟨unitBelow, t, {}⟩ : Convergence).createMissing nameTwice).report.created.map
          LiveOu.path = ["Base", "Base/Dev", "Ops"] := by
  obtain ⟨hs, hn⟩ := unitBelow_wellFormed
  obtain ⟨t, hread, hopen, hmissing⟩ : ∃ t, OrgTree.read unitBelow = .ok t ∧
      unresolved nameTwice.options ⟨unitBelow, t, {}⟩ nameTwice.declaredPaths =
        ["Base/Dev", "Ops/"] ∧
      ((["Base/Dev", "Ops/"].flatMap Path.ancestry).filter
        (· ∉ t.ous.map LiveOu.path)).eraseDups = ["Base", "Base/Dev", "Ops"] :=
    ⟨_, rfl, by decide +kernel, by decide +kernel⟩
  obtain ⟨new, hcreated, -, -, -, -, hall⟩ :=
    createMissing_minimal (c := ⟨unitBelow, t, {}⟩) nameTwice hs hn hread
  refine ⟨hs, hn, t, hread, hopen, ?_⟩
  rw [hcreated, List.nil_append, hall (Unharmed.of_failing_eq_nil rfl _), hopen]
  exact hmissing

end Convergence
end OrgAlign.Drift
