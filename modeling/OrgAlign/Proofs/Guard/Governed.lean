import OrgAlign.Proofs.Config.Accounts
import OrgAlign.Proofs.Guard.Plan
import OrgAlign.Proofs.Org.Places
import OrgAlign.Proofs.Org.Reading
import OrgAlign.Proofs.Reconcile.Statuses

/-!
# Matched accounts under the plan

A pass resolves the reference of each account in the hierarchy. The plan knows no hierarchy below
the top: it governs a top-level unit when a reference begins with its name, and it does not count
the references of mandatory accounts. Main statements:

* `matched_governed`: who is matched is governed, but for the accounts that the plan overlooks;
* `matched_quarantined`: it overlooks some of those that a clean pass matches.
-/

namespace OrgAlign.Guard

open Config Org Reconcile

/-- The plan cannot know of an account in or below a top-level unit: that unit is not ignored and no
reference that counts begins with its name. The account's own reference does not count, because the
account is mandatory, or it is the name of its unit and not the path. -/
structure Overlooked (c : Configuration) (s : Snapshot) (d : Declared) (ou top : OuNode) :
    Prop where
  /-- The top-level unit is not ignored. -/
  notIgnored : c.options.isIgnored top.name = false
  /-- No reference begins with its name. -/
  unspoken : ∀ reference ∈ c.declaredPaths, Path.topLevel reference ≠ top.name
  /-- The account's reference does not count, or it does not begin at the top. -/
  reference : d.isMandatory = true ∨ d.entry.path = ou.name ∧ d.entry.path ≠ s.pathOf ou

/-- If the account fares as matched and its live account is not suspended, then that one is in a
unit with one top-level unit above it, and this one is not quarantined, unless it is the unit of
suspended accounts or the plan overlooks the account. -/
def GovernedIfMatched (i : Input) (s : Snapshot) (d : Declared) (status : String × MatchStatus) :
    Prop :=
  status.1 = d.key ∧ (status.2 = .matched →
    ∃ live, matchAccount? d.entry.email i.tree.accounts = some live ∧
      (live.isSuspended = false → ∃ ou ∈ s.ous, ou.id = live.parent ∧
        ∃ top, (∀ other, s.TopAbove ou.id other ↔ other = top) ∧
          (top.id ∈ (Plan.compute i.config i.tree).quarantined.map Target.id →
            top.name = i.config.options.suspendedOu ∨ Overlooked i.config s d ou top)))

section

variable {i : Input} {org : Organization}

/-- The accounts under the root have no identifiers of units. -/
theorem rootAccounts_apart {t : OrgTree} (hread : OrgTree.read org = .ok t)
    (hids : (org.snapshot.ous.map OuNode.id ++ org.snapshot.accounts.map LiveAccount.id).Nodup)
    {node : OuNode} (hnode : node ∈ org.snapshot.ous) :
    ∀ a ∈ t.rootAccounts, a.id ≠ node.id := by
  intro a ha heq
  have hmem := mem_accounts_of_read hread (List.mem_append_left _ ha)
  exact (List.nodup_append.1 hids).2.2 _ (List.mem_map_of_mem hnode) _
    (List.mem_map_of_mem hmem) heq.symm

/-- A workload account whose reference stands for a unit refers to it by its name and not by its
path, if no reference begins with the name of the top-level unit above. -/
theorem bareName_of_unspoken {s : Snapshot} (hs : s.Linked) (hn : s.Named) {c : Configuration}
    {d : Declared} (hd : d ∈ c.accounts) (hworkload : d.isMandatory = false) {ou top : OuNode}
    (hou : ou ∈ s.ous) {ous : List LiveOu} (hstands : StandsFor ous d.entry.path (s.located ou))
    (htop : s.TopAbove ou.id top)
    (hunspoken : ∀ reference ∈ c.declaredPaths, Path.topLevel reference ≠ top.name) :
    d.entry.path = ou.name ∧ d.entry.path ≠ s.pathOf ou := by
  have hcounts := hunspoken _ (Configuration.mem_declaredPaths.2 (.inr ⟨d, hd, hworkload, rfl⟩))
  have hpath : d.entry.path ≠ s.pathOf ou := by
    intro hpath
    rw [hpath, ← hs.pathAt_id hou] at hcounts
    exact hcounts (htop.topLevel_pathAt hs hn)
  exact ⟨(hstands.path_or_name.resolve_left (Ne.symm hpath)).symm, hpath⟩

/-- **Who is matched is governed**, whether the pass is clean or not: above a matched account that
is not suspended there is one top-level unit, and the plan does not quarantine it, unless it is the
unit of suspended accounts or the plan overlooks the account. It overlooks no workload account that
refers to its unit by the path. -/
theorem matched_governed (hs : org.snapshot.Linked) (hn : org.snapshot.Named)
    (hids : (org.snapshot.ous.map OuNode.id ++ org.snapshot.accounts.map LiveAccount.id).Nodup)
    (hread : OrgTree.read org = .ok i.tree) :
    List.Forall₂ (GovernedIfMatched i org.snapshot) i.config.accounts (reconcile i).statuses := by
  have hcharts := charts_of_read hs.ids hread
  rw [reconcile_statuses, List.forall₂_map_right_iff, List.forall₂_same]
  intro d hd
  refine ⟨rfl, fun hmatched => ?_⟩
  obtain ⟨-, liveOu, live, hstands, hlive, hconforms⟩ := accountStatus_eq_matched_iff.1 hmatched
  refine ⟨live, hlive, fun hactive => ?_⟩
  have hmem := hstands.mem
  rw [hcharts.ous] at hmem
  obtain ⟨ou, hou, rfl⟩ := List.mem_map.1 hmem
  have hparent : live.parent = ou.id := by
    unfold conforms at hconforms
    rw [hactive, Bool.false_or, Bool.and_eq_true] at hconforms
    exact beq_iff_eq.1 hconforms.1
  obtain ⟨top, honly⟩ := hs.existsUnique_topAbove hou
  have htop := (honly top).2 rfl
  refine ⟨ou, hou, hparent.symm, top, honly, fun hquarantined => ?_⟩
  have htopLevel := (hs.isTopLevel_located hn htop.mem.1).2 htop.mem.2
  rw [Plan.quarantined_iff hcharts hs.ids htop.mem.1 htopLevel
    (rootAccounts_apart hread hids htop.mem.1), Plan.governs_reasonFor_eq_false] at hquarantined
  refine hquarantined.imp_right ?_
  rintro ⟨hignored, hunspoken⟩
  refine ⟨hignored, hunspoken, ?_⟩
  cases hmandatory : d.isMandatory with
  | true => exact .inl rfl
  | false =>
    exact .inr (bareName_of_unspoken hs hn hd hmandatory hou hstands htop hunspoken)

end

/-! ### A unit below another one -/

/-- Two units right under the root, with a unit below the second one. -/
def threeUnits : List OuNode :=
  [⟨"ou-a", "core", "r-1"⟩, ⟨"ou-b", "Infra", "r-1"⟩, ⟨"ou-c", "Net", "ou-b"⟩]

/-- They have an account in the first unit and one in the last. -/
def twoHoused : Organization where
  snapshot :=
    { root := some ⟨"r-1", "Root"⟩
      ous := threeUnits
      accounts :=
        [⟨"1", "Log", "log@x.org", .active, "ou-a"⟩, ⟨"2", "App", "app@x.org", .active, "ou-c"⟩]
      policies := [] }

/-- The units form a hierarchy, and their names make paths. -/
theorem twoHoused_wellFormed : twoHoused.snapshot.Linked ∧ twoHoused.snapshot.Named := by
  refine ⟨⟨rfl, ?_, by decide, by decide, ?_⟩, ⟨by decide, by decide⟩⟩
  · rintro r ⟨⟩
    rfl
  · exact ⟨fun id => if id = "ou-c" then 1 else 0, by decide⟩

/-- The accounts are declared, the first one as mandatory, beside some units. -/
def declareBoth (ous : List (String × OuEntry)) (app : AccountEntry) : Configuration where
  options := {}
  ous := .ofList ous
  mandatory := .ofList [("log", { name := "Log", email := "log@x.org", ou := "core" })]
  workload := .ofList [("app", app)]

/-- The first unit is declared, and the second account refers to its unit by the path. -/
def byPath : Configuration :=
  declareBoth [("core", {})]
    { name := "App", email := "app@x.org", ou := "Infra", ouPath := some "Infra/Net" }

/-- Both accounts are matched, and nothing is quarantined. -/
theorem matched_governed_by_path :
    twoHoused.snapshot.Linked ∧ twoHoused.snapshot.Named ∧
      (twoHoused.snapshot.ous.map OuNode.id ++
        twoHoused.snapshot.accounts.map LiveAccount.id).Nodup ∧
      ∃ t, OrgTree.read twoHoused = .ok t ∧
        (reconcile { config := byPath, tree := t }).hasFatal = false ∧
        (reconcile { config := byPath, tree := t }).statuses =
          [("log", .matched), ("app", .matched)] ∧
        (Plan.compute byPath t).quarantined = [] ∧
        List.Forall₂ (GovernedIfMatched { config := byPath, tree := t } twoHoused.snapshot)
          byPath.accounts (reconcile { config := byPath, tree := t }).statuses := by
  obtain ⟨hs, hn⟩ := twoHoused_wellFormed
  obtain ⟨t, hread, hclean, hstatuses, hnone⟩ : ∃ t, OrgTree.read twoHoused = .ok t ∧
      (reconcile { config := byPath, tree := t }).hasFatal = false ∧
      (reconcile { config := byPath, tree := t }).statuses =
        [("log", .matched), ("app", .matched)] ∧
      (Plan.compute byPath t).quarantined = [] :=
    ⟨_, rfl, by decide +kernel, by decide +kernel, by decide +kernel⟩
  have hids : (twoHoused.snapshot.ous.map OuNode.id ++
      twoHoused.snapshot.accounts.map LiveAccount.id).Nodup := by decide
  exact ⟨hs, hn, hids, t, hread, hclean, hstatuses, hnone, matched_governed hs hn hids hread⟩

/-- No unit is declared, and the second account refers to its unit by the name. -/
def byName : Configuration := declareBoth [] { name := "App", email := "app@x.org", ou := "Net" }

/-- Nothing is wrong, both accounts are matched and active, but both top-level units above them are
quarantined, and neither is the unit of suspended accounts. -/
theorem matched_quarantined :
    twoHoused.snapshot.Linked ∧ twoHoused.snapshot.Named ∧
      (twoHoused.snapshot.ous.map OuNode.id ++
        twoHoused.snapshot.accounts.map LiveAccount.id).Nodup ∧
      ∃ t, OrgTree.read twoHoused = .ok t ∧
        (reconcile { config := byName, tree := t }).hasFatal = false ∧
        (reconcile { config := byName, tree := t }).statuses =
          [("log", .matched), ("app", .matched)] ∧
        matchAccount? "log@x.org" t.accounts = some ⟨"1", "Log", "log@x.org", .active, "ou-a"⟩ ∧
        matchAccount? "app@x.org" t.accounts = some ⟨"2", "App", "app@x.org", .active, "ou-c"⟩ ∧
        twoHoused.snapshot.TopAbove "ou-a" ⟨"ou-a", "core", "r-1"⟩ ∧
        twoHoused.snapshot.TopAbove "ou-c" ⟨"ou-b", "Infra", "r-1"⟩ ∧
        (Plan.compute byName t).quarantined.map Target.id = ["ou-a", "ou-b"] ∧
        byName.options.suspendedOu = "Suspended" := by
  obtain ⟨hs, hn⟩ := twoHoused_wellFormed
  have htop : twoHoused.snapshot.TopAbove "ou-b" ⟨"ou-b", "Infra", "r-1"⟩ :=
    .self (o := ⟨"ou-b", "Infra", "r-1"⟩) (by decide) rfl
  exact ⟨hs, hn, by decide, _, rfl, by decide +kernel, by decide +kernel, by decide +kernel,
    by decide +kernel, .self (o := ⟨"ou-a", "core", "r-1"⟩) (by decide) rfl,
    .inside (o := ⟨"ou-c", "Net", "ou-b"⟩) (by decide) htop, by decide +kernel, rfl⟩

end OrgAlign.Guard
