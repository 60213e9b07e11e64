import OrgAlign.Proofs.Drift.Amendment
import OrgAlign.Proofs.Org.InStep
import OrgAlign.Proofs.Reconcile.CleanPass

/-!
# Following what was only just recorded

The records of a clean pass show the hierarchy as it is, so nothing was renamed since. Main
statements:

* `renamed?_of_stands`: no account of the records was renamed;
* `path_of_stands`: every unit of the records is where it was;
* `detect_records`: the configuration needs no amendment, if all suspended accounts are marked.
-/

namespace OrgAlign.Drift

open Config Org Reconcile

/-- An account of the records was not renamed. -/
theorem renamed?_of_stands {i : Input} {d : Declared} {a : CanonicalAccount}
    (h : AccountStands i d a) (hids : (i.tree.accounts.map LiveAccount.id).Nodup) :
    renamed? i.tree a = none := by
  unfold renamed?
  cases hid : a.cloudId with
  | none => rfl
  | some id =>
    obtain ⟨live, hlive, rfl, hemail, hfits⟩ := h.live id hid
    have hfind : i.tree.accountById? live.id = some live := find?_of_nodup hids hlive
    have hbefore : a.email = d.entry.email ∧ a.name = d.entry.name ∧ a.role = d.entry.role := by
      rw [h.declared]
      exact ⟨rfl, rfl, rfl⟩
    obtain ⟨hsame, hname, hrole⟩ := hbefore
    rw [Option.bind_some, hfind, Option.bind_some]
    refine if_pos ?_
    rw [Bool.or_eq_true]
    rcases hfits with hsuspended | ⟨ou, s, -, -, hnamed⟩
    · exact .inl hsuspended
    · refine .inr (Bool.and_eq_true_iff.2 ⟨?_, hsame ▸ hemail⟩)
      unfold keepsName
      rw [hrole, hname]
      by_cases hprimary : d.entry.role = some .primary
      · simp [hprimary]
      · simp [hnamed hprimary]

/-- A unit of the records is where it was. -/
theorem path_of_stands {s : Snapshot} {t : OrgTree} {reference : String} {o : CanonicalOu}
    (h : UnitStands t reference o) (hstep : InStep s t) (hs : s.Rooted) {live : LiveOu}
    (hlive : t.ouById? o.id = some live) : live.path = o.path := by
  obtain ⟨ou, -, -, hstands, rfl⟩ := h
  obtain ⟨hin, hid⟩ := (hstep.charts.ouById?_eq_some hs.linked).1 hlive
  rw [List.inj_on_of_nodup_map (hstep.charts.map_id_ous hs.ids) hin hstands.mem hid]

/-- **Nothing is amended after the records of a clean pass**, where every suspended account is
marked. -/
theorem detect_records {i : Input} {s : Snapshot} (hstep : InStep s i.tree) (hs : s.Rooted)
    (hhoused : s.Housed) {state : PublishedState} (haccounts : state.accounts = accountRecords i)
    (hous : state.ous = unitRecords i) {w : Workspace}
    (hmarked : ∀ a ∈ i.tree.accounts, a.isSuspended = true → ∀ d,
      w.merged.accountByEmail? a.email = some d → Marked w d.key a) :
    detect i.tree (some state) w = (none, ⟨w, []⟩) := by
  refine detect_silent (fun before hbefore => ?_) hmarked fun before hbefore live hlive => ?_
  · rw [haccounts] at hbefore
    obtain ⟨d, -, hrecord⟩ := List.mem_filterMap.1 hbefore
    exact renamed?_of_stands (accountRecord?_stands hrecord) (hstep.nodup_accounts hhoused)
  · rw [hous] at hbefore
    obtain ⟨r, -, hrecord⟩ := List.mem_filterMap.1 hbefore
    exact path_of_stands (unitRecord?_stands hrecord) hstep hs hlive

end OrgAlign.Drift
