import OrgAlign.Proofs.Org.Attachments
import OrgAlign.Proofs.Reconcile.CleanPass

/-!
# A pass over its own records

A clean pass is made again over the same configuration, hierarchy and manifest, after its records
were published. Main statements:

* `WithinLimit.mono`: a target that carries no more than before stays within the limit;
* `Admissible.after`: the second pass is clean, too, where no target carries more than before;
* `accountRecords_after`: and it gives the same records.
-/

namespace OrgAlign.Reconcile

open Config Org

/-! ### Limits -/

/-- A target that carries no other policies than before, but for such as do not count, stays within
the limit. -/
theorem WithinLimit.mono {g : GlobalOptions} {o o' : Organization} {id : String}
    {scps : List String} (h : WithinLimit g o id scps) (hfail : id ∉ o.failing)
    (hids : (o'.snapshot.policies.map AttachedPolicy.id).Nodup)
    (hcarries : ∀ q, countsAgainstLimit g q = true → o'.snapshot.Carries id q →
      o.snapshot.Carries id q) : WithinLimit g o' id scps := by
  intro attached hattached
  obtain ⟨-, rfl⟩ := Organization.policiesFor_eq_ok.1 hattached
  have hbefore := h _ (Organization.policiesFor_eq_ok.2 ⟨hfail, rfl⟩)
  have honce : ((o'.snapshot.policies.filter (·.isOn id)).map AttachedPolicy.policy).Nodup := by
    refine List.Nodup.sublist (List.filter_sublist.map AttachedPolicy.policy) ?_
    exact List.Nodup.of_map Policy.id (by rwa [List.map_map])
  have hfewer : ((o'.snapshot.policies.filter (·.isOn id)).map AttachedPolicy.policy).filter
      (countsAgainstLimit g) ⊆
        ((o.snapshot.policies.filter (·.isOn id)).map AttachedPolicy.policy).filter
          (countsAgainstLimit g) := by
    intro q hq
    obtain ⟨hq, hcounts⟩ := List.mem_filter.1 hq
    exact List.mem_filter.2 ⟨Organization.mem_policiesFor.2
      (hcarries q hcounts (Organization.mem_policiesFor.1 hq)), hcounts⟩
  have hlength := (List.subperm_of_subset (honce.filter (countsAgainstLimit g)) hfewer).length_le
  omega

/-! ### Records -/

variable {i : Input} {state : PublishedState} {o : Organization} {d : Declared}

/-- The input of a pass with its records published, and the organization it leaves. -/
def Input.after (i : Input) (state : PublishedState) (o : Organization) : Input :=
  { i with previous := some state, policies := some o }

/-- An account that is not live has no identifier in the records. -/
theorem recorded?_of_records (hkeys : (i.config.accounts.map Declared.key).Nodup)
    (hstate : state.accounts = accountRecords i) (hd : d ∈ i.config.accounts)
    (hnone : matchAccount? d.entry.email i.tree.accounts = none) :
    recorded? (some state) d.key = none := by
  rw [recorded?_eq_none]
  rintro _ before ⟨⟩ hbefore
  have hmem := List.mem_of_find?_eq_some hbefore
  have hkey : before.key = d.key := by simpa using List.find?_some hbefore
  rw [hstate] at hmem
  obtain ⟨e, he, hrecord⟩ := List.mem_filterMap.1 hmem
  have hstands := accountRecord?_stands hrecord
  obtain rfl : e = d := by
    refine List.inj_on_of_nodup_map hkeys he hd ?_
    rw [← hkey, hstands.declared]
    rfl
  cases hid : before.cloudId with
  | none => rfl
  | some id =>
    obtain ⟨live, hlive, -, hemail, -⟩ := hstands.live id hid
    have hno := matchAccount?_eq_none.1 hnone live hlive
    exact absurd (by simpa [Text.sameIgnoringCase] using hemail) hno

/-- An account gets the same record again. -/
theorem accountRecord?_after (h : (accountRecord? i d).isSome = true)
    (hnone : matchAccount? d.entry.email i.tree.accounts = none →
      recorded? (some state) d.key = none) :
    accountRecord? (i.after state o) d = accountRecord? i d := by
  obtain ⟨a, ha⟩ := Option.isSome_iff_exists.1 h
  rw [ha]
  unfold accountRecord? at ha ⊢
  split at ha
  · cases ha
  · rename_i hignored
    obtain ⟨ou, hou, ha⟩ := Option.bind_eq_some_iff.1 ha
    have hignored' : ¬ (i.after state o).config.options.isIgnored (Path.topLevel d.entry.path) =
      true := hignored
    have hou' : (matchOu d.entry.path (i.after state o).tree.ous).ou? = some ou := hou
    rw [if_neg hignored', hou', Option.bind_some]
    split at ha
    · rename_i hlive
      have hlive' : matchAccount? d.entry.email (i.after state o).tree.accounts = none := hlive
      have hrecorded : recorded? (i.after state o).previous d.key = none := hnone hlive
      split at ha
      · rename_i hcond
        rw [Bool.and_eq_true] at hcond
        simp only [hlive', hrecorded, hcond.2, Option.isNone_none, Bool.and_true, if_true]
        exact ha
      · cases ha
    · rename_i live hlive
      have hlive' : matchAccount? d.entry.email (i.after state o).tree.accounts = some live :=
        hlive
      simp only [hlive']
      exact ha

section

variable (h : Admissible nothing i) (hkeys : (i.config.accounts.map Declared.key).Nodup)
  (hstate : state.accounts = accountRecords i)

include h hkeys hstate

/-- All accounts get the same records again. -/
theorem accountRecords_after : accountRecords (i.after state o) = accountRecords i := by
  refine List.filterMap_congr fun d hd => ?_
  exact accountRecord?_after (accountRecord?_isSome_iff.2 (h.accounts d hd))
    fun hnone => recorded?_of_records hkeys hstate hd hnone

/-- **A clean pass stays clean** over its own records, where no target carries more policies than
before. -/
theorem Admissible.after {before : Organization} (hpolicies : i.policies = some before)
    (hlimits : ∀ id scps, WithinLimit i.config.options before id scps →
      WithinLimit i.config.options o id scps) : Admissible nothing (i.after state o) := by
  have hrecords : accountRecords (i.after state o) = accountRecords i :=
    accountRecords_after h hkeys hstate
  refine ⟨h.emails, h.units, fun d hd => ?_, fun o' ho' t ht => ?_, fun m hm => ?_⟩
  · have hrecord := accountRecord?_after (o := o) (accountRecord?_isSome_iff.2 (h.accounts d hd))
      fun hnone => recorded?_of_records hkeys hstate hd hnone
    rw [← accountRecord?_isSome_iff, hrecord]
    exact accountRecord?_isSome_iff.2 (h.accounts d hd)
  · cases ho'
    have htally : tally (i.after state o) = tally i := by
      unfold tally
      rw [hrecords]
      rfl
    rw [htally] at ht
    exact .inl (hlimits t.id t.scps ((h.limits before hpolicies t ht).resolve_right id))
  · have hmanifest := h.manifest m hm
    rw [hrecords]
    exact ⟨hmanifest.names, hmanifest.live, hmanifest.units, hmanifest.roles⟩

end

end OrgAlign.Reconcile
