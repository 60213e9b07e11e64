import OrgAlign.Proofs.Guard.Report

/-!
# Targets that are made to fail

Which targets carry the quarantine policy is looked up before anything changes, and what is done at
one target touches no other. So a target that is made to fail stays as it is and is missing from the
report, and nothing else differs. Main statements:

* `Isolated`: what two runs of enforcement have in common, one of which is made to fail somewhere;
* `isolated_of_enforceWith`: any two such runs have it;
* `enforce_isolates`: all of enforcement.
-/

namespace OrgAlign.Guard

open Config Org Snapshot Enforcement

/-- Of two runs of enforcement that start at the same organization, the hampered one differs from
the free one at the subjects that are made to fail, and there alone. -/
structure Isolated (failing : List String) (p : Plan) (o : Organization)
    (free hampered : Enforcement) : Prop where
  /-- Everything else carries the same policies after both runs. -/
  outside : ∀ id, id ∉ failing → ∀ q,
    hampered.org.snapshot.Carries id q ↔ free.org.snapshot.Carries id q
  /-- What is made to fail carries what it carried before. -/
  inside : ∀ id, id ∈ failing → ∀ q,
    hampered.org.snapshot.Carries id q ↔ o.snapshot.Carries id q
  /-- Nothing but attachments changed in the free run. -/
  rearranged : Rearranged o.snapshot free.org.snapshot
  /-- Nothing but attachments changed in the hampered run. -/
  hamperedRearranged : Rearranged o.snapshot hampered.org.snapshot
  /-- The free run lists what each target gained, one target after the other. -/
  attached : free.report.attached = p.targets.flatMap (added o.snapshot free.org.snapshot)
  /-- The hampered one lists the same of the targets that are not made to fail. -/
  hamperedAttached : hampered.report.attached =
    (p.targets.filter (·.id ∉ failing)).flatMap (added o.snapshot free.org.snapshot)
  /-- The free run lists what each target lost, one target after the other. -/
  detached : free.report.detached = p.targets.flatMap (added free.org.snapshot o.snapshot)
  /-- The hampered one lists the same of the targets that are not made to fail. -/
  hamperedDetached : hampered.report.detached =
    (p.targets.filter (·.id ∉ failing)).flatMap (added free.org.snapshot o.snapshot)
  /-- Nothing fails in the free run. -/
  failures : free.report.failures = []

variable {c : Configuration} {quarantine : Policy} {p : Plan} {o : Organization}
  {failing : List String} {free hampered : Enforcement}

/-- What is listed of some targets alone is what is listed of all, if the others have nothing
listed. -/
theorem flatMap_targets_eq {f g : Target → List (String × String)} {ts : List Target}
    (hin : ∀ t ∈ ts, t.id ∈ failing → f t = []) (hout : ∀ t ∈ ts, t.id ∉ failing → f t = g t) :
    ts.flatMap f = (ts.filter (·.id ∉ failing)).flatMap g := by
  induction ts with
  | nil => rfl
  | cons t ts ih =>
    rw [List.forall_mem_cons] at hin hout
    rw [List.flatMap_cons, ih hin.2 hout.2]
    by_cases hfail : t.id ∈ failing
    · rw [hin.1 hfail, List.nil_append, List.filter_cons_of_neg (by simpa using hfail)]
    · rw [hout.1 hfail, List.filter_cons_of_pos (by simpa using hfail), List.flatMap_cons]

/-- Two runs with the same quarantine policy differ at what is made to fail alone. -/
theorem isolated_of_enforceWith
    (hfree : enforceWith c quarantine p { o with failing := [] } = .ok free)
    (hhampered : enforceWith c quarantine p { o with failing } = .ok hampered)
    (hids : (o.snapshot.policies.map AttachedPolicy.id).Nodup)
    (hquarantine : quarantine ∈ o.snapshot.catalog)
    (htargets : ∀ t ∈ p.targets, o.snapshot.isTarget t.id = true)
    (honce : (p.targets.map Target.id).Nodup) : Isolated failing p o free hampered := by
  obtain ⟨harranged, houtside, hinside⟩ := enforceWith_carries hfree hids hquarantine htargets honce
  obtain ⟨harranged', houtside', hinside'⟩ :=
    enforceWith_carries hhampered hids hquarantine htargets honce
  have hreport := enforceWith_reported hfree hids hquarantine htargets honce
  have hreport' := enforceWith_reported hhampered hids hquarantine htargets honce
  -- a target of the plan gets its due in both runs, and anything else is left alone in both
  have hout : ∀ id, id ∉ failing → ∀ q,
      hampered.org.snapshot.Carries id q ↔ free.org.snapshot.Carries id q := by
    intro id hid q
    by_cases hnamed : id ∈ p.targets.map Target.id
    · obtain ⟨t, ht, rfl⟩ := List.mem_map.1 hnamed
      rw [hinside t ht, hinside' t ht, if_pos hid, if_pos List.not_mem_nil]
    · rw [houtside id hnamed, houtside' id hnamed]
  have hin : ∀ id, id ∈ failing → ∀ q,
      hampered.org.snapshot.Carries id q ↔ o.snapshot.Carries id q := by
    intro id hid q
    by_cases hnamed : id ∈ p.targets.map Target.id
    · obtain ⟨t, ht, rfl⟩ := List.mem_map.1 hnamed
      rw [hinside' t ht, if_neg fun hnot => hnot hid]
    · rw [houtside' id hnamed]
  have hcatalog : hampered.org.snapshot.catalog = free.org.snapshot.catalog :=
    harranged'.catalog.trans harranged.catalog.symm
  refine ⟨hout, hin, harranged, harranged', hreport.attached, ?_, hreport.detached, ?_,
    hreport.failures fun _ _ => List.not_mem_nil⟩
  · refine hreport'.attached.trans (flatMap_targets_eq (fun t _ hfail => ?_) fun t _ hfail => ?_)
    · exact added_eq_nil fun q => (hin t.id hfail q).1
    · exact added_congr hcatalog (fun _ => Iff.rfl) (hout t.id hfail)
  · refine hreport'.detached.trans (flatMap_targets_eq (fun t _ hfail => ?_) fun t _ hfail => ?_)
    · exact added_eq_nil fun q => (hin t.id hfail q).2
    · exact added_congr rfl (hout t.id hfail) fun _ => Iff.rfl

/-- Enforcement starts whatever is made to fail. -/
theorem exists_enforce (p : Plan) (failing : List String)
    (hids : (o.snapshot.policies.map AttachedPolicy.id).Nodup)
    (hfound : quarantinePolicy c o = .ok quarantine) :
    ∃ e, enforce c p { o with failing } = .ok e ∧
      enforceWith c quarantine p { o with failing } = .ok e := by
  obtain ⟨e, hstarts⟩ :=
    exists_enforceWith (o := { o with failing }) c p hids (quarantinePolicy_eq_ok hfound).1
  have hsame : quarantinePolicy c { o with failing } = .ok quarantine :=
    (quarantinePolicy_congr rfl).trans hfound
  refine ⟨e, ?_, hstarts⟩
  unfold enforce
  rw [hsame]
  exact hstarts

/-- **A target that is made to fail does not disturb the others.** In an organization whose root,
units, accounts and policies have identifiers of their own, whose accounts have parents and which
has the quarantine policy, every plan for its hierarchy is carried through whatever is made to fail:
what is made to fail stays as it is and is missing from the report, and all else ends as if nothing
failed. -/
theorem enforce_isolates (c planned : Configuration) (o : Organization) (failing : List String)
    (hroot : o.snapshot.root.isSome = true)
    (htargets : (o.snapshot.root.toList.map Root.id ++ o.snapshot.ous.map OuNode.id ++
      o.snapshot.accounts.map LiveAccount.id).Nodup)
    (hparents : ∀ a ∈ o.snapshot.accounts, o.snapshot.isParent a.parent = true)
    (hids : (o.snapshot.policies.map AttachedPolicy.id).Nodup)
    (hpresent : ∃ q ∈ o.snapshot.catalog, q.name = c.options.quarantinePolicy) :
    ∃ t free hampered, OrgTree.read o = .ok t ∧
      enforce c (Plan.compute planned t) { o with failing := [] } = .ok free ∧
      enforce c (Plan.compute planned t) { o with failing } = .ok hampered ∧
      Isolated failing (Plan.compute planned t) o free hampered := by
  obtain ⟨t, hread, -, hplan⟩ := Plan.exists_read hroot htargets hparents
  obtain ⟨hthere, honce⟩ := hplan planned
  obtain ⟨quarantine, hfound⟩ := exists_quarantinePolicy hpresent
  obtain ⟨free, hfree, hfreeWith⟩ := exists_enforce (Plan.compute planned t) [] hids hfound
  obtain ⟨hampered, hhampered, hhamperedWith⟩ :=
    exists_enforce (Plan.compute planned t) failing hids hfound
  exact ⟨t, free, hampered, hread, hfree, hhampered,
    isolated_of_enforceWith hfreeWith hhamperedWith hids (quarantinePolicy_eq_ok hfound).1 hthere
      honce⟩

/-- The undeclared unit keeps the policies that it would lose, and the others get their due. -/
theorem enforce_isolates_mixed_targets :
    mixedTargets.snapshot.root.isSome = true ∧
      (mixedTargets.snapshot.root.toList.map Root.id ++ mixedTargets.snapshot.ous.map OuNode.id ++
        mixedTargets.snapshot.accounts.map LiveAccount.id).Nodup ∧
      (∀ a ∈ mixedTargets.snapshot.accounts, mixedTargets.snapshot.isParent a.parent = true) ∧
      (mixedTargets.snapshot.policies.map AttachedPolicy.id).Nodup ∧
      (∃ q ∈ mixedTargets.snapshot.catalog, q.name = coreAndSandbox.options.quarantinePolicy) ∧
      ∃ t free hampered, OrgTree.read mixedTargets = .ok t ∧
        enforce coreAndSandbox (Plan.compute coreAndSandbox t) { mixedTargets with failing := [] } =
          .ok free ∧
        enforce coreAndSandbox (Plan.compute coreAndSandbox t)
          { mixedTargets with failing := ["ou-2"] } = .ok hampered ∧
        hampered.org.snapshot.Carries "ou-2" ⟨"p-x", "Guardrails"⟩ ∧
        ¬ hampered.org.snapshot.Carries "ou-1" ⟨"p-q", "Quarantine-New-Object"⟩ ∧
        hampered.report.attached = [("Quarantine-New-Object", "Stray")] := by
  have htargets : (mixedTargets.snapshot.root.toList.map Root.id ++
      mixedTargets.snapshot.ous.map OuNode.id ++
      mixedTargets.snapshot.accounts.map LiveAccount.id).Nodup := by decide
  have hparents : ∀ a ∈ mixedTargets.snapshot.accounts,
      mixedTargets.snapshot.isParent a.parent = true := by decide
  have hids : (mixedTargets.snapshot.policies.map AttachedPolicy.id).Nodup := by decide
  have hpresent : ∃ q ∈ mixedTargets.snapshot.catalog,
      q.name = coreAndSandbox.options.quarantinePolicy := by decide
  obtain ⟨t, free, hampered, hread, hfree, hhampered, h⟩ :=
    enforce_isolates coreAndSandbox coreAndSandbox mixedTargets ["ou-2"] rfl htargets hparents hids
      hpresent
  obtain ⟨t', free', hread', hfree', hgone, hgained⟩ : ∃ t free, OrgTree.read mixedTargets = .ok t ∧
      enforce coreAndSandbox (Plan.compute coreAndSandbox t) { mixedTargets with failing := [] } =
        .ok free ∧
      ¬ free.org.snapshot.Carries "ou-1" ⟨"p-q", "Quarantine-New-Object"⟩ ∧
      ((Plan.compute coreAndSandbox t).targets.filter (·.id ∉ ["ou-2"])).flatMap
        (added mixedTargets.snapshot free.org.snapshot) = [("Quarantine-New-Object", "Stray")] :=
    ⟨_, _, rfl, rfl, by decide +kernel, by decide +kernel⟩
  obtain rfl : t' = t := Except.ok.inj (hread'.symm.trans hread)
  obtain rfl : free' = free := Except.ok.inj (hfree'.symm.trans hfree)
  refine ⟨rfl, htargets, hparents, hids, hpresent, t', free', hampered, hread, hfree, hhampered, ?_,
    ?_, h.hamperedAttached.trans hgained⟩
  · exact (h.inside "ou-2" (by decide) _).2 (by decide +kernel)
  · exact mt (h.outside "ou-1" (by decide) _).1 hgone

end OrgAlign.Guard
