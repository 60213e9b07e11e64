import OrgAlign.Proofs.Guard.Outcome
import OrgAlign.Proofs.Guard.Plan
import OrgAlign.Proofs.Org.Mutations
import OrgAlign.Proofs.Reconcile.Kinds
import OrgAlign.Proofs.Reconcile.Repeated

/-!
# Enforcement and policy limits

A pass counts policies by name on the targets that are declared, enforcement attaches and detaches
them by identifier on the targets of its plan. The one policy that it attaches does not count. Main
statements:

* `raises_iff`: for which units and accounts a pass says that there are too many policies;
* `countsAlike_foldl_perform`: attaching and detaching policies that do not count leaves the counts;
* `CountsAlike.reconcile_eq`: organizations with the same counts give the same pass;
* `withinLimit_of_enforceWith`: enforcement leaves targets within the limit that were;
* `enforce_keeps_limits`: enforcement never makes a pass complain of more units or accounts.
-/

namespace OrgAlign.Org

open Config

/-- The call attaches or detaches a policy, and what has its identifier has the name of the
quarantine policy or of one that the options list. -/
def Call.Spares (g : GlobalOptions) (s : Snapshot) (c : Call) : Prop :=
  ∃ policy target, (c = .attachPolicy policy target ∨ c = .detachPolicy policy target) ∧
    ∀ p ∈ s.catalog, p.id = policy → p.name = g.quarantinePolicy ∨ p.name ∈ g.scps

/-- Whether a call is one of those shows in the policies, not in what they are attached to. -/
theorem Call.Spares.congr {g : GlobalOptions} {s s' : Snapshot} {c : Call} (h : c.Spares g s)
    (hcatalog : s'.catalog = s.catalog) : c.Spares g s' := by
  unfold Spares
  rw [hcatalog]
  exact h

end OrgAlign.Org

namespace OrgAlign.Reconcile

open Config Org Finding

/-! ### Complaints about limits -/

/-- What the targets that are counted are called in messages. -/
def limitLabels : List String := ["OU", "Account"]

theorem label_mem_of_mem_limitTargets {c : Configuration} {p : Pass} {t : LimitTarget}
    (h : t ∈ limitTargets c p) : t.label ∈ limitLabels := by
  unfold limitTargets at h
  rcases List.mem_append.1 h with h | h
  · obtain ⟨e, -, he⟩ := List.mem_filterMap.1 h
    obtain ⟨o, -, rfl⟩ := Option.map_eq_some_iff.1 he
    exact List.mem_cons_self
  · obtain ⟨d, -, hd⟩ := List.mem_filterMap.1 h
    obtain ⟨id, -, rfl⟩ := Option.map_eq_some_iff.1 hd
    exact List.mem_cons_of_mem _ (List.mem_singleton_self _)

/-- A pass says that a unit or an account of a key has too many policies. -/
def Raises (r : Reconciliation) (label key : String) : Prop :=
  ∃ f ∈ r.findings, f.kind = .policyLimitExceeded ∧ f.subject = key ∧
    ∃ rest, f.message = "Max Allowed SCPs for " ++ label ++ " \"" ++ key ++ "\" is " ++ rest

/-- The label can be told from the message. -/
theorem label_eq_of_message {label label' key key' rest rest' : String} (h : label ∈ limitLabels)
    (h' : label' ∈ limitLabels)
    (hmessage : "Max Allowed SCPs for " ++ label ++ " \"" ++ key ++ "\" is " ++ rest =
      "Max Allowed SCPs for " ++ label' ++ " \"" ++ key' ++ "\" is " ++ rest') :
    label = label' := by
  -- the labels differ in their first characters
  have hstart := congrArg (fun text => text.toList.take 22) hmessage
  simp only [limitLabels, List.mem_cons, List.not_mem_nil, or_false] at h h'
  rcases h with rfl | rfl <;> rcases h' with rfl | rfl
  · rfl
  · simp [String.toList_append] at hstart
  · simp [String.toList_append] at hstart
  · rfl

variable {i : Input} {g : GlobalOptions} {o o' : Organization}

/-- **A pass complains of a unit or an account iff a declared target of its key is over the
limit.** -/
theorem raises_iff {label key : String} (hlabel : label ∈ limitLabels) :
    Raises (reconcile i) label key ↔ ∃ o, i.policies = some o ∧
      ∃ t ∈ limitTargets i.config (tally i), t.label = label ∧ t.key = key ∧
        ¬ WithinLimit i.config.options o t.id t.scps := by
  have hmem : ∀ f, f ∈ overLimits i ↔ ∃ o, i.policies = some o ∧
      ∃ t ∈ limitTargets i.config (tally i), overLimit? i.config.options o t = some f := by
    intro f
    unfold overLimits
    cases i.policies with
    | none => simp
    | some o => simp
  constructor
  · rintro ⟨f, hf, hkind, hsubject, rest, hmessage⟩
    have hover : f ∈ overLimits i := by
      rw [← ofKind_policyLimitExceeded]
      exact mem_ofKind.2 ⟨hf, hkind⟩
    obtain ⟨o, ho, t, ht, hsome⟩ := (hmem f).1 hover
    obtain ⟨-, -, hkey, rest', hmessage'⟩ := overLimit?_eq_some hsome
    refine ⟨o, ho, t, ht, ?_, hkey.symm.trans hsubject, ?_⟩
    · exact label_eq_of_message (label_mem_of_mem_limitTargets ht) hlabel
        (hmessage'.symm.trans hmessage)
    · apply overLimit?_isSome_iff.1
      rw [hsome]
      rfl
  · rintro ⟨o, ho, t, ht, rfl, rfl, hlimit⟩
    obtain ⟨f, hsome⟩ := Option.isSome_iff_exists.1 (overLimit?_isSome_iff.2 hlimit)
    obtain ⟨hkind, -, hsubject, hmessage⟩ := overLimit?_eq_some hsome
    have hf : f ∈ ofKind .policyLimitExceeded (reconcile i).findings := by
      rw [ofKind_policyLimitExceeded]
      exact (hmem f).2 ⟨o, ho, t, ht, hsome⟩
    exact ⟨f, (mem_ofKind.1 hf).1, hkind, hsubject, hmessage⟩

/-- Where all targets that were within the limit still are, a pass complains of no more. -/
theorem raises_mono (i : Input)
    (hlimits : ∀ id scps, WithinLimit i.config.options o id scps →
      WithinLimit i.config.options o' id scps) {label key : String} (hlabel : label ∈ limitLabels)
    (h : Raises (reconcile { i with policies := some o' }) label key) :
    Raises (reconcile { i with policies := some o }) label key := by
  rw [raises_iff hlabel] at h ⊢
  obtain ⟨_, ⟨⟩, t, ht, hlabel', hkey, hover⟩ := h
  exact ⟨o, rfl, t, ht, hlabel', hkey, fun hwithin => hover (hlimits t.id t.scps hwithin)⟩

/-! ### Counts -/

theorem countsAgainstLimit_eq_false {p : Policy} : countsAgainstLimit g p = false ↔
    p.name = g.quarantinePolicy ∨ p.name ∈ g.scps := by
  unfold countsAgainstLimit GlobalOptions.managesPolicy
  by_cases hname : p.name = g.quarantinePolicy <;> simp [hname]

/-- The policies on a target that count against its limit. -/
def counted (g : GlobalOptions) (s : Snapshot) (id : String) : List Policy :=
  s.policies.filterMap fun p =>
    if p.isOn id && countsAgainstLimit g p.policy then some p.policy else none

theorem filter_policiesFor (g : GlobalOptions) (s : Snapshot) (id : String) :
    ((s.policies.filter (·.isOn id)).map AttachedPolicy.policy).filter (countsAgainstLimit g) =
      counted g s id := by
  unfold counted
  induction s.policies with
  | nil => rfl
  | cons p ps ih =>
    cases hon : p.isOn id <;> cases hcounts : countsAgainstLimit g p.policy <;>
      simp [hon, hcounts, ih]

/-- Two organizations have the same policies and fail alike, and the same ones of them count on
every target. -/
structure CountsAlike (g : GlobalOptions) (o o' : Organization) : Prop where
  /-- The policies are the same. -/
  catalog : o'.snapshot.catalog = o.snapshot.catalog
  /-- The same subjects are made to fail. -/
  failing : o'.failing = o.failing
  /-- The same policies count. -/
  counts : ∀ id, counted g o'.snapshot id = counted g o.snapshot id

namespace CountsAlike

variable {o'' : Organization}

theorem refl (o : Organization) : CountsAlike g o o := ⟨rfl, rfl, fun _ => rfl⟩

theorem trans (h : CountsAlike g o o') (h' : CountsAlike g o' o'') : CountsAlike g o o'' :=
  ⟨h'.catalog.trans h.catalog, h'.failing.trans h.failing,
    fun id => (h'.counts id).trans (h.counts id)⟩

/-- Counting gives the same. -/
theorem checkLimit_eq (h : CountsAlike g o o') (p : Pass) (t : LimitTarget) :
    checkLimit g o' p t = checkLimit g o p t := by
  have hunavailable : o'.unavailable? .listPoliciesForTarget [t.id] =
      o.unavailable? .listPoliciesForTarget [t.id] := by
    unfold Organization.unavailable?
    rw [h.failing]
  unfold checkLimit Organization.policiesFor
  rw [hunavailable]
  cases o.unavailable? .listPoliciesForTarget [t.id] with
  | some e => rfl
  | none =>
    simp only
    rw [filter_policiesFor, filter_policiesFor, h.counts]

/-- **The whole pass gives the same.** -/
theorem reconcile_eq (i : Input) (h : CountsAlike i.config.options o o') :
    reconcile { i with policies := some o' } = reconcile { i with policies := some o } := by
  have hlimits : ∀ p : Pass, checkLimits { i with policies := some o' } p =
      checkLimits { i with policies := some o } p := by
    intro p
    have hstep : checkLimit i.config.options o' = checkLimit i.config.options o := by
      funext q t
      exact h.checkLimit_eq q t
    show (limitTargets i.config p).foldl (checkLimit i.config.options o') p =
      (limitTargets i.config p).foldl (checkLimit i.config.options o) p
    rw [hstep]
  have hcollected : collected { i with policies := some o' } =
      collected { i with policies := some o } :=
    congrArg (fun p => reconcileManifest i (reportUnmanaged i p)) (hlimits _)
  unfold reconcile
  rw [hcollected]

end CountsAlike

/-! ### Calls -/

/-- What is done to the targets of a policy that does not count is not noticed. -/
theorem counted_retarget {s : Snapshot} {policy : String}
    (hspares : ∀ p ∈ s.catalog, p.id = policy → countsAgainstLimit g p = false)
    (f : List String → List String) (id : String) :
    counted g (s.retarget policy f) id = counted g s id := by
  unfold counted Snapshot.retarget
  rw [List.filterMap_map]
  apply List.filterMap_congr
  intro p hp
  rw [Function.comp_apply]
  split
  · rename_i hid
    have hnot : countsAgainstLimit g p.policy = false :=
      hspares p.policy (List.mem_map_of_mem hp) hid
    have hnot' : countsAgainstLimit g ({ p with targets := f p.targets } : AttachedPolicy).policy =
        false := hnot
    rw [hnot, hnot', Bool.and_false, Bool.and_false]
    rfl
  · rfl

/-- Attaching or detaching a policy that does not count leaves the counts. -/
theorem countsAlike_perform (hids : (o.snapshot.policies.map AttachedPolicy.id).Nodup) {c : Call}
    (hc : c.Spares g o.snapshot) : CountsAlike g o (o.perform c) := by
  obtain ⟨policy, target, hcall, hspares⟩ := hc
  have hnot : ∀ p ∈ o.snapshot.catalog, p.id = policy → countsAgainstLimit g p = false :=
    fun p hp hid => countsAgainstLimit_eq_false.2 (hspares p hp hid)
  have hdone : (o.perform c).snapshot = o.snapshot ∨
      ∃ f, (o.perform c).snapshot = o.snapshot.retarget policy f := by
    rcases hcall with rfl | rfl
    · have hcases := Organization.snapshot_perform_cases (answers_attachPolicy hids policy target)
      exact hcases.imp_right fun ⟨_, _, h⟩ => ⟨_, h⟩
    · have hcases := Organization.snapshot_perform_cases (answers_detachPolicy hids policy target)
      exact hcases.imp_right fun ⟨_, _, h⟩ => ⟨_, h⟩
  have hfailing : (o.perform c).failing = o.failing :=
    (Issued.perform o c).failing_eq
  rcases hdone with hsame | ⟨f, hchanged⟩
  · refine ⟨?_, hfailing, ?_⟩
    · rw [hsame]
    · intro id
      rw [hsame]
  · refine ⟨?_, hfailing, ?_⟩
    · rw [hchanged]
      exact (Snapshot.rearranged_retarget _ _ _).catalog
    · intro id
      rw [hchanged, counted_retarget hnot]

/-- **So do all such calls**, one after the other. -/
theorem countsAlike_foldl_perform (hids : (o.snapshot.policies.map AttachedPolicy.id).Nodup)
    {calls : List Call} (hcalls : ∀ c ∈ calls, c.Spares g o.snapshot) :
    CountsAlike g o (calls.foldl Organization.perform o) := by
  refine foldl_keeps_of_mem (CountsAlike g o) ?_ o (CountsAlike.refl o)
  intro q c hc hq
  apply hq.trans
  apply countsAlike_perform
  · rw [← Snapshot.map_id_catalog, hq.catalog, Snapshot.map_id_catalog]
    exact hids
  · exact (hcalls c hc).congr hq.catalog

end OrgAlign.Reconcile

namespace OrgAlign.Guard

open Config Org Reconcile

/-! ### Enforcement -/

/-- Enforcement leaves every target within the limit that was: what it attaches does not count. -/
theorem withinLimit_of_enforceWith {c : Configuration} {quarantine : Policy} {p : Plan}
    {o : Organization} {e : Enforcement} (h : enforceWith c quarantine p o = .ok e)
    (hquarantine : quarantinePolicy c o = .ok quarantine)
    (hids : (o.snapshot.policies.map AttachedPolicy.id).Nodup)
    (htargets : ∀ t ∈ p.targets, o.snapshot.isTarget t.id = true)
    (honce : (p.targets.map Target.id).Nodup) {id : String} {scps : List String}
    (hlimit : WithinLimit c.options o id scps) : WithinLimit c.options e.org id scps := by
  obtain ⟨hpresent, hname⟩ := quarantinePolicy_eq_ok hquarantine
  have hfailing : e.org.failing = o.failing := (issued_enforceWith h).failing_eq
  by_cases hfail : id ∈ o.failing
  · -- the policies of such a target cannot be listed
    intro attached hattached
    rw [← hfailing] at hfail
    exact absurd hfail (Organization.policiesFor_eq_ok.1 hattached).1
  · refine hlimit.mono hfail ((enforceWith_rearranged h).policyIds hids) ?_
    intro q hcounts hcarries
    rcases carries_of_enforceWith h hids hpresent htargets honce hcarries with hbefore | rfl
    · exact hbefore
    · rw [countsAgainstLimit_eq_false.2 (.inl hname)] at hcounts
      cases hcounts

/-- **Enforcement never breaks the check of policy limits.** With the hierarchy that is read from an
organization whose targets and policies have identifiers of their own, whatever is made to fail, a
pass after enforcement complains of no unit and no account of which the pass before did not; and
attaching or detaching the quarantine policy or policies that the options list changes nothing in a
pass. -/
theorem enforce_keeps_limits (c : Configuration) (o : Organization)
    (hroot : o.snapshot.root.isSome = true)
    (htargets : (o.snapshot.root.toList.map Root.id ++ o.snapshot.ous.map OuNode.id ++
      o.snapshot.accounts.map LiveAccount.id).Nodup)
    (hparents : ∀ a ∈ o.snapshot.accounts, o.snapshot.isParent a.parent = true)
    (hids : (o.snapshot.policies.map AttachedPolicy.id).Nodup) :
    ∃ t, OrgTree.read o = .ok t ∧
      (∀ e, enforce c (Plan.compute c t) o = .ok e →
        e.org.failing = o.failing ∧ OrgTree.read e.org = .ok t ∧
        ∀ manifest previous, ∀ label ∈ limitLabels, ∀ key,
          Raises (reconcile ⟨c, t, manifest, previous, some e.org⟩) label key →
            Raises (reconcile ⟨c, t, manifest, previous, some o⟩) label key) ∧
      ∀ calls : List Call, (∀ call ∈ calls, call.Spares c.options o.snapshot) →
        ∀ manifest previous,
          reconcile ⟨c, t, manifest, previous, some (calls.foldl Organization.perform o)⟩ =
            reconcile ⟨c, t, manifest, previous, some o⟩ := by
  obtain ⟨t, hread, -, hplan⟩ := Plan.exists_read hroot htargets hparents
  obtain ⟨hthere, honce⟩ := hplan c
  refine ⟨t, hread, ?_, ?_⟩
  · intro e he
    obtain ⟨quarantine, hquarantine, hwith⟩ := bind_eq_ok.1 he
    have hkept := enforceWith_rearranged hwith
    refine ⟨(issued_enforceWith hwith).failing_eq, (read_rearranged hkept).trans hread, ?_⟩
    intro manifest previous label hlabel key
    apply raises_mono ⟨c, t, manifest, previous, some o⟩ _ hlabel
    intro id scps hlimit
    exact withinLimit_of_enforceWith hwith hquarantine hids hthere honce hlimit
  · intro calls hcalls manifest previous
    exact (countsAlike_foldl_perform hids hcalls).reconcile_eq ⟨c, t, manifest, previous, some o⟩

/-- A declared unit that carries the quarantine policy and five others, and a stray account that is
made to fail. -/
def crowdedCore : Organization where
  snapshot :=
    { root := some ⟨"r-1", "Root"⟩
      ous := [⟨"ou-1", "core", "r-1"⟩, ⟨"ou-2", "apps", "r-1"⟩]
      accounts := [⟨"9", "Stray", "stray@x", .active, "r-1"⟩]
      policies :=
        [⟨"p-q", "Quarantine-New-Object", ["ou-1"]⟩, ⟨"p-1", "One", ["ou-1"]⟩,
          ⟨"p-2", "Two", ["ou-1", "ou-2"]⟩, ⟨"p-3", "Three", ["ou-1"]⟩, ⟨"p-4", "Four", ["ou-1"]⟩,
          ⟨"p-5", "Five", ["ou-1"]⟩, ⟨"p-o", "Ours", ["ou-2"]⟩] }
  failing := ["9"]

/-- The unit is to get another policy, which the options list. -/
def oursOnCore : Configuration :=
  ⟨{ scps := ["Ours"] }, .ofList [("core", { scps := ["Ours"] })], .empty, .empty⟩

/-- Enforcement changes four attachments, and the unit that had too many policies is still the only
one. -/
theorem enforce_keeps_limits_crowdedCore :
    ((OrgTree.read crowdedCore).toOption.bind fun t =>
      (enforce oursOnCore (Plan.compute oursOnCore t) crowdedCore).toOption.map fun e =>
        e.report.mutations) = some 4 ∧
      ∃ t, OrgTree.read crowdedCore = .ok t ∧
        (∀ e, enforce oursOnCore (Plan.compute oursOnCore t) crowdedCore = .ok e →
          ∀ label ∈ limitLabels, ∀ key,
            Raises (reconcile ⟨oursOnCore, t, none, none, some e.org⟩) label key →
              Raises (reconcile ⟨oursOnCore, t, none, none, some crowdedCore⟩) label key) ∧
        reconcile ⟨oursOnCore, t, none, none,
            some ((crowdedCore.perform (.attachPolicy "p-q" "ou-2")).perform
              (.detachPolicy "p-o" "ou-2"))⟩ =
          reconcile ⟨oursOnCore, t, none, none, some crowdedCore⟩ := by
  refine ⟨by decide +kernel, ?_⟩
  have hroot : crowdedCore.snapshot.root.isSome = true := rfl
  have htargets : (crowdedCore.snapshot.root.toList.map Root.id ++
      crowdedCore.snapshot.ous.map OuNode.id ++
      crowdedCore.snapshot.accounts.map LiveAccount.id).Nodup := by decide
  have hparents : ∀ a ∈ crowdedCore.snapshot.accounts,
      crowdedCore.snapshot.isParent a.parent = true := by decide
  have hids : (crowdedCore.snapshot.policies.map AttachedPolicy.id).Nodup := by decide
  obtain ⟨t, hread, hmore, hsame⟩ :=
    enforce_keeps_limits oursOnCore crowdedCore hroot htargets hparents hids
  refine ⟨t, hread, ?_, ?_⟩
  · intro e he
    exact (hmore e he).2.2 none none
  · apply hsame [.attachPolicy "p-q" "ou-2", .detachPolicy "p-o" "ou-2"]
    intro call hcall
    rcases List.mem_cons.1 hcall with rfl | hcall
    · exact ⟨"p-q", "ou-2", .inl rfl, by decide +kernel⟩
    · rw [List.mem_singleton.1 hcall]
      exact ⟨"p-o", "ou-2", .inr rfl, by decide +kernel⟩

end OrgAlign.Guard
