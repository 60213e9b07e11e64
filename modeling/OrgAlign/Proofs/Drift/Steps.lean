import OrgAlign.Drift.Converge
import OrgAlign.Proofs.Org.CallLog
import OrgAlign.Proofs.Org.Hierarchy
import OrgAlign.Proofs.Walks

/-!
# What the steps of convergence keep

Convergence changes the organization by attempts to create a unit and to move an account, and notes
in its report what became of them. A property that survives every attempt and every note survives
each stage. Main statements:

* `createOu_effect`, `move_effect`: what an attempt makes of the organization and the tree;
* `createMissing_keeps`, `relocateSuspended_keeps`, `relocatePrimary_keeps`, `converge_keeps`: the
  three stages, and all of it;
* `issued_converge`: convergence changes the organization by calls alone;
* `converge_identified`: units and accounts keep identifiers of their own.
-/

namespace OrgAlign.Drift

open Config Org Reconcile

namespace Convergence

/-! ### Attempts -/

/-- An attempt to create a unit has no parent to create it under, is refused, or gives a unit that
the tree takes in. -/
theorem createOu_cases (c : Convergence) (path : String) :
    (∃ e, parentFor c.tree path = .error e ∧ c.createOu path = (.failed e, c)) ∨
    ∃ parent, parentFor c.tree path = .ok parent ∧
      ((∃ e, (c.org.createOu (Path.leaf path) parent).1 = .error e ∧
        c.createOu path = (if e.isNoOp then .present else .failed e,
          { c with org := (c.org.createOu (Path.leaf path) parent).2 })) ∨
      ∃ node, (c.org.createOu (Path.leaf path) parent).1 = .ok node ∧
        c.createOu path = (.created (c.tree.insertOu node).1,
          { c with
            org := (c.org.createOu (Path.leaf path) parent).2
            tree := (c.tree.insertOu node).2 })) := by
  cases hparent : parentFor c.tree path with
  | error e => exact .inl ⟨e, rfl, by simp only [createOu, hparent]⟩
  | ok parent =>
    refine .inr ⟨parent, rfl, ?_⟩
    rcases hmade : c.org.createOu (Path.leaf path) parent with ⟨e | node, org⟩
    · exact .inl ⟨e, rfl, by simp only [createOu, hparent, hmade]⟩
    · exact .inr ⟨node, rfl, by simp only [createOu, hparent, hmade]⟩

/-- A unit that an attempt creates is the last one of the tree. -/
theorem ous_of_created {c c' : Convergence} {path : String} {ou : LiveOu}
    (h : c.createOu path = (.created ou, c')) : c'.tree.ous = c.tree.ous ++ [ou] := by
  rcases c.createOu_cases path with
    ⟨e, -, hcalled⟩ | ⟨parent, -, ⟨e, -, hcalled⟩ | ⟨node, -, hcalled⟩⟩
  · rw [h] at hcalled
    cases hcalled
  · rw [h] at hcalled
    split at hcalled <;> cases hcalled
  · rw [h] at hcalled
    cases hcalled
    rfl

/-- An attempt to create a unit notes nothing. -/
theorem report_createOu (c : Convergence) (path : String) :
    (c.createOu path).2.report = c.report := by
  rcases c.createOu_cases path with ⟨e, -, h⟩ | ⟨parent, -, ⟨e, -, h⟩ | ⟨node, -, h⟩⟩
  · rw [h]
  · rw [h]
  · rw [h]

/-- An attempt to move an account is refused, and noted unless it was not needed, or the tree and
the report take it in. -/
theorem move_cases (c : Convergence) (a : LiveAccount) (targetId targetPath : String) :
    (∃ e, (c.org.moveAccount a.id a.parent targetId).1 = .error e ∧
      c.move a targetId targetPath =
        (false, let c := { c with org := (c.org.moveAccount a.id a.parent targetId).2 }
          if e.isNoOp then c else c.fail e.message?)) ∨
    ((c.org.moveAccount a.id a.parent targetId).1 = .ok () ∧
      c.move a targetId targetPath =
        (true, { c with
          org := (c.org.moveAccount a.id a.parent targetId).2
          tree := c.tree.relocate a.id targetId }.addMoved a.id targetPath)) := by
  rcases hmoved : c.org.moveAccount a.id a.parent targetId with ⟨e | ⟨⟩, org⟩
  · exact .inl ⟨e, rfl, by simp only [move, hmoved]⟩
  · exact .inr ⟨rfl, by simp only [move, hmoved]⟩

/-- An attempt to create a unit changes nothing that is there, or adds a unit to the organization
that the tree takes in. -/
theorem createOu_effect (c : Convergence) (path : String) :
    ((c.createOu path).2.org.snapshot = c.org.snapshot ∧ (c.createOu path).2.tree = c.tree) ∨
    ∃ parent node, parentFor c.tree path = .ok parent ∧
      Organization.created c.org.snapshot (Path.leaf path) parent =
        .ok (node, c.org.snapshot.addOu node) ∧
      (c.createOu path).2.org.snapshot = c.org.snapshot.addOu node ∧
      (c.createOu path).2.tree = (c.tree.insertOu node).2 := by
  rcases c.createOu_cases path with ⟨e, -, hc⟩ | ⟨parent, hparent, hcalled⟩
  · rw [hc]
    exact .inl ⟨rfl, rfl⟩
  rcases c.org.createOu_cases (Path.leaf path) parent with ⟨e', ho⟩ | ⟨node, s, hmade, ho⟩
  · rcases hcalled with ⟨e, -, hc⟩ | ⟨node, hnode, -⟩
    · rw [hc, ho]
      exact .inl ⟨rfl, rfl⟩
    · rw [ho] at hnode
      cases hnode
  · rcases hcalled with ⟨e, he, -⟩ | ⟨node', hnode, hc⟩
    · rw [ho] at he
      cases he
    · rw [ho] at hnode
      cases hnode
      obtain ⟨rfl, -⟩ := Snapshot.created_eq_ok hmade
      rw [hc, ho]
      exact .inr ⟨parent, node, hparent, hmade, rfl, rfl⟩

/-- An attempt to move an account changes nothing that is there, or moves it in the organization and
in the tree. -/
theorem move_effect (c : Convergence) (a : LiveAccount) (targetId targetPath : String) :
    ((c.move a targetId targetPath).2.org.snapshot = c.org.snapshot ∧
      (c.move a targetId targetPath).2.tree = c.tree) ∨
    (Organization.moved c.org.snapshot a.id a.parent targetId =
        .ok (c.move a targetId targetPath).2.org.snapshot ∧
      (c.move a targetId targetPath).2.tree = c.tree.relocate a.id targetId) := by
  rcases c.org.moveAccount_cases a.id a.parent targetId with ⟨e, ho⟩ | ⟨s, hmoved, ho⟩
  · rcases c.move_cases a targetId targetPath with ⟨e', -, hc⟩ | ⟨hok, -⟩
    · rw [hc, ho]
      simp only
      split <;> exact .inl ⟨rfl, rfl⟩
    · rw [ho] at hok
      cases hok
  · rcases c.move_cases a targetId targetPath with ⟨e', he, -⟩ | ⟨-, hc⟩
    · rw [ho] at he
      cases he
    · rw [hc, ho]
      exact .inr ⟨hmoved, rfl⟩

/-- The unit of suspended accounts that is not there is created, or an attempt at it is made. -/
theorem suspendedTarget_of_none {c : Convergence} {path : String}
    (h : c.tree.ouByPath? path = none) :
    (c.suspendedTarget path).2.org = (c.createOu path).2.org ∧
      (c.suspendedTarget path).2.tree = (c.createOu path).2.tree := by
  simp only [suspendedTarget, h]
  split
  · rename_i h
    rw [h]
    exact ⟨rfl, rfl⟩
  · rename_i h
    rw [h]
    exact ⟨rfl, rfl⟩
  · rename_i h
    rw [h]
    split <;> exact ⟨rfl, rfl⟩

/-! ### Stages -/

/-- The path is on the way down to a declared path that is not ignored. -/
def OnTheWay (config : Configuration) (path : String) : Prop :=
  ∃ declared ∈ config.declaredPaths, config.options.isIgnored (Path.topLevel declared) = false ∧
    path ∈ Path.ancestry declared

/-- Convergence may create a unit at the path: that is on the way down to a declared one, or is
where suspended accounts belong. -/
def Wanted (config : Configuration) (path : String) : Prop :=
  OnTheWay config path ∨ path = config.options.suspendedOu

section

variable (Inv : Convergence → Prop) (hreport : ∀ c report, Inv c → Inv { c with report })

include hreport

theorem createDown_keeps (declared : String) {paths : List String}
    (hcreate : ∀ c, ∀ path ∈ paths, Inv c → Inv (createOu c path).2) (c : Convergence)
    (hc : Inv c) : Inv (createDown declared paths c) := by
  induction paths generalizing c with
  | nil => exact hc
  | cons path paths ih =>
    obtain ⟨hfirst, hrest⟩ : (∀ c, Inv c → Inv (createOu c path).2) ∧
        ∀ c, ∀ path ∈ paths, Inv c → Inv (createOu c path).2 :=
      ⟨fun c => hcreate c path List.mem_cons_self,
        fun c path hpath => hcreate c path (List.mem_cons_of_mem _ hpath)⟩
    unfold createDown
    split
    · exact ih hrest c hc
    · have hmade := hfirst c hc
      split
      · rename_i h
        rw [h] at hmade
        exact ih hrest _ (hreport _ _ (hreport _ _ hmade))
      · rename_i h
        rw [h] at hmade
        exact hmade
      · rename_i h
        rw [h] at hmade
        exact hreport _ _ hmade

theorem createMissing_keeps (config : Configuration)
    (hcreate : ∀ c path, OnTheWay config path → Inv c → Inv (createOu c path).2) (c : Convergence)
    (hc : Inv c) : Inv (c.createMissing config) := by
  refine foldl_keeps_of_mem Inv (fun c declared hdeclared hc => ?_) c hc
  unfold createDeclared
  split
  · exact hc
  · rename_i hignored
    split
    · refine createDown_keeps Inv hreport declared (fun c path hpath => hcreate c path ?_) c hc
      exact ⟨declared, hdeclared, Bool.not_eq_true _ ▸ hignored, hpath⟩
    · exact hc

theorem suspendedTarget_keeps {path : String}
    (hcreate : ∀ c, Inv c → Inv (createOu c path).2) (c : Convergence) (hc : Inv c) :
    Inv (c.suspendedTarget path).2 := by
  unfold suspendedTarget
  split
  · exact hc
  · have hmade := hcreate c hc
    split
    · rename_i h
      rw [h] at hmade
      exact hreport _ _ hmade
    · rename_i h
      rw [h] at hmade
      exact hreport _ _ hmade
    · rename_i h
      rw [h] at hmade
      split
      · exact hmade
      · exact hreport _ _ hmade

theorem moveSuspended_keeps (targetId targetPath : String) (c : Convergence) (a : LiveAccount)
    (hmoved : Inv (c.move a targetId targetPath).2) :
    Inv (moveSuspended targetId targetPath c a) := by
  unfold moveSuspended
  split
  · rename_i h
    rw [h] at hmoved
    exact hreport _ _ hmoved
  · rename_i h
    rw [h] at hmoved
    exact hmoved

/-- Only suspended accounts out of their place are moved. -/
theorem relocateSuspended_keeps (config : Configuration)
    (hcreate : ∀ c, Inv c → Inv (createOu c config.options.suspendedOu).2) (c : Convergence)
    (hmove : ∀ c' id path, ∀ a ∈ outOfPlace c.tree config.options.suspendedOu,
      Inv c' → Inv (c'.move a id path).2) (hc : Inv c) : Inv (c.relocateSuspended config) := by
  have htarget := suspendedTarget_keeps Inv hreport hcreate c hc
  simp only [relocateSuspended]
  split
  · exact hc
  · split
    · rename_i h
      rw [h] at htarget
      exact foldl_keeps_of_mem Inv
        (fun c' a ha hc' => moveSuspended_keeps Inv hreport _ _ c' a (hmove c' _ _ a ha hc')) _
        htarget
    · rename_i h
      rw [h] at htarget
      exact htarget

/-- Only the primary account right under the root is moved. -/
theorem relocatePrimary_keeps (config : Configuration) (c : Convergence)
    (hmove : ∀ key live id path, rootPrimary? config c.tree = some (key, live) →
      Inv (c.move live id path).2) (hc : Inv c) : Inv (c.relocatePrimary config) := by
  simp only [relocatePrimary]
  split
  · exact hc
  rename_i live hprimary
  split
  · exact hc
  split
  · exact hreport _ _ hc
  · rename_i ou _
    have hmoved := hmove _ live ou.id ou.path hprimary
    split
    · rename_i h
      rw [h] at hmoved
      exact hreport _ _ hmoved
    · rename_i h
      rw [h] at hmoved
      exact hmoved

/-- What every attempt and every note keep, convergence keeps. -/
theorem converge_keeps (config : Configuration)
    (hcreate : ∀ c path, Wanted config path → Inv c → Inv (createOu c path).2)
    (hmove : ∀ c a id path, Inv c → Inv (move c a id path).2) {org : Organization}
    {tree : OrgTree} (h : Inv ⟨org, tree, {}⟩) : Inv (converge config org tree) := by
  have hmissing := createMissing_keeps Inv hreport config
    (fun c path hpath hc => hcreate c path (.inl hpath) hc) _ h
  have hsuspended := relocateSuspended_keeps Inv hreport config
    (fun c hc => hcreate c _ (.inr rfl) hc) _ (fun c id path a _ hc => hmove c a id path hc)
    hmissing
  exact relocatePrimary_keeps Inv hreport config _
    (fun _ live id path _ => hmove _ live id path hsuspended) hsuspended

end

/-! ### Calls alone -/

theorem issued_createOu (c : Convergence) (path : String) :
    Issued c.org (c.createOu path).2.org := by
  rcases c.createOu_cases path with ⟨e, -, h⟩ | ⟨parent, -, ⟨e, -, h⟩ | ⟨node, -, h⟩⟩
  · rw [h]
    exact Issued.refl c.org
  · rw [h]
    exact Issued.perform c.org (.createOu (Path.leaf path) parent)
  · rw [h]
    exact Issued.perform c.org (.createOu (Path.leaf path) parent)

/-- An attempt to move an account is one call. -/
theorem move_org (c : Convergence) (a : LiveAccount) (targetId targetPath : String) :
    (c.move a targetId targetPath).2.org =
      c.org.perform (.moveAccount a.id a.parent targetId) := by
  rcases c.move_cases a targetId targetPath with ⟨e, -, h⟩ | ⟨-, h⟩
  · rw [h]
    simp only
    split <;> rfl
  · rw [h]
    rfl

theorem issued_move (c : Convergence) (a : LiveAccount) (targetId targetPath : String) :
    Issued c.org (c.move a targetId targetPath).2.org := by
  rw [c.move_org]
  exact Issued.perform c.org _

/-- The first stage changes the organization by calls alone. -/
theorem issued_createMissing (config : Configuration) (c : Convergence) :
    Issued c.org (c.createMissing config).org :=
  createMissing_keeps (fun c' => Issued c.org c'.org) (fun _ _ h => h) config
    (fun c' path _ h => h.trans (c'.issued_createOu path)) c (Issued.refl c.org)

/-- So does the second one. -/
theorem issued_relocateSuspended (config : Configuration) (c : Convergence) :
    Issued c.org (c.relocateSuspended config).org :=
  relocateSuspended_keeps (fun c' => Issued c.org c'.org) (fun _ _ h => h) config
    (fun c' h => h.trans (c'.issued_createOu _)) c
    (fun c' id path a _ h => h.trans (c'.issued_move a id path)) (Issued.refl c.org)

/-- And so does the last one. -/
theorem issued_relocatePrimary (config : Configuration) (c : Convergence) :
    Issued c.org (c.relocatePrimary config).org :=
  relocatePrimary_keeps (fun c' => Issued c.org c'.org) (fun _ _ h => h) config c
    (fun _ live id path _ => c.issued_move live id path) (Issued.refl c.org)

end Convergence

/-- Convergence changes the organization by calls alone. -/
theorem issued_converge (config : Configuration) (org : Organization) (tree : OrgTree) :
    Issued org (converge config org tree).org :=
  ((Convergence.issued_createMissing config _).trans
    (Convergence.issued_relocateSuspended config _)).trans
    (Convergence.issued_relocatePrimary config _)

/-! ### Identifiers -/

/-- No two units and no two accounts share an identifier. -/
structure Identified (s : Snapshot) : Prop where
  /-- Units have distinct identifiers. -/
  ous : (s.ous.map OuNode.id).Nodup
  /-- Accounts have distinct identifiers. -/
  accounts : (s.accounts.map LiveAccount.id).Nodup

/-- A unit is created under an identifier of its own. -/
theorem Identified.addOu {s : Snapshot} (h : Identified s) {node : OuNode} (hfits : s.Fits node) :
    Identified (s.addOu node) := by
  refine ⟨?_, h.accounts⟩
  change ((s.ous ++ [node]).map OuNode.id).Nodup
  rw [List.map_append, List.map_singleton]
  refine List.nodup_append.2 ⟨h.ous, List.nodup_singleton _, ?_⟩
  intro id hid id' hid' heq
  obtain ⟨ou, hou, rfl⟩ := List.mem_map.1 hid
  rw [List.mem_singleton.1 hid'] at heq
  have hfresh := hfits.fresh
  rw [Snapshot.isOu_iff.2 ⟨ou, hou, heq⟩] at hfresh
  cases hfresh

/-- An account keeps its identifier when it is moved. -/
theorem Identified.moved {s s' : Snapshot} (h : Identified s) {account source target : String}
    (hmoved : Organization.moved s account source target = .ok s') : Identified s' := by
  rw [Organization.eq_of_moved hmoved]
  refine ⟨h.ous, ?_⟩
  change ((Organization.updateFirst _ _ s.accounts).map LiveAccount.id).Nodup
  rw [Organization.map_updateFirst LiveAccount.id]
  · exact h.accounts
  · exact fun _ => rfl

/-- Convergence leaves units and accounts with identifiers of their own. -/
theorem converge_identified (config : Configuration) {org : Organization} (tree : OrgTree)
    (h : Identified org.snapshot) : Identified (converge config org tree).org.snapshot := by
  refine Convergence.converge_keeps (fun c => Identified c.org.snapshot) (fun _ _ hc => hc) config
    (fun c path _ hc => ?_) (fun c a id path hc => ?_) h
  · rcases c.createOu_effect path with ⟨hs, -⟩ | ⟨parent, node, -, hmade, hs, -⟩
    · rwa [hs]
    · rw [hs]
      exact hc.addOu (Snapshot.created_eq_ok hmade).2.1
  · rcases c.move_effect a id path with ⟨hs, -⟩ | ⟨hmoved, -⟩
    · rwa [hs]
    · exact hc.moved hmoved

end OrgAlign.Drift
