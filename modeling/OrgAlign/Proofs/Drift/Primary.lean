import OrgAlign.Proofs.Drift.Transfers
import OrgAlign.Proofs.Reconcile.Admission

/-!
# Accounts by address, and the primary one

Where no two live accounts share an address, an address leads to one account, and convergence does
not change to which one. Main statements:

* `InStep.matchAccount?`, `InStep.matchRootAccount?`: the account that an address leads to;
* `Frame.matchAccount?`: convergence leaves it as it was, but for its parent;
* `rootPrimary?_eq_some_iff`: the primary account under the root;
* `rootPrimary?_beforePrimary`: the last stage of convergence looks for the account that was there
  at the start, unless it is suspended;
* `converge_moves_primary`: convergence moves it into its unit.
-/

namespace OrgAlign

open Config Org Reconcile

/-! ### Accounts by address -/

namespace Reconcile

/-- An address leads to the account that has it, if no other one of the accounts does. -/
theorem matchAccount?_eq_some_iff {accounts : List LiveAccount}
    (hinj : ∀ a ∈ accounts, ∀ b ∈ accounts, Text.lower a.email = Text.lower b.email → a = b)
    {email : String} {a : LiveAccount} :
    matchAccount? email accounts = some a ↔
      a ∈ accounts ∧ Text.lower a.email = Text.lower email := by
  refine ⟨matchAccount?_eq_some, ?_⟩
  rintro ⟨ha, hemail⟩
  cases hmatch : matchAccount? email accounts with
  | none => exact absurd hemail (matchAccount?_eq_none.1 hmatch a ha)
  | some b =>
    obtain ⟨hb, hbemail⟩ := matchAccount?_eq_some hmatch
    rw [hinj b hb a ha (hbemail.trans hemail.symm)]

end Reconcile

namespace Org

variable {s : Snapshot} {t : OrgTree}

/-- Live accounts with one address are the same. -/
theorem Snapshot.DistinctEmails.eq (h : s.DistinctEmails) {a b : LiveAccount}
    (ha : a ∈ s.accounts) (hb : b ∈ s.accounts) (heq : Text.lower a.email = Text.lower b.email) :
    a = b :=
  List.inj_on_of_nodup_map h ha hb heq

/-- The live account that an address leads to. -/
theorem InStep.matchAccount? (h : InStep s t) (hemails : s.DistinctEmails) {email : String}
    {a : LiveAccount} : Reconcile.matchAccount? email t.accounts = some a ↔
      a ∈ s.accounts ∧ Text.lower a.email = Text.lower email := by
  rw [matchAccount?_eq_some_iff, h.mem_accounts]
  intro a ha b hb
  exact hemails.eq (h.mem_accounts.1 ha) (h.mem_accounts.1 hb)

/-- The live account under the root that an address leads to. -/
theorem InStep.matchRootAccount? (h : InStep s t) (hemails : s.DistinctEmails) {email : String}
    {a : LiveAccount} : Reconcile.matchAccount? email t.rootAccounts = some a ↔
      a ∈ s.accounts ∧ a.parent = t.rootId ∧ Text.lower a.email = Text.lower email := by
  rw [matchAccount?_eq_some_iff, h.mem_rootAccounts, and_assoc]
  intro a ha b hb
  exact hemails.eq (h.mem_rootAccounts.1 ha).1 (h.mem_rootAccounts.1 hb).1

end Org

namespace Drift

namespace Convergence

variable {config : Configuration} {c c' : Convergence} {movable : String → Prop}

/-! ### Across convergence -/

/-- Accounts keep their addresses. -/
theorem Frame.distinctEmails (h : Frame movable c c') (hemails : c.org.snapshot.DistinctEmails) :
    c'.org.snapshot.DistinctEmails := by
  unfold Snapshot.DistinctEmails at hemails ⊢
  have heq : c.org.snapshot.accounts.map (fun a => Text.lower a.email) =
      c'.org.snapshot.accounts.map fun a => Text.lower a.email := by
    refine List.forall₂_eq_eq_eq ▸ List.forall₂_map_left_iff.2 (List.forall₂_map_right_iff.2 ?_)
    exact h.accounts.imp fun a b hab => by rw [hab.1]
  rwa [← heq]

/-- An account is still there, but for its parent as it was. -/
theorem Frame.exists_after (h : Frame movable c c') {a : LiveAccount}
    (ha : a ∈ c.org.snapshot.accounts) : ∃ b ∈ c'.org.snapshot.accounts, Rehoused movable a b :=
  forall₂_exists_right h.accounts ha

/-- An account was there before, but for its parent as it is. -/
theorem Frame.exists_before (h : Frame movable c c') {b : LiveAccount}
    (hb : b ∈ c'.org.snapshot.accounts) : ∃ a ∈ c.org.snapshot.accounts, Rehoused movable a b :=
  forall₂_exists_left h.accounts hb

/-- An account that was moved keeps its address and its state. -/
theorem Rehoused.same {a b : LiveAccount} (h : Rehoused movable a b) :
    b.id = a.id ∧ b.name = a.name ∧ b.email = a.email ∧ b.isSuspended = a.isSuspended := by
  rw [h.1]
  exact ⟨rfl, rfl, rfl, rfl⟩

/-! ### The primary account -/

/-- The account declared as primary. -/
def primary? (config : Configuration) : Option Declared :=
  config.accounts.find? fun d => d.entry.role == some .primary

/-- The account that convergence moves out of the root. -/
theorem rootPrimary?_eq_some_iff (hc : c.Tracks) (hemails : c.org.snapshot.DistinctEmails)
    {key : String} {live : LiveAccount} :
    rootPrimary? config c.tree = some (key, live) ↔
      ∃ d, primary? config = some d ∧ d.key = key ∧ live ∈ c.org.snapshot.accounts ∧
        live.parent = c.tree.rootId ∧ Text.lower live.email = Text.lower d.entry.email := by
  unfold rootPrimary? primary?
  simp only [Option.bind_eq_some_iff, Option.map_eq_some_iff, Prod.mk.injEq,
    hc.inStep.matchRootAccount? hemails]
  constructor
  · rintro ⟨d, hd, a, ha, rfl, rfl⟩
    exact ⟨d, hd, rfl, ha⟩
  · rintro ⟨d, hd, rfl, ha⟩
    exact ⟨d, hd, live, ha, rfl, rfl⟩

end Convergence

section

open Convergence

variable {config : Configuration} {org : Organization} {tree : OrgTree}

/-- Up to its last stage, convergence leaves accounts alone that are not suspended. -/
theorem mem_beforePrimary_iff (h : (⟨org, tree, {}⟩ : Convergence).Tracks) {a : LiveAccount}
    (ha : a.isSuspended = false) :
    a ∈ (beforePrimary config org tree).org.snapshot.accounts ↔ a ∈ org.snapshot.accounts := by
  obtain ⟨-, hframe⟩ := beforePrimary_frame config h
  -- whatever was moved was suspended
  have heq : ∀ b c, Rehoused (SuspendedIn org.snapshot) b c → b ∈ org.snapshot.accounts →
      b.isSuspended = false → c = b := by
    rintro b c ⟨hc, hparent | ⟨d, hd, hid, hsuspended⟩⟩ hb hactive
    · rw [hc, hparent]
    · rw [List.inj_on_of_nodup_map h.housed.accountIds hd hb hid, hactive] at hsuspended
      cases hsuspended
  constructor
  · intro hin
    obtain ⟨b, hb, hmoved⟩ := hframe.exists_before hin
    have hactive : b.isSuspended = false := hmoved.same.2.2.2.symm.trans ha
    rwa [heq b a hmoved hb hactive]
  · intro hin
    obtain ⟨b, hb, hmoved⟩ := hframe.exists_after hin
    rwa [← heq a b hmoved hin ha]

/-- The last stage of convergence finds the primary account under the root that was there at the
start, unless it is suspended. -/
theorem rootPrimary?_beforePrimary (h : (⟨org, tree, {}⟩ : Convergence).Tracks)
    (hemails : org.snapshot.DistinctEmails) {key : String} {live : LiveAccount}
    (hlive : live.isSuspended = false) :
    rootPrimary? config (beforePrimary config org tree).tree = some (key, live) ↔
      rootPrimary? config tree = some (key, live) := by
  obtain ⟨htracks, hframe⟩ := beforePrimary_frame config h
  rw [rootPrimary?_eq_some_iff htracks (hframe.distinctEmails hemails), hframe.root,
    mem_beforePrimary_iff h hlive]
  exact (rootPrimary?_eq_some_iff h hemails).symm

/-- An account that convergence may move is suspended, or the primary one under the root. -/
theorem MayMove.suspended_or_primary (h : (⟨org, tree, {}⟩ : Convergence).Tracks)
    (hemails : org.snapshot.DistinctEmails) {a : LiveAccount} (ha : a ∈ org.snapshot.accounts)
    (hmay : MayMove config org tree a.id) :
    a.isSuspended = true ∨ ∃ key, rootPrimary? config tree = some (key, a) := by
  obtain ⟨htracks, hframe⟩ := beforePrimary_frame config h
  have hids := List.inj_on_of_nodup_map h.housed.accountIds
  rcases hmay with ⟨b, hb, hid, hsuspended⟩ | ⟨key, live, hprimary, hid⟩
  · exact .inl (hids hb ha hid ▸ hsuspended)
  · obtain ⟨-, -, -, hlive, -⟩ := (rootPrimary?_eq_some_iff htracks
      (hframe.distinctEmails hemails)).1 hprimary
    obtain ⟨b, hb, hmoved⟩ := hframe.exists_before hlive
    obtain rfl : b = a := hids hb ha (hmoved.same.1.symm.trans hid)
    cases hsuspended : b.isSuspended with
    | true => exact .inl rfl
    | false =>
      -- an account that is not suspended is where it was at the start
      have hactive : live.isSuspended = false := hmoved.same.2.2.2.trans hsuspended
      have hwas := (mem_beforePrimary_iff h hactive).1 hlive
      obtain rfl : live = b := hids hwas hb hid
      exact .inr ⟨key, (rootPrimary?_beforePrimary h hemails hactive).1 hprimary⟩

/-- Convergence moves the primary account out of the root, if its unit is there in the end and no
call is made to fail. -/
theorem converge_moves_primary (h : (⟨org, tree, {}⟩ : Convergence).Tracks)
    (hemails : org.snapshot.DistinctEmails) {d : Declared} {live : LiveAccount}
    (hprimary : rootPrimary? config tree = some (d.key, live)) (hlive : live.isSuspended = false)
    (hd : config.account? d.key = some d) {ou : LiveOu}
    (hou : StandsFor (converge config org tree).tree.ous d.entry.path ou)
    (hfail : Unharmed org (converge config org tree).org) :
    { live with parent := ou.id } ∈ (converge config org tree).org.snapshot.accounts := by
  obtain ⟨htracks, -⟩ := beforePrimary_frame config h
  have hlast : Unharmed (beforePrimary config org tree).org (converge config org tree).org :=
    (Unharmed.split ((issued_createMissing config _).trans (issued_relocateSuspended config _))
      (issued_relocatePrimary config _) hfail).2
  have hunits : (converge config org tree).tree.ous = (beforePrimary config org tree).tree.ous :=
    relocatePrimary_ous config _
  rw [hunits] at hou
  exact relocatePrimary_moves htracks ((rootPrimary?_beforePrimary h hemails hlive).2 hprimary) hd
    (ou?_matchOu_eq_some.2 hou) hlast

end
end Drift
end OrgAlign
