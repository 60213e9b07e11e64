import OrgAlign.Proofs.Drift.Frame

/-!
# Moves that were made

An account that is to be moved stays where it is if it is made to fail, and else goes to the unit it
is moved to. A list of the moves that were made says all that moving accounts has done. Main
statements:

* `settled`: an account, in the unit that it was moved to if it was;
* `Relocates`: the moves that lead from one state of convergence to another, and
  `Relocates.trans`: one stretch of moves after the other;
* `move_relocates`, `foldl_moveSuspended_relocates`, `relocatePrimary_relocates`: one move, those of
  suspended accounts and that of the primary account, whatever accounts are made to fail;
* `relocatePrimary_moves`: the primary account leaves the root, if its unit is there and no call is
  made to fail.
-/

namespace OrgAlign.Drift

open Config Org Reconcile

/-! ### Transfers -/

/-- A move that was made: of which account, and the identifier and the path of where it went. -/
structure Transfer where
  /-- The account's identifier. -/
  account : String
  /-- The new parent's identifier. -/
  target : String
  /-- The path that was noted. -/
  path : String
deriving DecidableEq, Repr

/-- The account, under the parent that it was moved to if it was. -/
def settled (ts : List Transfer) (a : LiveAccount) : LiveAccount :=
  match ts.find? (·.account == a.id) with
  | some t => { a with parent := t.target }
  | none => a

section

variable {ts ts' : List Transfer} {a : LiveAccount}

/-- Moving an account changes nothing but its parent. -/
theorem settled_eq (ts : List Transfer) (a : LiveAccount) :
    settled ts a = { a with parent := (settled ts a).parent } := by
  unfold settled
  split <;> rfl

@[simp] theorem id_settled : (settled ts a).id = a.id := by
  unfold settled
  split <;> rfl

/-- An account that was moved once is where it was moved to. -/
theorem settled_of_mem (honce : (ts.map Transfer.account).Nodup) {t : Transfer} (ht : t ∈ ts)
    (hid : t.account = a.id) : settled ts a = { a with parent := t.target } := by
  unfold settled
  rw [← hid, find?_of_nodup honce ht]

/-- An account that was not moved stays. -/
theorem settled_of_not_mem (h : a.id ∉ ts.map Transfer.account) : settled ts a = a := by
  have hnone : ts.find? (·.account == a.id) = none := by
    rw [List.find?_eq_none]
    intro t ht hid
    exact h (List.mem_map.2 ⟨t, ht, beq_iff_eq.1 hid⟩)
  unfold settled
  rw [hnone]

/-- Moves one after the other, of different accounts. -/
theorem settled_append (h : ∀ t ∈ ts, t.account ∉ ts'.map Transfer.account) :
    settled (ts ++ ts') a = settled ts' (settled ts a) := by
  cases hfind : ts.find? (·.account == a.id) with
  | none =>
    unfold settled
    simp only [List.find?_append, hfind, Option.none_or]
  | some t =>
    have hid : t.account = a.id := by simpa using List.find?_some hfind
    have hmoved : settled ts a = { a with parent := t.target } := by
      unfold settled
      rw [hfind]
    have hstays : settled ts' { a with parent := t.target } = { a with parent := t.target } :=
      settled_of_not_mem (hid ▸ h t (List.mem_of_find?_eq_some hfind))
    rw [hmoved, hstays]
    unfold settled
    simp only [List.find?_append, hfind, Option.some_or]

end

namespace Convergence

variable {c c' c'' : Convergence} {ts ts' : List Transfer}

/-! ### Stretches of moves -/

/-- The moves lead from one state to the other: they are noted, each takes an account away to a
unit, and nothing else has changed but the parents of the accounts that were moved. -/
structure Relocates (c c' : Convergence) (ts : List Transfer) : Prop where
  /-- The accounts are where they were moved to. -/
  snapshot : c'.org.snapshot =
    { c.org.snapshot with accounts := c.org.snapshot.accounts.map (settled ts) }
  /-- What is made to fail stays so. -/
  failing : c'.org.failing = c.org.failing
  /-- The tree shows the same root. -/
  rootId : c'.tree.rootId = c.tree.rootId
  /-- The tree shows the same units. -/
  ous : c'.tree.ous = c.tree.ous
  /-- The moves are noted. -/
  report : c'.report.moved = c.report.moved ++ ts.map fun t => (t.account, t.path)
  /-- No account is moved twice. -/
  once : (ts.map Transfer.account).Nodup
  /-- Accounts go to units. -/
  unit : ∀ t ∈ ts, ∃ ou ∈ c.tree.ous, ou.id = t.target
  /-- They were elsewhere. -/
  away : ∀ t ∈ ts, ∀ a ∈ c.org.snapshot.accounts, a.id = t.account → a.parent ≠ t.target

theorem Relocates.refl (c : Convergence) : Relocates c c [] := by
  refine ⟨?_, rfl, rfl, rfl, (List.append_nil _).symm, List.nodup_nil,
    fun _ h => absurd h List.not_mem_nil, fun _ h => absurd h List.not_mem_nil⟩
  have hsame : settled [] = id := rfl
  rw [hsame, List.map_id]

/-- Warnings and failures are no moves. -/
theorem Relocates.note (h : Relocates c c' ts) {report : Corrections}
    (hmoved : report.moved = c'.report.moved) : Relocates c { c' with report } ts :=
  ⟨h.snapshot, h.failing, h.rootId, h.ous, hmoved.trans h.report, h.once, h.unit, h.away⟩

/-- An account that is not among those moved is still there. -/
theorem Relocates.mem_of_not_mem (h : Relocates c c' ts) {a : LiveAccount}
    (ha : a ∈ c.org.snapshot.accounts) (hnot : a.id ∉ ts.map Transfer.account) :
    a ∈ c'.org.snapshot.accounts := by
  rw [h.snapshot]
  exact List.mem_map.2 ⟨a, ha, settled_of_not_mem hnot⟩

/-- An account that is moved is there in the end, where it was moved to. -/
theorem Relocates.mem_moved (h : Relocates c c' ts) {t : Transfer} (ht : t ∈ ts) {a : LiveAccount}
    (ha : a ∈ c.org.snapshot.accounts) (hid : t.account = a.id) :
    { a with parent := t.target } ∈ c'.org.snapshot.accounts := by
  rw [h.snapshot]
  exact List.mem_map.2 ⟨a, ha, settled_of_mem h.once ht hid⟩

/-- And nowhere else. -/
theorem Relocates.parent_of_mem (h : Relocates c c' ts) {t : Transfer} (ht : t ∈ ts)
    {b : LiveAccount} (hb : b ∈ c'.org.snapshot.accounts) (hid : t.account = b.id) :
    b.parent = t.target := by
  rw [h.snapshot] at hb
  obtain ⟨a, -, rfl⟩ := List.mem_map.1 hb
  rw [id_settled] at hid
  rw [settled_of_mem h.once ht hid]

/-- One stretch of moves after the other, of different accounts. -/
theorem Relocates.trans (h : Relocates c c' ts) (h' : Relocates c' c'' ts')
    (hapart : ∀ t ∈ ts, t.account ∉ ts'.map Transfer.account) :
    Relocates c c'' (ts ++ ts') := by
  refine ⟨?_, h'.failing.trans h.failing, h'.rootId.trans h.rootId, h'.ous.trans h.ous, ?_, ?_,
    fun t ht => ?_, fun t ht a ha hid => ?_⟩
  · rw [h'.snapshot, h.snapshot]
    simp only [List.map_map]
    congr 2
    funext a
    exact (settled_append hapart).symm
  · rw [h'.report, h.report, List.append_assoc, List.map_append]
  · rw [List.map_append]
    refine List.nodup_append'.2 ⟨h.once, h'.once, fun id hid => ?_⟩
    obtain ⟨t, ht, rfl⟩ := List.mem_map.1 hid
    exact hapart t ht
  · rcases List.mem_append.1 ht with ht | ht
    · exact h.unit t ht
    · rw [← h.ous]
      exact h'.unit t ht
  · rcases List.mem_append.1 ht with ht | ht
    · exact h.away t ht a ha hid
    · -- the first stretch left the account alone
      refine h'.away t ht a (h.mem_of_not_mem ha fun hmoved => ?_) hid
      obtain ⟨t', ht', hid'⟩ := List.mem_map.1 hmoved
      exact hapart t' ht' (List.mem_map.2 ⟨t, ht, (hid'.trans hid).symm⟩)

/-! ### One move -/

/-- An attempt to move an account that is made to fail moves nothing, and is noted as a failure. -/
theorem move_of_failing {a : LiveAccount} {targetId : String}
    (h : ∃ x ∈ [a.id, targetId], x ∈ c.org.failing) (targetPath : String) :
    ∃ e, c.move a targetId targetPath = (false, ({ c with
      org := c.org.after (.moveAccount a.id a.parent targetId) c.org.snapshot } :
        Convergence).fail e) := by
  obtain ⟨e, hnoOp, hcall⟩ := Organization.moveAccount_of_failing h a.parent
  refine ⟨e.message?, ?_⟩
  simp only [move, hcall, hnoOp]
  rfl

/-- An account goes to another parent that is there, if neither is made to fail. -/
theorem move_of_mem (hc : c.Tracks) {a : LiveAccount} (ha : a ∈ c.org.snapshot.accounts)
    {targetId : String} (htarget : c.org.snapshot.isParent targetId = true)
    (hne : a.parent ≠ targetId) (h : ¬ ∃ x ∈ [a.id, targetId], x ∈ c.org.failing)
    (targetPath : String) :
    c.move a targetId targetPath = (true, ({ c with
      org := c.org.after (.moveAccount a.id a.parent targetId)
        (c.org.snapshot.rehouse a.id targetId)
      tree := c.tree.relocate a.id targetId } : Convergence).addMoved a.id targetPath) := by
  have hcall := Organization.moveAccount_of_available h a.parent
  rw [Snapshot.moved_of_mem hc.housed ha htarget hne] at hcall
  simp only [move, hcall]

/-- Moving one account is one transfer. -/
theorem rehouse_eq_settled (s : Snapshot) (account target path : String) :
    s.rehouse account target = { s with
      accounts := s.accounts.map (settled [⟨account, target, path⟩]) } := by
  unfold Snapshot.rehouse
  congr 2
  funext a
  by_cases hid : a.id = account
  · simp [settled, hid]
  · simp [settled, hid, Ne.symm hid]

/-- **An account is moved to a unit that it is not in, unless the account is made to fail.** -/
theorem move_relocates (hc : c.Tracks) {a : LiveAccount} (ha : a ∈ c.org.snapshot.accounts)
    {ou : LiveOu} (hou : ou ∈ c.tree.ous) (hne : a.parent ≠ ou.id) (hfree : ou.id ∉ c.org.failing)
    (targetPath : String) : Relocates c (c.move a ou.id targetPath).2
      (if a.id ∈ c.org.failing then [] else [⟨a.id, ou.id, targetPath⟩]) := by
  have hsubjects : (∃ x ∈ [a.id, ou.id], x ∈ c.org.failing) ↔ a.id ∈ c.org.failing := by
    simp [hfree]
  obtain ⟨-, -, hrootId, hous⟩ := c.move_units a ou.id targetPath
  have hrefl := Relocates.refl c
  split
  · rename_i hfailing
    obtain ⟨e, hmove⟩ := move_of_failing (hsubjects.2 hfailing) targetPath
    rw [hmove]
    exact { hrefl with }
  · rename_i hfailing
    rw [move_of_mem hc ha (hc.inStep.charts.isParent_of_mem hou) hne (mt hsubjects.1 hfailing)
      targetPath] at hrootId hous ⊢
    refine ⟨rehouse_eq_settled _ _ _ _, rfl, hrootId, hous, rfl, List.nodup_singleton _, ?_, ?_⟩
    · intro t ht
      rw [List.mem_singleton.1 ht]
      exact ⟨ou, hou, rfl⟩
    · intro t ht b hb hid
      rw [List.mem_singleton.1 ht] at hid ⊢
      rw [List.inj_on_of_nodup_map hc.housed.accountIds hb ha hid]
      exact hne

/-! ### Suspended accounts -/

/-- Moving a suspended account is moving it, and a warning. -/
theorem moveSuspended_cases (targetId targetPath : String) (c : Convergence) (a : LiveAccount) :
    moveSuspended targetId targetPath c a = (c.move a targetId targetPath).2 ∨
      ∃ f, moveSuspended targetId targetPath c a = (c.move a targetId targetPath).2.warn f := by
  unfold moveSuspended
  split
  · rename_i h
    rw [h]
    exact .inr ⟨_, rfl⟩
  · rename_i h
    rw [h]
    exact .inl rfl

/-- A suspended account is moved to a unit that it is not in, unless it is made to fail. -/
theorem moveSuspended_relocates (hc : c.Tracks) {a : LiveAccount}
    (ha : a ∈ c.org.snapshot.accounts) {ou : LiveOu} (hou : ou ∈ c.tree.ous)
    (hne : a.parent ≠ ou.id) (hfree : ou.id ∉ c.org.failing) (targetPath : String) :
    (moveSuspended ou.id targetPath c a).Tracks ∧
      Relocates c (moveSuspended ou.id targetPath c a)
        (if a.id ∈ c.org.failing then [] else [⟨a.id, ou.id, targetPath⟩]) := by
  have hmove := move_relocates hc ha hou hne hfree targetPath
  refine ⟨moveSuspended_keeps Tracks (fun _ _ h => h.congr rfl rfl) ou.id targetPath c a
    (hc.move a ou.id targetPath), ?_⟩
  rcases moveSuspended_cases ou.id targetPath c a with h | ⟨f, h⟩
  · rw [h]
    exact hmove
  · rw [h]
    exact hmove.note rfl

/-- **Of accounts that are moved one after the other to a unit, all go there that are not made to
fail.** -/
theorem foldl_moveSuspended_relocates {ou : LiveOu} (targetPath : String) {as : List LiveAccount}
    (hc : c.Tracks) (has : ∀ a ∈ as, a ∈ c.org.snapshot.accounts ∧ a.parent ≠ ou.id)
    (honce : (as.map LiveAccount.id).Nodup) (hou : ou ∈ c.tree.ous)
    (hfree : ou.id ∉ c.org.failing) :
    Relocates c (as.foldl (moveSuspended ou.id targetPath) c)
      ((as.filter (·.id ∉ c.org.failing)).map (⟨·.id, ou.id, targetPath⟩)) := by
  induction as generalizing c with
  | nil => exact Relocates.refl c
  | cons a as ih =>
    obtain ⟨hnew, honce⟩ := List.nodup_cons.1 honce
    obtain ⟨ha, hne⟩ := has a List.mem_cons_self
    obtain ⟨htracks, hstep⟩ := moveSuspended_relocates hc ha hou hne hfree targetPath
    have hids : ∀ id, id ≠ a.id → id ∉ (if a.id ∈ c.org.failing then []
        else [(⟨a.id, ou.id, targetPath⟩ : Transfer)]).map Transfer.account := by
      intro id hid
      split
      · exact List.not_mem_nil
      · simpa using hid
    have hothers : ∀ b ∈ as, b.id ≠ a.id := fun b hb heq => hnew (heq ▸ List.mem_map_of_mem hb)
    have hrest := ih htracks
      (fun b hb => ⟨hstep.mem_of_not_mem (has b (List.mem_cons_of_mem _ hb)).1
        (hids b.id (hothers b hb)), (has b (List.mem_cons_of_mem _ hb)).2⟩) honce
      (hstep.ous ▸ hou) (hstep.failing ▸ hfree)
    rw [hstep.failing] at hrest
    have hboth := hstep.trans hrest ?_
    · rw [List.foldl_cons]
      by_cases hfailing : a.id ∈ c.org.failing
      · rw [if_pos hfailing] at hboth
        rwa [List.filter_cons_of_neg (by simpa using hfailing)]
      · rw [if_neg hfailing] at hboth
        rwa [List.filter_cons_of_pos (by simpa using hfailing)]
    · intro t ht hlater
      rw [List.map_map] at hlater
      obtain ⟨b, hb, hid⟩ := List.mem_map.1 hlater
      refine hids t.account (fun heq => ?_) (List.mem_map_of_mem ht)
      exact hothers b (List.mem_filter.1 hb).1 (hid.trans heq)

/-! ### The primary account -/

/-- The primary account under the root, and the unit that it belongs to. -/
def primaryMove? (config : Configuration) (t : OrgTree) : Option (LiveAccount × LiveOu) :=
  (rootPrimary? config t).bind fun p =>
    (config.account? p.1).bind fun d => ((matchOu d.entry.path t.ous).ou?).map (p.2, ·)

/-- What is to be done about the primary account. -/
theorem primaryMove?_eq_some {config : Configuration} {t : OrgTree} {live : LiveAccount}
    {ou : LiveOu} : primaryMove? config t = some (live, ou) ↔
      ∃ key d, rootPrimary? config t = some (key, live) ∧ config.account? key = some d ∧
        StandsFor t.ous d.entry.path ou := by
  unfold primaryMove?
  simp only [Option.bind_eq_some_iff, Option.map_eq_some_iff, Prod.mk.injEq, Prod.exists,
    ou?_matchOu_eq_some]
  constructor
  · rintro ⟨key, a, hprimary, d, hd, o, ho, rfl, rfl⟩
    exact ⟨key, d, hprimary, hd, ho⟩
  · rintro ⟨key, d, hprimary, hd, ho⟩
    exact ⟨key, live, hprimary, d, hd, ou, ho, rfl, rfl⟩

/-- Where there is nothing to be done about the primary account, nothing is done but to note that
its unit is not there. -/
theorem relocatePrimary_of_none {config : Configuration} (h : primaryMove? config c.tree = none) :
    c.relocatePrimary config = c ∨ ∃ reason, c.relocatePrimary config = c.fail reason := by
  unfold primaryMove? at h
  simp only [relocatePrimary]
  split
  · exact .inl rfl
  · rename_i key live hprimary
    split
    · exact .inl rfl
    · rename_i d hd
      rw [hprimary, Option.bind_some, hd, Option.bind_some, Option.map_eq_none_iff] at h
      simp only [h]
      exact .inr ⟨_, rfl⟩

/-- Moving the primary account is moving it, and a warning. -/
theorem relocatePrimary_of_some {config : Configuration} {live : LiveAccount} {ou : LiveOu}
    (h : primaryMove? config c.tree = some (live, ou)) :
    c.relocatePrimary config = (c.move live ou.id ou.path).2 ∨
      ∃ f, c.relocatePrimary config = (c.move live ou.id ou.path).2.warn f := by
  obtain ⟨key, d, hprimary, hd, hou⟩ := primaryMove?_eq_some.1 h
  simp only [relocatePrimary, hprimary, hd, ou?_matchOu_eq_some.2 hou]
  split
  · rename_i hmove
    rw [hmove]
    exact .inr ⟨_, rfl⟩
  · rename_i hmove
    rw [hmove]
    exact .inl rfl

/-- The move of an account to a unit. -/
def primaryTransfer (m : LiveAccount × LiveOu) : Transfer := ⟨m.1.id, m.2.id, m.2.path⟩

/-- **The primary account under the root goes to the unit that it belongs to, if there is one and
the account is not made to fail.** -/
theorem relocatePrimary_relocates (config : Configuration) (hc : c.Tracks)
    (hfree : ∀ m, primaryMove? config c.tree = some m → m.2.id ∉ c.org.failing) :
    Relocates c (c.relocatePrimary config)
      (((primaryMove? config c.tree).toList.filter (·.1.id ∉ c.org.failing)).map
        primaryTransfer) := by
  cases hmove : primaryMove? config c.tree with
  | none =>
    rcases relocatePrimary_of_none hmove with h | ⟨reason, h⟩
    · rw [h]
      exact Relocates.refl c
    · rw [h]
      exact (Relocates.refl c).note rfl
  | some m =>
    obtain ⟨live, ou⟩ := m
    obtain ⟨key, d, hprimary, -, hstands⟩ := primaryMove?_eq_some.1 hmove
    obtain ⟨hlive, hroot⟩ := mem_of_rootPrimary? hc hprimary
    have hou := hstands.mem
    have hne : live.parent ≠ ou.id := fun heq =>
      hc.inStep.charts.ne_rootId hc.rooted.linked hou (heq.symm.trans hroot)
    have hrelocates := move_relocates hc hlive hou hne (hfree _ hmove) ou.path
    have hmade : ([(live, ou)].filter (·.1.id ∉ c.org.failing)).map primaryTransfer =
        if live.id ∈ c.org.failing then [] else [⟨live.id, ou.id, ou.path⟩] := by
      by_cases hfailing : live.id ∈ c.org.failing <;> simp [hfailing, primaryTransfer]
    rw [Option.toList_some, hmade]
    rcases relocatePrimary_of_some hmove with h | ⟨f, h⟩
    · rw [h]
      exact hrelocates
    · rw [h]
      exact hrelocates.note rfl

/-- It goes there if no call is made to fail. -/
theorem relocatePrimary_moves {config : Configuration} (hc : c.Tracks) {key : String}
    {live : LiveAccount} (hprimary : rootPrimary? config c.tree = some (key, live)) {d : Declared}
    (hd : config.account? key = some d) {ou : LiveOu}
    (hou : (matchOu d.entry.path c.tree.ous).ou? = some ou)
    (hfail : Unharmed c.org (c.relocatePrimary config).org) :
    { live with parent := ou.id } ∈ (c.relocatePrimary config).org.snapshot.accounts := by
  have hmove : primaryMove? config c.tree = some (live, ou) :=
    primaryMove?_eq_some.2 ⟨key, d, hprimary, hd, ou?_matchOu_eq_some.1 hou⟩
  have horg : (c.relocatePrimary config).org =
      c.org.perform (.moveAccount live.id live.parent ou.id) := by
    rw [← c.move_org live ou.id ou.path]
    rcases relocatePrimary_of_some hmove with h | ⟨f, h⟩
    · rw [h]
    · rw [h]
      rfl
  rw [horg] at hfail
  have hlive : live.id ∉ c.org.failing := fun h =>
    hfail.no_subject ⟨live.id, List.mem_cons_self, h⟩
  have hunit : ou.id ∉ c.org.failing := fun h =>
    hfail.no_subject ⟨ou.id, List.mem_cons_of_mem _ List.mem_cons_self, h⟩
  have hmoves := relocatePrimary_relocates config hc fun m hm => by
    obtain rfl := Option.some.inj (hmove.symm.trans hm)
    exact hunit
  refine hmoves.mem_moved (List.mem_map_of_mem (List.mem_filter.2
    ⟨Option.mem_toList.2 hmove, decide_eq_true hlive⟩)) (mem_of_rootPrimary? hc hprimary).1 rfl

end Convergence
end OrgAlign.Drift
