import OrgAlign.Drift.Detect
import OrgAlign.Proofs.Config.Layers

/-!
# What following the organization leaves

Following the organization amends entries of accounts and keys of units, and marks the declared
accounts of suspended ones. Main statements:

* `detect_keys`, `detect_options`: no account key appears or disappears, and the options stay;
* `detect_marks`: the entries of every file under the key of a suspended account's address are
  marked, with the live name and address;
* `detect_marked`: where nothing is noted, every suspended account was marked before;
* `detect_silent`: where nothing was renamed and everything suspended is marked, nothing is amended.
-/

namespace OrgAlign.Drift

open Config Org

variable {tree : OrgTree} {r r' : Amendment}

/-! ### Steps -/

/-- A patch is applied to the workspace, whatever is noted. -/
theorem Amendment.workspace_update (r : Amendment) (key : String) (patch : AccountPatch)
    (f : Finding) : (r.update key patch f).workspace = (r.workspace.updateAccount key patch).1 := by
  unfold Amendment.update
  simp only
  split <;> rfl

/-- A patch that makes no difference is not noted. -/
theorem Amendment.update_eq_self {key : String} {patch : AccountPatch} (f : Finding)
    (h : ∀ s, ∀ a ∈ r.workspace.entriesAt s key, patch.apply a = a) : r.update key patch f = r := by
  simp [Amendment.update, Workspace.updateAccount_eq_self h]

/-- A patch that is not noted makes no difference. -/
theorem Amendment.apply_of_silent {key : String} {patch : AccountPatch} {f : Finding}
    (h : (r.update key patch f).findings = []) :
    ∀ s, ∀ a ∈ r.workspace.entriesAt s key, patch.apply a = a := by
  intro s a ha
  by_contra hne
  have hchanged := Workspace.updateAccount_changed.2 ⟨s, a, ha, hne⟩
  simp [Amendment.update, hchanged, Amendment.note] at h

section

variable (Inv : Workspace → Prop)

/-- What every patch keeps, following an account keeps. -/
theorem followAccount_keeps (hpatch : ∀ w key p, Inv w → Inv (Workspace.updateAccount w key p).1)
    (before : CanonicalAccount) (hr : Inv r.workspace) :
    Inv (followAccount tree r before).workspace := by
  unfold followAccount
  split
  · exact hr
  · rw [Amendment.workspace_update]
    exact hpatch _ _ _ hr

/-- What every patch keeps, marking all suspended accounts keeps. -/
theorem markAllSuspended_keeps
    (hpatch : ∀ w key p, Inv w → Inv (Workspace.updateAccount w key p).1)
    (hr : Inv r.workspace) : Inv (markAllSuspended tree r).workspace := by
  refine foldl_keeps (fun r : Amendment => Inv r.workspace) (fun r a hr => ?_) _ _ hr
  unfold markSuspended
  split
  · exact hr
  · rw [Amendment.workspace_update]
    exact hpatch _ _ _ hr

/-- What every renaming of a unit keeps, following all units keeps. -/
theorem followOus_keeps
    (hrename : ∀ w old new r, Inv w → Workspace.renameOu w old new = .ok r → Inv r.1)
    (ous : List CanonicalOu) (hr : Inv r.workspace) : Inv (followOus tree ous r).2.workspace := by
  induction ous generalizing r with
  | nil => exact hr
  | cons before ous ih =>
    unfold followOus
    split
    · rename_i r' hstep
      refine ih ?_
      simp only [followOu] at hstep
      split at hstep
      · cases hstep
        exact hr
      split at hstep
      · cases hstep
        exact hr
      · rename_i key _
        cases hrenamed : r.workspace.renameOu before.logicalKey key with
        | error e =>
          rw [hrenamed] at hstep
          cases hstep
        | ok renamed =>
          rw [hrenamed] at hstep
          have hkept := hrename _ _ _ _ hr hrenamed
          cases hstep
          simp only
          split <;> exact hkept
    · exact hr

/-- The recorded accounts. -/
def recordedAccounts : Option PublishedState → List CanonicalAccount
  | none => []
  | some state => state.accounts

/-- What following the recorded accounts makes of a configuration. -/
def accountsFollowed (tree : OrgTree) (previous : Option PublishedState) (w : Workspace) :
    Amendment :=
  (recordedAccounts previous).foldl (followAccount tree) ⟨w, []⟩

/-- What every renaming of a unit keeps holds at the end if it held after the marks. -/
theorem detect_last {previous : Option PublishedState} {w : Workspace} {e : Option Error}
    (h : detect tree previous w = (e, r))
    (hrename : ∀ w old new r, Inv w → Workspace.renameOu w old new = .ok r → Inv r.1)
    (hmarked : Inv (markAllSuspended tree (accountsFollowed tree previous w)).workspace) :
    Inv r.workspace := by
  unfold detect at h
  cases previous with
  | none =>
    cases h
    exact hmarked
  | some state =>
    have hlast : Inv (followOus tree (byDepth state.ous) _).2.workspace :=
      followOus_keeps Inv hrename (byDepth state.ous) hmarked
    simp only at h
    unfold accountsFollowed recordedAccounts at hlast
    rw [h] at hlast
    exact hlast

/-- What every patch keeps, following the recorded accounts keeps. -/
theorem accountsFollowed_keeps {previous : Option PublishedState} {w : Workspace}
    (hpatch : ∀ w key p, Inv w → Inv (Workspace.updateAccount w key p).1) (hw : Inv w) :
    Inv (accountsFollowed tree previous w).workspace :=
  foldl_keeps (fun r : Amendment => Inv r.workspace)
    (fun _ before hr => followAccount_keeps Inv hpatch before hr) _ ⟨w, []⟩ hw

/-- What every patch and every renaming of a unit keep, following the organization keeps. -/
theorem detect_keeps (hpatch : ∀ w key p, Inv w → Inv (w.updateAccount key p).1)
    (hrename : ∀ w old new r, Inv w → Workspace.renameOu w old new = .ok r → Inv r.1)
    {previous : Option PublishedState} {w : Workspace} {e : Option Error} (hw : Inv w)
    (h : detect tree previous w = (e, r)) : Inv r.workspace :=
  detect_last Inv h hrename
    (markAllSuspended_keeps Inv hpatch (accountsFollowed_keeps Inv hpatch hw))

end

/-! ### Keys and options -/

/-- Two workspaces declare the same accounts. -/
def SameKeys (w w' : Workspace) : Prop :=
  ∀ s, (w'.merged.inSection s).keys = (w.merged.inSection s).keys

namespace SameKeys

variable {w w' : Workspace}

/-- Then the one declares no key in both sections if the other one does not. -/
theorem keysApart (h : SameKeys w w') (hkeys : KeysApart w.merged) : KeysApart w'.merged := by
  intro key hmandatory hworkload
  have hm : w'.merged.mandatory.keys = w.merged.mandatory.keys := h .mandatory
  have hw : w'.merged.workload.keys = w.merged.workload.keys := h .workload
  rw [hm] at hmandatory
  rw [hw] at hworkload
  exact hkeys key hmandatory hworkload

/-- A patch keeps all keys. -/
theorem updateAccount (h : SameKeys w w') (key : String) (p : AccountPatch) :
    SameKeys w (w'.updateAccount key p).1 := by
  intro s
  rw [Workspace.merged_updateAccount, KeyedMap.keys_modify]
  exact h s

/-- Renaming a unit keeps all keys of accounts. -/
theorem renameOu (h : SameKeys w w') {old new : String} {r : Workspace × Bool}
    (hr : w'.renameOu old new = .ok r) : SameKeys w r.1 := by
  refine Workspace.renameOu_keeps (fun w' => SameKeys w w') (fun _ _ _ _ h s => ?_)
    (fun w' s k h s' => ?_) h hr
  · rw [← h s]
    cases s <;> rfl
  · rw [Workspace.merged_editAccount, ← h s']
    split
    · rw [KeyedMap.keys_modify]
    · rfl

end SameKeys

/-- No account key appears or disappears. -/
theorem detect_keys {previous : Option PublishedState} {w : Workspace} {e : Option Error}
    (h : detect tree previous w = (e, r)) : SameKeys w r.workspace := by
  refine detect_keeps (SameKeys w) (fun _ key p h => h.updateAccount key p) ?_ (fun _ => rfl) h
  intro _ _ _ _ h hr
  exact h.renameOu hr

/-- The options stay. -/
theorem detect_options {previous : Option PublishedState} {w : Workspace} {e : Option Error}
    (h : detect tree previous w = (e, r)) : r.workspace.options = w.options := by
  have hedit : ∀ (v : Workspace) part key f, (v.editAccount part key f).1.options = v.options := by
    intro v part key f
    cases part <;> rfl
  refine detect_keeps (fun v => v.options = w.options) (fun _ _ _ hv => hv) ?_ rfl h
  intro v old new r hv hr
  exact Workspace.renameOu_keeps (fun v => v.options = w.options) (fun _ _ _ _ hv => hv)
    (fun v part key hv => (hedit v part key _).trans hv) hv hr

/-! ### Marks -/

/-- The declared account of a suspended account is marked: every file that declares the key has the
live name and address, and says that the account is deleted. -/
def Marked (w : Workspace) (key : String) (live : LiveAccount) : Prop :=
  ∀ s, ∀ a ∈ w.entriesAt s key, a.name = live.name ∧ a.email = live.email ∧ a.deleted = true

/-- What marks the declared account of a suspended account. -/
def mark (live : LiveAccount) : AccountPatch :=
  { name := some live.name, email := some live.email, deleted := some true }

/-- What a mark makes of an entry. -/
theorem apply_mark (live : LiveAccount) (a : AccountEntry) :
    (mark live).apply a = { a with name := live.name, email := live.email, deleted := true } := rfl

/-- A mark makes no difference to an entry iff that is marked. -/
theorem apply_mark_eq_self {live : LiveAccount} {a : AccountEntry} :
    (mark live).apply a = a ↔ a.name = live.name ∧ a.email = live.email ∧ a.deleted = true := by
  rw [apply_mark]
  constructor
  · intro h
    rw [← h]
    exact ⟨rfl, rfl, rfl⟩
  · rintro ⟨hname, hemail, hdeleted⟩
    rw [← hname, ← hemail, ← hdeleted]

/-- To mark a suspended account is to patch the declared account that its address leads to. -/
theorem markSuspended_cases (c : Configuration) (r : Amendment) (live : LiveAccount) :
    (c.accountByEmail? live.email = none ∧ markSuspended c r live = r) ∨
    ∃ d f, c.accountByEmail? live.email = some d ∧
      markSuspended c r live = r.update d.key (mark live) f := by
  unfold markSuspended
  cases h : c.accountByEmail? live.email with
  | none => exact .inl ⟨rfl, rfl⟩
  | some d => exact .inr ⟨d, _, rfl, rfl⟩

/-- A mark leaves its marks in every file. -/
theorem marked_mark (w : Workspace) (key : String) (live : LiveAccount) :
    Marked (w.updateAccount key (mark live)).1 key live := by
  intro s a ha
  rw [Workspace.entriesAt_updateAccount, if_pos rfl] at ha
  obtain ⟨b, -, rfl⟩ := List.mem_map.1 ha
  exact ⟨rfl, rfl, rfl⟩

/-- Marks under another key leave the marks alone. -/
theorem Marked.updateAccount {w : Workspace} {key k : String} {live : LiveAccount}
    (h : Marked w key live) (hne : key ≠ k) (p : AccountPatch) :
    Marked (w.updateAccount k p).1 key live := by
  intro s a ha
  rw [Workspace.entriesAt_updateAccount, if_neg hne] at ha
  exact h s a ha

/-- Pointing an account elsewhere keeps its name, its address and its mark. -/
theorem repoint_same (old new : String) (a : AccountEntry) :
    (Workspace.repoint old new a).name = a.name ∧ (Workspace.repoint old new a).email = a.email ∧
      (Workspace.repoint old new a).deleted = a.deleted := by
  unfold Workspace.repoint
  split
  · exact ⟨rfl, rfl, rfl⟩
  · exact ⟨rfl, rfl, rfl⟩

/-- What pointing an account elsewhere keeps of the entries under a key, renaming a unit keeps. -/
theorem forall_entriesAt_renameOu {P : AccountEntry → Prop} {old new : String}
    (hP : ∀ a, P a → P (Workspace.repoint old new a)) {w : Workspace} {s : AccountSection}
    {key : String} (h : ∀ a ∈ w.entriesAt s key, P a) {r : Workspace × Bool}
    (hr : w.renameOu old new = .ok r) : ∀ a ∈ r.1.entriesAt s key, P a := by
  refine Workspace.renameOu_keeps (fun w => ∀ a ∈ w.entriesAt s key, P a) (fun _ _ _ _ h => ?_)
    (fun w s' k h => ?_) h hr
  · intro a ha
    exact h a (by cases s <;> exact ha)
  · intro a ha
    rw [Workspace.entriesAt_editAccount] at ha
    split at ha
    · obtain ⟨b, hb, rfl⟩ := List.mem_map.1 ha
      exact hP b (h b hb)
    · exact h a ha

/-- Renaming a unit leaves the marks alone. -/
theorem Marked.renameOu {w : Workspace} {key : String} {live : LiveAccount} (h : Marked w key live)
    {old new : String} {r : Workspace × Bool} (hr : w.renameOu old new = .ok r) :
    Marked r.1 key live := by
  intro s
  refine forall_entriesAt_renameOu (fun a ha => ?_) (h s) hr
  obtain ⟨hname, hemail, hdeleted⟩ := repoint_same old new a
  rw [hname, hemail, hdeleted]
  exact ha

/-- Every suspended account of a list is marked, if their addresses lead to different keys. -/
theorem foldl_markSuspended_marks {c : Configuration} {as : List LiveAccount}
    (hone : ∀ a ∈ as, ∀ b ∈ as, ∀ d e, c.accountByEmail? a.email = some d →
      c.accountByEmail? b.email = some e → d.key = e.key → a = b)
    (r : Amendment) {a : LiveAccount} (ha : a ∈ as) {d : Declared}
    (hd : c.accountByEmail? a.email = some d) :
    Marked (as.foldl (markSuspended c) r).workspace d.key a := by
  refine foldl_leaves (fun r : Amendment => Marked r.workspace d.key a) ha (fun r => ?_)
    (fun r b hb hr => ?_) r
  · rcases markSuspended_cases c r a with ⟨hnone, -⟩ | ⟨e, f, he, h⟩
    · rw [hnone] at hd
      cases hd
    · rw [h, Amendment.workspace_update]
      obtain rfl : d = e := Option.some.inj (hd.symm.trans he)
      exact marked_mark _ _ _
  · -- once an account is marked, it stays so
    rcases markSuspended_cases c r b with ⟨-, h⟩ | ⟨e, f, he, h⟩
    · rw [h]
      exact hr
    · rw [h, Amendment.workspace_update]
      by_cases hkey : d.key = e.key
      · rw [hkey, hone a ha b hb d e hd he hkey]
        exact marked_mark _ _ _
      · exact hr.updateAccount hkey _

/-- Two workspaces declare the same keys with the same addresses. -/
def SameAddresses (w w' : Workspace) : Prop :=
  ∀ s, Configuration.addressesIn (w'.merged.inSection s) =
    Configuration.addressesIn (w.merged.inSection s)

/-- Then an address leads to the same key. -/
theorem SameAddresses.accountByEmail? {w w' : Workspace} (h : SameAddresses w w') (email : String) :
    (w'.merged.accountByEmail? email).map Declared.key =
      (w.merged.accountByEmail? email).map Declared.key := by
  rw [Configuration.map_key_accountByEmail?, Configuration.map_key_accountByEmail?,
    Configuration.addresses_eq, Configuration.addresses_eq]
  have hmandatory := h .mandatory
  have hworkload := h .workload
  unfold Configuration.inSection at hmandatory hworkload
  rw [hmandatory, hworkload]

/-- Marking a suspended account keeps all addresses. -/
theorem SameAddresses.markSuspended {w : Workspace} (hkeys : KeysApart w.merged)
    (h : SameAddresses w r.workspace) (live : LiveAccount) :
    SameAddresses w (markSuspended w.merged r live).workspace := by
  rcases markSuspended_cases w.merged r live with ⟨-, heq⟩ | ⟨d, f, hd, heq⟩
  · rw [heq]
    exact h
  rw [heq, Amendment.workspace_update]
  obtain ⟨hin, hemail⟩ := Configuration.accountByEmail?_spec hd
  intro s
  rw [Workspace.merged_updateAccount, Configuration.addressesIn_modify, h s]
  intro a ha
  -- the entry under the key has the address of the declared account
  have hpair : (d.key, Text.lower a.email) ∈
      Configuration.addressesIn (r.workspace.merged.inSection s) :=
    List.mem_map.2 ⟨(d.key, a), KeyedMap.get?_eq_some_iff.1 ha, rfl⟩
  rw [h s] at hpair
  obtain ⟨⟨k, b⟩, hb, heq⟩ := List.mem_map.1 hpair
  obtain ⟨rfl, hsame⟩ := Prod.mk.inj heq
  have hdeclared : (⟨d.key, b, s⟩ : Declared) ∈ w.merged.allAccounts :=
    Configuration.mem_allAccounts.2 (KeyedMap.get?_eq_some_iff.2 hb)
  have hentry := congrArg (fun e : Declared => e.entry) (hkeys.eq hdeclared hin rfl)
  change b = d.entry at hentry
  rw [apply_mark, ← hsame, hentry, hemail]

/-- Renaming a unit keeps all addresses. -/
theorem SameAddresses.renameOu {w w' : Workspace} (h : SameAddresses w w') {old new : String}
    {r : Workspace × Bool} (hr : w'.renameOu old new = .ok r) : SameAddresses w r.1 := by
  refine Workspace.renameOu_keeps (fun w' => SameAddresses w w') (fun _ _ _ _ h => ?_)
    (fun w s k h => ?_) h hr
  · intro s
    rw [← h s]
    cases s <;> rfl
  · intro s'
    rw [Workspace.merged_editAccount, ← h s']
    split
    · rw [Configuration.addressesIn_modify]
      intro a _
      rw [(repoint_same old new a).2.1]
    · rfl

/-- **The declared accounts of all suspended accounts are marked**, whatever else is amended. -/
theorem detect_marks {previous : Option PublishedState} {w : Workspace} {e : Option Error}
    (h : detect tree previous w = (e, r)) (hkeys : KeysApart w.merged)
    (hemails : ∀ a ∈ tree.accounts, ∀ b ∈ tree.accounts,
      Text.lower a.email = Text.lower b.email → a = b)
    {a : LiveAccount} (ha : a ∈ tree.accounts) (hsuspended : a.isSuspended = true) {d : Declared}
    (hd : r.workspace.merged.accountByEmail? a.email = some d) : Marked r.workspace d.key a := by
  let r₀ := accountsFollowed tree previous w
  have hkeys₀ : KeysApart r₀.workspace.merged :=
    SameKeys.keysApart
      (accountsFollowed_keeps (SameKeys w) (fun _ key p h => h.updateAccount key p) fun _ => rfl)
      hkeys
  -- the address leads to the key that it led to before the marks
  have hsame : SameAddresses r₀.workspace r.workspace := by
    refine detect_last (SameAddresses r₀.workspace) h (fun _ _ _ _ h hr => h.renameOu hr) ?_
    exact foldl_keeps (fun r : Amendment => SameAddresses r₀.workspace r.workspace)
      (fun r live hr => hr.markSuspended hkeys₀ live) _ r₀ fun _ => rfl
  obtain ⟨d₀, hd₀, hkey⟩ : ∃ d₀, r₀.workspace.merged.accountByEmail? a.email = some d₀ ∧
      d₀.key = d.key := by
    have hmap := hsame.accountByEmail? a.email
    rw [hd] at hmap
    exact Option.map_eq_some_iff.1 hmap.symm
  rw [← hkey]
  refine detect_last (fun w => Marked w d₀.key a) h (fun _ _ _ _ h hr => h.renameOu hr) ?_
  refine foldl_markSuspended_marks ?_ r₀ (List.mem_filter.2 ⟨ha, hsuspended⟩) hd₀
  -- different accounts have different addresses, so these lead to different keys
  intro b hb c hc e f he hf hef
  obtain ⟨hein, hemail⟩ := Configuration.accountByEmail?_spec he
  obtain ⟨hfin, hfmail⟩ := Configuration.accountByEmail?_spec hf
  rw [hkeys₀.eq hein hfin hef] at hemail
  exact hemails b (List.mem_of_mem_filter hb) c (List.mem_of_mem_filter hc)
    (hemail.symm.trans hfmail)

/-! ### Silence -/

/-- Where everything suspended is marked, there is nothing to mark. -/
theorem markAllSuspended_silent {w : Workspace}
    (hmarked : ∀ a ∈ tree.accounts, a.isSuspended = true → ∀ d,
      w.merged.accountByEmail? a.email = some d → Marked w d.key a) :
    markAllSuspended tree ⟨w, []⟩ = ⟨w, []⟩ := by
  refine foldl_keeps_of_mem (fun r : Amendment => r = ⟨w, []⟩) ?_ _ rfl
  rintro r a ha rfl
  obtain ⟨hin, hsuspended⟩ := List.mem_filter.1 ha
  rcases markSuspended_cases w.merged ⟨w, []⟩ a with ⟨-, h⟩ | ⟨d, f, hd, h⟩
  · exact h
  · rw [h]
    exact Amendment.update_eq_self f fun s b hb =>
      apply_mark_eq_self.2 (hmarked a hin hsuspended d hd s b hb)

/-- **Where nothing was renamed and everything suspended is marked, nothing is amended.** -/
theorem detect_silent {state : PublishedState} {w : Workspace}
    (haccounts : ∀ before ∈ state.accounts, renamed? tree before = none)
    (hmarked : ∀ a ∈ tree.accounts, a.isSuspended = true → ∀ d,
      w.merged.accountByEmail? a.email = some d → Marked w d.key a)
    (hous : ∀ before ∈ state.ous, ∀ live, tree.ouById? before.id = some live →
      live.path = before.path) :
    detect tree (some state) w = (none, ⟨w, []⟩) := by
  have hfollow : state.accounts.foldl (followAccount tree) ⟨w, []⟩ = ⟨w, []⟩ := by
    refine foldl_keeps_of_mem (fun r : Amendment => r = ⟨w, []⟩) ?_ _ rfl
    rintro r before hbefore rfl
    unfold followAccount
    rw [haccounts before hbefore]
  have hunits : ∀ ous : List CanonicalOu, (∀ before ∈ ous, before ∈ state.ous) →
      followOus tree ous ⟨w, []⟩ = (none, ⟨w, []⟩) := by
    intro ous hin
    induction ous with
    | nil => rfl
    | cons before ous ih =>
      have hstep : followOu tree ⟨w, []⟩ before = .ok ⟨w, []⟩ := by
        unfold followOu
        split
        · rfl
        · rename_i live hlive
          have hpath := hous before (hin before List.mem_cons_self) live hlive
          have hnone : newKey? before live = none := by
            unfold newKey?
            rw [if_pos hpath]
          rw [hnone]
      unfold followOus
      rw [hstep]
      exact ih fun o ho => hin o (List.mem_cons_of_mem _ ho)
  unfold detect
  simp only [hfollow, markAllSuspended_silent hmarked]
  exact hunits _ fun o ho => (Sorting.mem_sort _ _ o).1 ho

/-! ### What silence tells -/

/-- Following an account that is not noted changes nothing. -/
theorem followAccount_of_silent {before : CanonicalAccount}
    (h : (followAccount tree r before).findings = []) : followAccount tree r before = r := by
  unfold followAccount at h ⊢
  split
  · rfl
  · rename_i hrenamed
    rw [hrenamed] at h
    exact Amendment.update_eq_self _ (Amendment.apply_of_silent h)

/-- A mark that is not noted was there, and changes nothing. -/
theorem markSuspended_of_silent {c : Configuration} {a : LiveAccount}
    (h : (markSuspended c r a).findings = []) : markSuspended c r a = r ∧
      ∀ d, c.accountByEmail? a.email = some d → Marked r.workspace d.key a := by
  rcases markSuspended_cases c r a with ⟨hnone, hsame⟩ | ⟨d, f, hd, hmark⟩
  · refine ⟨hsame, fun d hd => ?_⟩
    rw [hnone] at hd
    cases hd
  · rw [hmark] at h ⊢
    have happly := Amendment.apply_of_silent h
    refine ⟨Amendment.update_eq_self f happly, fun d' hd' s b hb => ?_⟩
    obtain rfl : d = d' := Option.some.inj (hd.symm.trans hd')
    exact apply_mark_eq_self.1 (happly s b hb)

/-- A walk that notes nothing changes nothing, if none of its steps changes anything unnoted. -/
theorem foldl_of_silent {α : Type} {step : Amendment → α → Amendment}
    (hstep : ∀ r a, (step r a).findings = [] → step r a = r) {as : List α}
    (h : (as.foldl step r).findings = []) : as.foldl step r = r ∧ ∀ a ∈ as, step r a = r := by
  induction as generalizing r with
  | nil => exact ⟨rfl, fun a ha => absurd ha List.not_mem_nil⟩
  | cons a as ih =>
    rw [List.foldl_cons] at h ⊢
    obtain ⟨hsame, hrest⟩ := ih h
    rw [hsame] at h ⊢
    have hfirst := hstep r a h
    rw [hfirst] at hrest ⊢
    exact ⟨rfl, List.forall_mem_cons.2 ⟨hfirst, hrest⟩⟩

/-- Following units takes no note back. -/
theorem findings_of_followOus {ous : List CanonicalOu}
    (h : (followOus tree ous r).2.findings = []) : r.findings = [] := by
  induction ous generalizing r with
  | nil => exact h
  | cons before ous ih =>
    unfold followOus at h
    split at h
    · rename_i r' hstep
      have hnone := ih h
      simp only [followOu] at hstep
      split at hstep
      · cases hstep
        exact hnone
      split at hstep
      · cases hstep
        exact hnone
      · rename_i key _
        cases hrenamed : r.workspace.renameOu before.logicalKey key with
        | error e =>
          rw [hrenamed] at hstep
          cases hstep
        | ok renamed =>
          rw [hrenamed] at hstep
          cases hstep
          simp only at hnone
          split at hnone
          · simp [Amendment.note] at hnone
          · exact hnone
    · exact h

/-- **Where nothing is noted, every suspended account was marked.** -/
theorem detect_marked {previous : Option PublishedState} {w : Workspace} {e : Option Error}
    (h : detect tree previous w = (e, r)) (hsilent : r.findings = []) {a : LiveAccount}
    (ha : a ∈ tree.accounts) (hsuspended : a.isSuspended = true) {d : Declared}
    (hd : w.merged.accountByEmail? a.email = some d) : Marked w d.key a := by
  have hmarks : ∀ q : Amendment, (markAllSuspended tree q).findings = [] →
      q.findings = [] ∧ (q.workspace = w → Marked w d.key a) := by
    intro q hnone
    obtain ⟨hsame, hsteps⟩ :=
      foldl_of_silent (fun r a h => (markSuspended_of_silent h).1) hnone
    unfold markAllSuspended at hnone
    rw [hsame] at hnone
    refine ⟨hnone, fun hw => ?_⟩
    have hstep := hsteps a (List.mem_filter.2 ⟨ha, hsuspended⟩)
    have hmark := (markSuspended_of_silent (by rw [hstep]; exact hnone)).2 d
    rw [hw] at hmark
    exact hmark hd
  unfold detect at h
  cases previous with
  | none =>
    cases h
    exact (hmarks ⟨w, []⟩ hsilent).2 rfl
  | some state =>
    simp only at h
    have hlast : (followOus tree (byDepth state.ous) (markAllSuspended tree
        (state.accounts.foldl (followAccount tree) ⟨w, []⟩))).2.findings = [] := by
      rw [h]
      exact hsilent
    obtain ⟨hnone, hmarked⟩ := hmarks _ (findings_of_followOus hlast)
    have hsame := (foldl_of_silent (fun r before h => followAccount_of_silent h) hnone).1
    exact hmarked (by rw [hsame])

end OrgAlign.Drift
