import OrgAlign.Proofs.Config.Repoint
import OrgAlign.Proofs.Drift.Moves

/-!
# Following the organization again

The same organization and the same records may be followed again, by a run after one that did not
get to publish its state. Main statements:

* `detect_upToDate`: every renamed account has its live name and address afterwards;
* `detect_again_eq`: so following accounts again finds nothing, and only the units are left;
* `followOus_silent_iff`: nothing is found there iff no move has anything to catch;
* `followOus_rid`: where units moved apart from each other's recorded places, nothing is left there;
* `detect_again`: both together;
* `detect_again_nests`: a unit that moved below its own recorded place is followed again.
-/

namespace OrgAlign.Drift

open Config Org

variable {tree : OrgTree} {r r' : Amendment}

/-! ### Accounts -/

/-- The entries under a key have the address of a live account, and its name as far as that is
followed. -/
def UpToDate (w : Workspace) (key : String) (live : LiveAccount) (renamed : Bool) : Prop :=
  ∀ s, ∀ a ∈ w.entriesAt s key, (renamed = true → a.name = live.name) ∧ a.email = live.email

/-- What brings an entry up to date. -/
def following (live : LiveAccount) (renamed : Bool) : AccountPatch :=
  { name := if renamed then some live.name else none, email := some live.email }

/-- What following an account makes of an entry is up to date. -/
theorem apply_following (live : LiveAccount) (renamed : Bool) (a : AccountEntry) :
    (renamed = true → ((following live renamed).apply a).name = live.name) ∧
      ((following live renamed).apply a).email = live.email := by
  refine ⟨?_, rfl⟩
  rintro rfl
  rfl

/-- Following an account makes no difference to an entry that is up to date. -/
theorem apply_following_eq_self {live : LiveAccount} {renamed : Bool} {a : AccountEntry}
    (hname : renamed = true → a.name = live.name) (hemail : a.email = live.email) :
    (following live renamed).apply a = a := by
  obtain ⟨name, email⟩ := a
  cases hemail
  cases renamed with
  | false => rfl
  | true =>
    cases hname rfl
    rfl

/-- To follow an account is to patch the entries under its key, if it was renamed. -/
theorem followAccount_cases (tree : OrgTree) (r : Amendment) (before : CanonicalAccount) :
    (renamed? tree before = none ∧ followAccount tree r before = r) ∨
    ∃ live renamed f, renamed? tree before = some (live, renamed) ∧
      followAccount tree r before = r.update before.key (following live renamed) f := by
  unfold followAccount
  cases h : renamed? tree before with
  | none => exact .inl ⟨rfl, rfl⟩
  | some found => exact .inr ⟨found.1, found.2, _, rfl, rfl⟩

/-- A renamed account is live and not suspended. -/
theorem renamed?_spec {before : CanonicalAccount} {live : LiveAccount} {renamed : Bool}
    (h : renamed? tree before = some (live, renamed)) :
    live ∈ tree.accounts ∧ live.isSuspended = false := by
  obtain ⟨a, ha, h⟩ := Option.bind_eq_some_iff.1 h
  obtain ⟨id, -, hfind⟩ := Option.bind_eq_some_iff.1 ha
  simp only at h
  split at h
  · cases h
  · rename_i hstays
    cases h
    rw [Bool.or_eq_true, not_or, Bool.not_eq_true] at hstays
    unfold OrgTree.accountById? at hfind
    exact ⟨List.mem_of_find?_eq_some hfind, hstays.1⟩

/-- Entries stay up to date under patches of other keys. -/
theorem UpToDate.updateAccount {w : Workspace} {key k : String} {live : LiveAccount}
    {renamed : Bool} (h : UpToDate w key live renamed) (hne : key ≠ k) (p : AccountPatch) :
    UpToDate (w.updateAccount k p).1 key live renamed := by
  intro s a ha
  rw [Workspace.entriesAt_updateAccount, if_neg hne] at ha
  exact h s a ha

/-- Following the recorded accounts brings the entries of all renamed ones up to date. -/
theorem foldl_followAccount_upToDate {accounts : List CanonicalAccount}
    (hids : (accounts.map CanonicalAccount.key).Nodup) (r : Amendment) {before : CanonicalAccount}
    (hbefore : before ∈ accounts) {live : LiveAccount} {renamed : Bool}
    (hrenamed : renamed? tree before = some (live, renamed)) :
    UpToDate (accounts.foldl (followAccount tree) r).workspace before.key live renamed := by
  have hdone : ∀ r, UpToDate (followAccount tree r before).workspace before.key live renamed := by
    intro r
    rcases followAccount_cases tree r before with ⟨hnone, -⟩ | ⟨live', renamed', f, hsome, h⟩
    · rw [hnone] at hrenamed
      cases hrenamed
    · obtain ⟨rfl, rfl⟩ := Prod.mk.inj (Option.some.inj (hrenamed.symm.trans hsome))
      rw [h, Amendment.workspace_update]
      intro s a ha
      rw [Workspace.entriesAt_updateAccount, if_pos rfl] at ha
      obtain ⟨b, -, rfl⟩ := List.mem_map.1 ha
      exact apply_following live renamed b
  refine foldl_leaves (fun r : Amendment => UpToDate r.workspace before.key live renamed) hbefore
    hdone (fun r other hother hr => ?_) r
  by_cases hkey : before.key = other.key
  · rw [← List.inj_on_of_nodup_map hids hbefore hother hkey]
    exact hdone r
  · rcases followAccount_cases tree r other with ⟨-, h⟩ | ⟨_, _, f, -, h⟩
    · rw [h]
      exact hr
    · rw [h, Amendment.workspace_update]
      exact hr.updateAccount hkey _

/-- Marks leave entries up to date: the address of a live account does not lead a suspended one to
its entries. -/
theorem UpToDate.markAllSuspended {key : String} {live : LiveAccount} {renamed : Bool}
    (h : UpToDate r.workspace key live renamed) (hlive : live ∈ tree.accounts)
    (hactive : live.isSuspended = false) (hemails : ∀ a ∈ tree.accounts, ∀ b ∈ tree.accounts,
      Text.lower a.email = Text.lower b.email → a = b) :
    UpToDate (Drift.markAllSuspended tree r).workspace key live renamed := by
  refine foldl_keeps_of_mem (fun q : Amendment => UpToDate q.workspace key live renamed) ?_ r h
  intro q a ha hq
  obtain ⟨hin, hsuspended⟩ := List.mem_filter.1 ha
  rcases markSuspended_cases r.workspace.merged q a with ⟨-, heq⟩ | ⟨d, f, hd, heq⟩
  · rw [heq]
    exact hq
  rw [heq, Amendment.workspace_update]
  refine hq.updateAccount (fun hkey => ?_) _
  obtain ⟨hdeclared, hemail⟩ := Configuration.accountByEmail?_spec hd
  have hentry : d.entry ∈ r.workspace.entriesAt d.origin key := by
    rw [hkey]
    refine Shelf.mem_entriesAt_of_merged ?_
    rw [← Workspace.inSection_merged]
    exact Configuration.mem_allAccounts.1 hdeclared
  rw [(h d.origin d.entry hentry).2] at hemail
  rw [hemails live hlive a hin hemail, hsuspended] at hactive
  cases hactive

/-- Renaming a unit leaves entries up to date. -/
theorem UpToDate.renameOu {w : Workspace} {key : String} {live : LiveAccount} {renamed : Bool}
    (h : UpToDate w key live renamed) {old new : String} {r : Workspace × Bool}
    (hr : w.renameOu old new = .ok r) : UpToDate r.1 key live renamed := by
  intro s
  refine forall_entriesAt_renameOu (fun a ha => ?_) (h s) hr
  obtain ⟨hname, hemail, -⟩ := repoint_same old new a
  rw [hname, hemail]
  exact ha

section

variable {state : PublishedState} {w : Workspace} {e : Option Error}

/-- **Every renamed account has its live name and address afterwards**, in every file. -/
theorem detect_upToDate (h : detect tree (some state) w = (e, r))
    (hids : (state.accounts.map CanonicalAccount.key).Nodup)
    (hemails : ∀ a ∈ tree.accounts, ∀ b ∈ tree.accounts,
      Text.lower a.email = Text.lower b.email → a = b)
    {before : CanonicalAccount} (hbefore : before ∈ state.accounts) {live : LiveAccount}
    {renamed : Bool} (hrenamed : renamed? tree before = some (live, renamed)) :
    UpToDate r.workspace before.key live renamed := by
  obtain ⟨hlive, hactive⟩ := renamed?_spec hrenamed
  have hfollowed : UpToDate (accountsFollowed tree (some state) w).workspace before.key live
      renamed := foldl_followAccount_upToDate hids ⟨w, []⟩ hbefore hrenamed
  exact detect_last (fun w => UpToDate w before.key live renamed) h
    (fun _ _ _ _ h hr => h.renameOu hr) (hfollowed.markAllSuspended hlive hactive hemails)

/-- **Following accounts again finds nothing**: only the units are left to follow. -/
theorem detect_again_eq (h : detect tree (some state) w = (e, r)) (hkeys : KeysApart w.merged)
    (hids : (state.accounts.map CanonicalAccount.key).Nodup)
    (hemails : ∀ a ∈ tree.accounts, ∀ b ∈ tree.accounts,
      Text.lower a.email = Text.lower b.email → a = b) :
    detect tree (some state) r.workspace =
      followOus tree (byDepth state.ous) ⟨r.workspace, []⟩ := by
  have hfollow : state.accounts.foldl (followAccount tree) ⟨r.workspace, []⟩ =
      ⟨r.workspace, []⟩ := by
    refine foldl_keeps_of_mem (fun q : Amendment => q = ⟨r.workspace, []⟩) ?_ _ rfl
    rintro q before hbefore rfl
    rcases followAccount_cases tree ⟨r.workspace, []⟩ before with
      ⟨-, heq⟩ | ⟨live, renamed, f, hrenamed, heq⟩
    · exact heq
    · have hdone := detect_upToDate h hids hemails hbefore hrenamed
      rw [heq]
      exact Amendment.update_eq_self f fun s a ha =>
        apply_following_eq_self (hdone s a ha).1 (hdone s a ha).2
  have hmark : markAllSuspended tree ⟨r.workspace, []⟩ = ⟨r.workspace, []⟩ :=
    markAllSuspended_silent fun _ ha hsuspended _ hd =>
      detect_marks h hkeys hemails ha hsuspended hd
  conv_lhs => unfold detect
  simp only [hfollow, hmark]

end

/-! ### Units -/

/-- What becomes of the key of a recorded unit that moved, if anything. -/
def renaming? (tree : OrgTree) (before : CanonicalOu) : Option Renaming :=
  (tree.ouById? before.id).bind fun live => (newKey? before live).bind fun key =>
    if before.logicalKey = key then none else some (before.logicalKey, key)

/-- What becomes of the keys of the recorded units. -/
def followed (tree : OrgTree) : Option PublishedState → List Renaming
  | none => []
  | some state => state.ous.filterMap (renaming? tree)

/-- To follow a unit is to rename its key. -/
theorem followOu_cases (tree : OrgTree) (r : Amendment) (before : CanonicalOu) :
    (renaming? tree before = none ∧ followOu tree r before = .ok r) ∨
    ∃ m f, renaming? tree before = some m ∧ m.1 ≠ m.2 ∧
      followOu tree r before = (r.workspace.renameOu m.1 m.2).map fun x =>
        if x.2 then Amendment.note ⟨x.1, r.findings⟩ f else ⟨x.1, r.findings⟩ := by
  unfold renaming? followOu
  cases tree.ouById? before.id with
  | none => exact .inl ⟨rfl, rfl⟩
  | some live =>
    simp only [Option.bind_some]
    cases newKey? before live with
    | none => exact .inl ⟨rfl, rfl⟩
    | some key =>
      simp only [Option.bind_some]
      by_cases hsame : before.logicalKey = key
      · refine .inl ⟨if_pos hsame, ?_⟩
        unfold Workspace.renameOu
        rw [if_pos hsame]
        rfl
      · exact .inr ⟨(before.logicalKey, key), _, if_neg hsame, hsame, rfl⟩

/-- Following a unit finds nothing iff its move has nothing to catch, and then nothing changes. -/
theorem followOu_silent_iff {before : CanonicalOu} {w w' : Workspace} :
    followOu tree ⟨w, []⟩ before = .ok ⟨w', []⟩ ↔
      w' = w ∧ ∀ m, renaming? tree before = some m → w.Clear m.1 m.2 := by
  rcases followOu_cases tree ⟨w, []⟩ before with ⟨hnone, hstep⟩ | ⟨m, f, hsome, hne, hstep⟩
  · rw [hstep, hnone]
    simp [eq_comm]
  rw [hstep]
  constructor
  · intro h
    cases hrenamed : w.renameOu m.1 m.2 with
    | error e =>
      rw [hrenamed] at h
      cases h
    | ok renamed =>
      obtain ⟨w₁, changed⟩ := renamed
      rw [hrenamed] at h
      cases changed with
      | true => simp [Except.map, Amendment.note] at h
      | false =>
        obtain ⟨rfl, hclear⟩ := Workspace.renameOu_of_unchanged hne hrenamed
        cases h
        refine ⟨rfl, fun m' hm' => ?_⟩
        rw [hsome] at hm'
        exact Option.some.inj hm' ▸ hclear
  · rintro ⟨rfl, hclear⟩
    rw [Workspace.renameOu_eq_self (hclear m hsome)]
    rfl

/-- To follow units without a conflict is to follow the first and then the others. -/
theorem followOus_cons {before : CanonicalOu} {ous : List CanonicalOu} :
    followOus tree (before :: ous) r = (none, r') ↔
      ∃ r₁, followOu tree r before = .ok r₁ ∧ followOus tree ous r₁ = (none, r') := by
  conv_lhs => unfold followOus
  cases followOu tree r before with
  | ok r₁ => simp
  | error e => simp

/-- **Following units finds nothing iff no move has anything to catch.** -/
theorem followOus_silent_iff {ous : List CanonicalOu} {w : Workspace} :
    followOus tree ous ⟨w, []⟩ = (none, ⟨w, []⟩) ↔
      ∀ m ∈ ous.filterMap (renaming? tree), w.Clear m.1 m.2 := by
  induction ous with
  | nil => simp [followOus]
  | cons before ous ih =>
    have hmoves : (∀ m ∈ (before :: ous).filterMap (renaming? tree), w.Clear m.1 m.2) ↔
        (∀ m, renaming? tree before = some m → w.Clear m.1 m.2) ∧
          ∀ m ∈ ous.filterMap (renaming? tree), w.Clear m.1 m.2 := by
      simp [or_imp, forall_and]
    rw [hmoves, ← ih, followOus_cons]
    constructor
    · rintro ⟨⟨w₁, findings⟩, hfirst, hrest⟩
      have hnone : findings = [] := findings_of_followOus (congrArg (fun x => x.2.findings) hrest)
      subst hnone
      obtain ⟨rfl, hclear⟩ := followOu_silent_iff.1 hfirst
      exact ⟨hclear, hrest⟩
    · rintro ⟨hclear, hrest⟩
      exact ⟨⟨w, []⟩, followOu_silent_iff.2 ⟨rfl, hclear⟩, hrest⟩

/-- Following a unit leaves nothing where it was recorded, and nothing at or below a place that
nothing was declared at, as far as the unit is apart from there. -/
theorem followOu_rid {before : CanonicalOu} (h : followOu tree r before = .ok r') {path : String}
    (hapart : ∀ m, renaming? tree before = some m →
      Path.Proper m.2 ∧ Apart m.2 m.1 ∧ Apart m.2 path)
    (hrid : r.workspace.Rid path ∨ ∃ new, renaming? tree before = some (path, new)) :
    r'.workspace.Rid path := by
  rcases followOu_cases tree r before with ⟨hnone, hstep⟩ | ⟨m, f, hsome, hne, hstep⟩
  · rw [hstep] at h
    cases h
    refine hrid.resolve_right ?_
    rintro ⟨new, hsome⟩
    rw [hnone] at hsome
    cases hsome
  · rw [hstep] at h
    cases hrenamed : r.workspace.renameOu m.1 m.2 with
    | error e =>
      rw [hrenamed] at h
      cases h
    | ok renamed =>
      obtain ⟨hproper, hold, hpath⟩ := hapart m hsome
      have hgone : renamed.1.Rid path := by
        refine Workspace.rid_renameOu hne hproper hold hrenamed hpath ?_
        refine hrid.symm.imp_left ?_
        rintro ⟨new, hm⟩
        rw [hsome] at hm
        rw [Option.some.inj hm]
      rw [hrenamed] at h
      cases h
      simp only
      split <;> exact hgone

/-- **Where units moved apart from a recorded place, following them leaves nothing there**, if one
of them was there. -/
theorem followOus_rid {ous : List CanonicalOu} (h : followOus tree ous r = (none, r'))
    {path : String} (hapart : ∀ before ∈ ous, ∀ m, renaming? tree before = some m →
      Path.Proper m.2 ∧ Apart m.2 m.1 ∧ Apart m.2 path)
    (hrid : r.workspace.Rid path ∨ ∃ before ∈ ous, ∃ new,
      renaming? tree before = some (path, new)) : r'.workspace.Rid path := by
  induction ous generalizing r with
  | nil =>
    cases h
    exact hrid.resolve_right fun ⟨_, hin, _⟩ => List.not_mem_nil hin
  | cons before ous ih =>
    obtain ⟨r₁, hfirst, hrest⟩ := followOus_cons.1 h
    obtain ⟨hhere, hothers⟩ := List.forall_mem_cons.1 hapart
    refine ih hrest hothers ?_
    rcases hrid with hrid | ⟨other, hother, new, hsome⟩
    · exact .inl (followOu_rid hfirst hhere (.inl hrid))
    · rcases List.mem_cons.1 hother with rfl | hother
      · exact .inl (followOu_rid hfirst hhere (.inr ⟨new, hsome⟩))
      · exact .inr ⟨other, hother, new, hsome⟩

/-! ### All of it -/

/-- Renamings that lead to proper paths apart from all places that something is renamed from. -/
def Parted (ms : List Renaming) : Prop :=
  ∀ m ∈ ms, Path.Proper m.2 ∧ ∀ other ∈ ms, Apart m.2 other.1

/-- **Following the organization again finds nothing and changes nothing iff no recorded unit that
moved has anything to catch any more**, and it has not where all of them moved apart from the
recorded places. Accounts are never found again. -/
theorem detect_again {previous : Option PublishedState} {w : Workspace}
    (h : detect tree previous w = (none, r)) (hkeys : KeysApart w.merged)
    (hids : ∀ state, previous = some state → (state.accounts.map CanonicalAccount.key).Nodup)
    (hemails : ∀ a ∈ tree.accounts, ∀ b ∈ tree.accounts,
      Text.lower a.email = Text.lower b.email → a = b) :
    (detect tree previous r.workspace = (none, ⟨r.workspace, []⟩) ↔
        ∀ m ∈ followed tree previous, r.workspace.Clear m.1 m.2) ∧
      (Parted (followed tree previous) →
        detect tree previous r.workspace = (none, ⟨r.workspace, []⟩)) := by
  cases previous with
  | none =>
    have hagain : detect tree none r.workspace = (none, ⟨r.workspace, []⟩) :=
      congrArg (Prod.mk none) (markAllSuspended_silent fun _ ha hsuspended _ hd =>
        detect_marks h hkeys hemails ha hsuspended hd)
    exact ⟨iff_of_true hagain fun m hm => absurd hm List.not_mem_nil, fun _ => hagain⟩
  | some state =>
    have hmem : ∀ m, m ∈ followed tree (some state) ↔
        m ∈ (byDepth state.ous).filterMap (renaming? tree) := by
      intro m
      unfold followed byDepth
      simp only [List.mem_filterMap, Sorting.mem_sort]
    have hexact : detect tree (some state) r.workspace = (none, ⟨r.workspace, []⟩) ↔
        ∀ m ∈ followed tree (some state), r.workspace.Clear m.1 m.2 := by
      rw [detect_again_eq h hkeys (hids state rfl) hemails, followOus_silent_iff]
      simp only [hmem]
    refine ⟨hexact, fun hparted => hexact.2 fun m hm => Workspace.Rid.clear ?_ m.2⟩
    -- the units are followed to places apart from this one, and one of them was there
    unfold detect at h
    refine followOus_rid h (fun before hbefore m' hm' => ?_) (.inr ?_)
    · have hin : m' ∈ followed tree (some state) :=
        (hmem m').2 (List.mem_filterMap.2 ⟨before, hbefore, hm'⟩)
      obtain ⟨hproper, hapart⟩ := hparted m' hin
      exact ⟨hproper, hapart m' hin, hapart m hm⟩
    · obtain ⟨before, hbefore, hsome⟩ := List.mem_filterMap.1 ((hmem m).1 hm)
      exact ⟨before, hbefore, m.2, hsome⟩

/-- The units `A`, `A/X` and `C`, recorded with an account in `A/X`. -/
def recordedAccount : PublishedState :=
  { recordedUnits with accounts := [⟨"a", some "1", "Al", "a@x", "A", "A/X", false, none⟩] }

/-- A configuration that declares this account in two files, and another one in `C`. -/
def declaredAccounts : Workspace :=
  { declaredUnits with
    workload := ⟨.load ["w.yaml", "more.yaml"],
      [⟨"w.yaml", .ofList [("a", { name := "Al", email := "a@x", ou := "A", ouPath := some "A/X" }),
          ("b", { name := "Bo", email := "b@x", ou := "C" })], false⟩,
        ⟨"more.yaml", .ofList [("a", { name := "Al", email := "A@x", ou := "A" })], false⟩]⟩ }

/-- The units are called differently now, and so is the account. The other one is suspended. -/
def renamedAccount : OrgTree :=
  { renamedUnits with buckets :=
      [("ou-2", [⟨"1", "Alma", "alma@x", .active, "ou-2"⟩]),
        ("ou-3", [⟨"2", "Bo", "B@x", .suspended, "ou-3"⟩])] }

/-- An account and two units that were renamed and an account that was suspended are followed
once. -/
theorem detect_again_renamed_units :
    KeysApart declaredAccounts.merged ∧
      (∀ state, some recordedAccount = some state →
        (state.accounts.map CanonicalAccount.key).Nodup) ∧
      (∀ a ∈ renamedAccount.accounts, ∀ b ∈ renamedAccount.accounts,
        Text.lower a.email = Text.lower b.email → a = b) ∧
      Parted (followed renamedAccount (some recordedAccount)) ∧
      ∃ r, detect renamedAccount (some recordedAccount) declaredAccounts = (none, r) ∧
        r.findings.map Finding.subject = ["a", "b", "C", "A"] ∧
        detect renamedAccount (some recordedAccount) r.workspace = (none, ⟨r.workspace, []⟩) := by
  have hkeys : KeysApart declaredAccounts.merged := by decide +kernel
  have hids : ∀ state, some recordedAccount = some state →
      (state.accounts.map CanonicalAccount.key).Nodup := by
    rintro state ⟨⟩
    decide
  have hemails : ∀ a ∈ renamedAccount.accounts, ∀ b ∈ renamedAccount.accounts,
      Text.lower a.email = Text.lower b.email → a = b := by decide +kernel
  have hparted : Parted (followed renamedAccount (some recordedAccount)) := by
    unfold Parted Path.Proper
    decide +kernel
  have hrun : (detect renamedAccount (some recordedAccount) declaredAccounts).1 = none := by
    decide +kernel
  exact ⟨hkeys, hids, hemails, hparted, _, Prod.ext hrun rfl, by decide +kernel,
    (detect_again (Prod.ext hrun rfl) hkeys hids hemails).2 hparted⟩

/-- The unit that was recorded as `A` is called `B` now, and lies below another one called `A`. -/
def movedBelow : OrgTree := ⟨"r-1", [⟨"ou-2", "A", "r-1", "A"⟩, ⟨"ou-1", "B", "ou-2", "A/B"⟩], []⟩

/-- The unit's record. -/
def recordedAbove : PublishedState := { recordedUnits with ous := [⟨"ou-1", "A", "A", "A"⟩] }

/-- A configuration that declares the unit. -/
def declaredAbove : Workspace := { declaredUnits with ous := ⟨.inline (.ofList [("A", {})]), []⟩ }

/-- Following the unit takes its key to `A/B`, which is below `A`, so that following it again takes
the key to `A/B/B`. -/
theorem detect_again_nests :
    KeysApart declaredAbove.merged ∧ movedBelow.accounts = [] ∧ recordedAbove.accounts = [] ∧
      (recordedAbove.ous.map CanonicalOu.id).Nodup ∧
      ∃ r r', detect movedBelow (some recordedAbove) declaredAbove = (none, r) ∧
        r.workspace.ous.keys = ["A/B"] ∧
        detect movedBelow (some recordedAbove) r.workspace = (none, r') ∧
        r'.findings.map Finding.subject = ["A"] ∧ r'.workspace.ous.keys = ["A/B/B"] := by
  have hrun : (detect movedBelow (some recordedAbove) declaredAbove).1 = none := by decide +kernel
  have hagain : (detect movedBelow (some recordedAbove)
      (detect movedBelow (some recordedAbove) declaredAbove).2.workspace).1 = none := by
    decide +kernel
  exact ⟨by decide +kernel, by decide, by decide, by decide, _, _, Prod.ext hrun rfl,
    by decide +kernel, Prod.ext hagain rfl, by decide +kernel, by decide +kernel⟩

end OrgAlign.Drift
