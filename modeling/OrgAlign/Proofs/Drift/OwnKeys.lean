import OrgAlign.Proofs.Drift.Repeated

/-!
# Renamed accounts and their own keys

Recorded accounts that the organization calls differently now are followed one after the other,
each under its own key, and only then the suspended accounts are looked up by their addresses, some
of which were just rewritten. Main statements:

* `renamed?_eq_some_iff`: which recorded accounts are followed;
* `accountsFollowed_entries`: following them leaves other keys alone;
* `markAllSuspended_entries`: a mark is made under a key to which the address of a suspended account
  leads;
* `detect_own_keys`: both together, whoever took over whose address.
-/

namespace OrgAlign.Drift

open Config Org

variable {tree : OrgTree} {r : Amendment} {previous : Option PublishedState} {w : Workspace}
  {key : String}

/-! ### Who is followed -/

/-- A recorded account is live, not suspended, and has another address now, or another name that it
does not keep to itself. -/
structure CalledDifferently (tree : OrgTree) (before : CanonicalAccount) (live : LiveAccount) :
    Prop where
  /-- The organization has the live account. -/
  mem : live ∈ tree.accounts
  /-- It is the recorded one. -/
  recorded : before.cloudId = some live.id
  /-- It is not suspended. -/
  active : live.isSuspended = false
  /-- Its address or its name is another one. -/
  differs : Text.lower live.email ≠ Text.lower before.email ∨
    before.role ≠ some .primary ∧ live.name ≠ before.name

/-- The name of a recorded account is followed. -/
def followsName (before : CanonicalAccount) (live : LiveAccount) : Bool :=
  !keepsName before && live.name ≠ before.name

theorem followsName_iff {before : CanonicalAccount} {live : LiveAccount} :
    followsName before live = true ↔ before.role ≠ some .primary ∧ live.name ≠ before.name := by
  unfold followsName keepsName
  simp

/-- Those recorded accounts are followed that are called differently. -/
theorem renamed?_eq_some_iff (hids : (tree.accounts.map LiveAccount.id).Nodup)
    {before : CanonicalAccount} {live : LiveAccount} {renamed : Bool} :
    renamed? tree before = some (live, renamed) ↔
      CalledDifferently tree before live ∧ renamed = followsName before live := by
  have hfound : before.cloudId.bind tree.accountById? = some live ↔
      live ∈ tree.accounts ∧ before.cloudId = some live.id := by
    unfold OrgTree.accountById?
    rw [Option.bind_eq_some_iff]
    constructor
    · rintro ⟨id, hid, hfind⟩
      have hsame : live.id = id := by simpa using List.find?_some hfind
      exact ⟨List.mem_of_find?_eq_some hfind, hsame ▸ hid⟩
    · rintro ⟨hlive, hid⟩
      exact ⟨live.id, hid, find?_of_nodup hids hlive⟩
  have hdiffers : ∀ l : LiveAccount,
      (l.isSuspended || (!followsName before l && Text.sameIgnoringCase l.email before.email)) =
        false ↔ l.isSuspended = false ∧ (Text.lower l.email ≠ Text.lower before.email ∨
          before.role ≠ some .primary ∧ l.name ≠ before.name) := by
    intro l
    rw [Bool.or_eq_false_iff, Bool.and_eq_false_iff, Bool.not_eq_false', followsName_iff,
      ← Bool.not_eq_true (Text.sameIgnoringCase _ _), Text.sameIgnoringCase_iff,
      or_comm (a := _ ∧ _)]
  change (before.cloudId.bind tree.accountById?).bind (fun l =>
      if l.isSuspended || (!followsName before l && Text.sameIgnoringCase l.email before.email)
      then none else some (l, followsName before l)) = some (live, renamed) ↔ _
  rw [Option.bind_eq_some_iff]
  constructor
  · rintro ⟨l, hl, h⟩
    split at h
    · cases h
    · rename_i hactive
      cases h
      obtain ⟨hmem, hid⟩ := hfound.1 hl
      obtain ⟨hactive, hdiffer⟩ := (hdiffers live).1 (Bool.not_eq_true _ ▸ hactive)
      exact ⟨⟨hmem, hid, hactive, hdiffer⟩, rfl⟩
  · rintro ⟨h, rfl⟩
    refine ⟨live, hfound.2 ⟨h.mem, h.recorded⟩, ?_⟩
    rw [(hdiffers live).2 ⟨h.active, h.differs⟩]
    rfl

/-! ### Other keys -/

/-- No recorded account with this key is called differently. -/
def StandsStill (tree : OrgTree) (previous : Option PublishedState) (key : String) : Prop :=
  ∀ before ∈ recordedAccounts previous, before.key = key →
    ∀ live, ¬ CalledDifferently tree before live

/-- What following a recorded account keeps under another key: whatever patches of other keys
keep. -/
theorem accountsFollowed_other (Inv : Workspace → Prop)
    (hids : (tree.accounts.map LiveAccount.id).Nodup) (hstill : StandsStill tree previous key)
    (hpatch : ∀ v k p, key ≠ k → Inv v → Inv (Workspace.updateAccount v k p).1) (hw : Inv w) :
    Inv (accountsFollowed tree previous w).workspace := by
  refine foldl_keeps_of_mem (fun q : Amendment => Inv q.workspace) (fun q before hbefore hq => ?_)
    ⟨w, []⟩ hw
  rcases followAccount_cases tree q before with ⟨-, hsame⟩ | ⟨live, renamed, f, hsome, hstep⟩
  · rw [hsame]
    exact hq
  · rw [hstep, Amendment.workspace_update]
    refine hpatch _ _ _ (fun hkey => ?_) hq
    exact hstill before hbefore hkey.symm live ((renamed?_eq_some_iff hids).1 hsome).1

/-- Following the recorded accounts leaves the entries under other keys alone. -/
theorem accountsFollowed_entries (hids : (tree.accounts.map LiveAccount.id).Nodup)
    (hstill : StandsStill tree previous key) (s : AccountSection) :
    (accountsFollowed tree previous w).workspace.entriesAt s key = w.entriesAt s key := by
  refine accountsFollowed_other (fun v => v.entriesAt s key = w.entriesAt s key) hids hstill
    (fun v k p hne hv => ?_) rfl
  rw [Workspace.entriesAt_updateAccount, if_neg hne, hv]

/-- So it does in the merged view. -/
theorem accountsFollowed_declared (hids : (tree.accounts.map LiveAccount.id).Nodup)
    {d : Declared} (hstill : StandsStill tree previous d.key) :
    d ∈ (accountsFollowed tree previous w).workspace.merged.allAccounts ↔
      d ∈ w.merged.allAccounts := by
  have hsame : ((accountsFollowed tree previous w).workspace.merged.inSection d.origin).get? d.key =
      (w.merged.inSection d.origin).get? d.key := by
    refine accountsFollowed_other (fun v => (v.merged.inSection d.origin).get? d.key =
      (w.merged.inSection d.origin).get? d.key) hids hstill (fun v k p hne hv => ?_) rfl
    rw [Workspace.merged_updateAccount, KeyedMap.get?_modify, if_neg hne, hv]
  rw [Configuration.mem_allAccounts, Configuration.mem_allAccounts, hsame]

/-- Marks are made under keys to which the address of a suspended account leads. -/
theorem markAllSuspended_entries (hstays : ∀ live ∈ tree.accounts, live.isSuspended = true →
      ∀ d, r.workspace.merged.accountByEmail? live.email = some d → d.key ≠ key)
    (s : AccountSection) :
    (markAllSuspended tree r).workspace.entriesAt s key = r.workspace.entriesAt s key := by
  refine foldl_keeps_of_mem
    (fun q : Amendment => q.workspace.entriesAt s key = r.workspace.entriesAt s key)
    (fun q live hlive hq => ?_) r rfl
  obtain ⟨hmem, hsuspended⟩ := List.mem_filter.1 hlive
  rcases markSuspended_cases r.workspace.merged q live with ⟨-, hsame⟩ | ⟨d, f, hd, hstep⟩
  · rw [hsame, hq]
  · rw [hstep, Amendment.workspace_update, Workspace.entriesAt_updateAccount,
      if_neg (hstays live hmem hsuspended d hd).symm, hq]

/-- What the organization has to do with of an entry: its name, its address and its mark. -/
def identity (a : AccountEntry) : String × String × Bool := (a.name, a.email, a.deleted)

/-- Renaming a unit keeps the identities of all entries. -/
theorem identity_renameOu {old new : String} {x : Workspace × Bool} (h : w.renameOu old new = .ok x)
    (s : AccountSection) (key : String) :
    (x.1.entriesAt s key).map identity = (w.entriesAt s key).map identity := by
  refine Workspace.renameOu_keeps
    (fun v => (v.entriesAt s key).map identity = (w.entriesAt s key).map identity)
    (fun v ous deleted rootDirty hv => ?_) (fun v s' k hv => ?_) rfl h
  · rw [← hv]
    cases s <;> rfl
  · rw [Workspace.entriesAt_editAccount]
    split
    · rw [List.map_map, ← hv]
      refine List.map_congr_left fun a _ => ?_
      obtain ⟨hname, hemail, hdeleted⟩ := repoint_same old new a
      unfold identity
      rw [Function.comp_apply, hname, hemail, hdeleted]
    · exact hv

/-- No entry of an account appears or disappears. -/
theorem length_entriesAt_detect {e : Option Error} (h : detect tree previous w = (e, r))
    (s : AccountSection) (key : String) :
    (r.workspace.entriesAt s key).length = (w.entriesAt s key).length := by
  refine detect_keeps (fun v => (v.entriesAt s key).length = (w.entriesAt s key).length)
    (fun v k p hv => ?_) (fun v old new x hv hx => ?_) rfl h
  · rw [Workspace.entriesAt_updateAccount]
    split
    · rw [List.length_map, hv]
    · exact hv
  · have hidentities := congrArg List.length (identity_renameOu hx s key)
    rw [List.length_map, List.length_map] at hidentities
    exact hidentities.trans hv

/-! ### All of it -/

/-- The declared account `d` is the one of a suspended account: the address of that leads to it once
the recorded accounts are followed. -/
structure Suspends (tree : OrgTree) (previous : Option PublishedState) (w : Workspace)
    (live : LiveAccount) (d : Declared) : Prop where
  /-- The organization has the account. -/
  mem : live ∈ tree.accounts
  /-- It is suspended. -/
  suspended : live.isSuspended = true
  /-- The configuration declares its address. -/
  declared : d ∈ w.merged.allAccounts
  /-- It is that address. -/
  email : Text.lower d.entry.email = Text.lower live.email
  /-- The address leads to the declared account. -/
  leads : (accountsFollowed tree previous w).workspace.merged.accountByEmail? live.email = some d

/-- **Accounts that are called differently are followed in every file, and only under their own
keys**, whoever took over whose address: the entries under any other key keep their names, addresses
and marks, unless the key is that of a suspended account. No entry is lost. -/
theorem detect_own_keys {e : Option Error} (h : detect tree previous w = (e, r))
    (hids : (tree.accounts.map LiveAccount.id).Nodup)
    (hemails : ∀ a ∈ tree.accounts, ∀ b ∈ tree.accounts,
      Text.lower a.email = Text.lower b.email → a = b)
    (hkeys : ((recordedAccounts previous).map CanonicalAccount.key).Nodup) :
    (∀ before ∈ recordedAccounts previous, ∀ live, CalledDifferently tree before live →
      ∀ s, ∀ a ∈ r.workspace.entriesAt s before.key, a.email = live.email ∧
        (before.role ≠ some .primary → live.name ≠ before.name → a.name = live.name)) ∧
    (∀ key, StandsStill tree previous key →
      (∀ s, (r.workspace.entriesAt s key).map identity = (w.entriesAt s key).map identity) ∨
        ∃ live d, Suspends tree previous w live d ∧ d.key = key) ∧
    ∀ s key, (r.workspace.entriesAt s key).length = (w.entriesAt s key).length := by
  refine ⟨?_, ?_, length_entriesAt_detect h⟩
  · intro before hbefore live hdiffers s a ha
    cases previous with
    | none => exact absurd hbefore List.not_mem_nil
    | some state =>
      have hrenamed := (renamed?_eq_some_iff hids).2 ⟨hdiffers, rfl⟩
      obtain ⟨hname, hemail⟩ := detect_upToDate h hkeys hemails hbefore hrenamed s a ha
      exact ⟨hemail, fun hrole hother => hname (followsName_iff.2 ⟨hrole, hother⟩)⟩
  · intro key hstill
    by_cases hsuspends : ∃ live d, Suspends tree previous w live d ∧ d.key = key
    · exact .inr hsuspends
    · left
      intro s
      refine detect_last
        (fun v => (v.entriesAt s key).map identity = (w.entriesAt s key).map identity) h
        (fun v old new x hv hx => (identity_renameOu hx s key).trans hv) ?_
      rw [markAllSuspended_entries, accountsFollowed_entries hids hstill]
      intro live hlive hsuspended d hd hkey
      obtain ⟨hdeclared, hemail⟩ := Configuration.accountByEmail?_spec hd
      refine hsuspends ⟨live, d, ⟨hlive, hsuspended, ?_, hemail, hd⟩, hkey⟩
      exact (accountsFollowed_declared hids (hkey ▸ hstill)).1 hdeclared

/-- Two recorded accounts, one of them the primary one. -/
def recordedPair : PublishedState :=
  { recordedUnits with accounts :=
      [⟨"a", some "1", "Al", "a@x", "A", "A", false, none⟩,
        ⟨"b", some "2", "Bo", "b@x", "C", "C", false, some .primary⟩] }

/-- A configuration that declares them, one of them twice, and two other accounts. -/
def declaredPair : Workspace :=
  { declaredUnits with
    workload := ⟨.load ["w.yaml", "more.yaml"],
      [⟨"w.yaml", .ofList [("a", { name := "Al", email := "a@x", ou := "A" }),
          ("b", { name := "Bo", email := "b@x", ou := "C" })], false⟩,
        ⟨"more.yaml", .ofList [("a", { name := "Al", email := "A@x", ou := "A" }),
          ("c", { name := "Cy", email := "c@x", ou := "C" }),
          ("d", { name := "Di", email := "d@x", ou := "C" })], false⟩]⟩ }

/-- The two accounts have each other's address now, and other names. Another account is
suspended. -/
def swappedAddresses : OrgTree :=
  { renamedUnits with buckets :=
      [("ou-1", [⟨"1", "Alma", "b@x", .active, "ou-1"⟩]),
        ("ou-3", [⟨"2", "Bob", "a@x", .active, "ou-3"⟩, ⟨"3", "Cy", "C@x", .suspended, "ou-3"⟩])] }

/-- Two accounts that swapped their addresses are followed, each under its own key. -/
theorem detect_own_keys_swapped :
    (swappedAddresses.accounts.map LiveAccount.id).Nodup ∧
      (∀ a ∈ swappedAddresses.accounts, ∀ b ∈ swappedAddresses.accounts,
        Text.lower a.email = Text.lower b.email → a = b) ∧
      ((recordedAccounts (some recordedPair)).map CanonicalAccount.key).Nodup ∧
      ∃ r, detect swappedAddresses (some recordedPair) declaredPair = (none, r) ∧
        (∀ s, ∀ a ∈ r.workspace.entriesAt s "a", a.email = "b@x" ∧ a.name = "Alma") ∧
        (∀ s, ∀ a ∈ r.workspace.entriesAt s "b", a.email = "a@x") ∧
        r.workspace.entriesAt .workload "b" = [{ name := "Bo", email := "a@x", ou := "D" }] ∧
        ∀ s, (r.workspace.entriesAt s "a").length = (declaredPair.entriesAt s "a").length := by
  have hids : (swappedAddresses.accounts.map LiveAccount.id).Nodup := by decide +kernel
  have hemails : ∀ a ∈ swappedAddresses.accounts, ∀ b ∈ swappedAddresses.accounts,
      Text.lower a.email = Text.lower b.email → a = b := by decide +kernel
  have hkeys : ((recordedAccounts (some recordedPair)).map CanonicalAccount.key).Nodup := by
    decide
  have hrun : (detect swappedAddresses (some recordedPair) declaredPair).1 = none := by
    decide +kernel
  have hfirst : CalledDifferently swappedAddresses
      ⟨"a", some "1", "Al", "a@x", "A", "A", false, none⟩
      ⟨"1", "Alma", "b@x", .active, "ou-1"⟩ :=
    ⟨by decide +kernel, rfl, rfl, .inl (by decide +kernel)⟩
  have hsecond : CalledDifferently swappedAddresses
      ⟨"b", some "2", "Bo", "b@x", "C", "C", false, some .primary⟩
      ⟨"2", "Bob", "a@x", .active, "ou-3"⟩ :=
    ⟨by decide +kernel, rfl, rfl, .inl (by decide +kernel)⟩
  obtain ⟨hown, -, hlength⟩ := detect_own_keys (Prod.ext hrun rfl) hids hemails hkeys
  refine ⟨hids, hemails, hkeys, _, Prod.ext hrun rfl, ?_, ?_, by decide +kernel,
    fun s => hlength s "a"⟩
  · intro s a ha
    obtain ⟨hemail, hname⟩ := hown _ List.mem_cons_self _ hfirst s a ha
    exact ⟨hemail, hname (by decide) (by decide)⟩
  · intro s a ha
    exact (hown _ (List.mem_cons_of_mem _ List.mem_cons_self) _ hsecond s a ha).1

end OrgAlign.Drift
