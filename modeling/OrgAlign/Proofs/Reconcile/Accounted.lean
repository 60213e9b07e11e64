import OrgAlign.Proofs.Reconcile.Kinds

/-!
# Every live account is accounted for

A pass looks from the active entries to the live accounts, and from the live accounts back to all
entries. Where identifiers and addresses are distinct the two meet: a clean pass leaves no live
account out and says nothing twice. Main statements:

* `declares_of_record`, `cloudId_of_declares`: a record has the identifier of a live account iff its
  entry declares that account;
* `claimed_iff`, `warned_iff`: a live account belongs to one canonical account iff an active entry
  declares it, and there is one warning about it iff no entry does;
* `live_accountedFor`: one of the two is so, or all entries that declare the account are deleted.
-/

namespace OrgAlign.Reconcile

open Config Org Finding

/-! ### What becomes of a live account -/

/-- Just one of three. -/
def JustOne (P Q R : Prop) : Prop := (P ∧ ¬ Q ∧ ¬ R) ∨ (¬ P ∧ Q ∧ ¬ R) ∨ (¬ P ∧ ¬ Q ∧ R)

/-- An entry declares an account: it has its address, upper and lower case being the same. -/
def Declares (d : Declared) (a : LiveAccount) : Prop :=
  Text.sameIgnoringCase d.entry.email a.email = true

/-- A live account that somebody has to answer for: it is not suspended, and not below a top-level
unit that is ignored or that of the suspended accounts. -/
structure Answerable (i : Input) (a : LiveAccount) : Prop where
  /-- It is live. -/
  live : a ∈ i.tree.accounts
  /-- It is not suspended. -/
  active : a.isSuspended = false
  /-- Its unit, if it is in one, is not below a top-level unit that is left alone. -/
  place : ∀ path, i.tree.parentPath? a = some path →
    i.config.options.isIgnored (Path.topLevel path) = false ∧
      Path.topLevel path ≠ i.config.options.suspendedOu

/-- The identifier belongs to just one canonical account. -/
def Claimed (i : Input) (id : String) : Prop :=
  ∃ c, (reconcile i).organization.accounts.filter (·.cloudId = some id) = [c]

/-- Entries declare the account, but only deleted ones. -/
def Retired (i : Input) (a : LiveAccount) : Prop :=
  (∃ d ∈ i.config.allAccounts, Declares d a) ∧
    ∀ d ∈ i.config.allAccounts, Declares d a → d.entry.deleted = true

/-- There is just one finding that nobody declared the account of the identifier, a warning. -/
def Warned (i : Input) (id : String) : Prop :=
  ∃ f, (ofKind .unmanagedAccount (reconcile i).findings).filter (·.subject = id) = [f] ∧
    f.isFatal = false

/-! ### Distinct accounts -/

/-- No two live accounts share an identifier, and none an address, upper and lower case being the
same. -/
structure Distinct (t : OrgTree) : Prop where
  /-- Identifiers. -/
  ids : (t.accounts.map LiveAccount.id).Nodup
  /-- Addresses. -/
  emails : (t.accounts.map fun a => Text.lower a.email).Nodup

variable {i : Input} {a b : LiveAccount} {d : Declared}

theorem Distinct.eq_of_id {t : OrgTree} (h : Distinct t) (ha : a ∈ t.accounts)
    (hb : b ∈ t.accounts) (hid : a.id = b.id) : a = b :=
  List.inj_on_of_nodup_map h.ids ha hb hid

theorem Distinct.eq_of_email {t : OrgTree} (h : Distinct t) (ha : a ∈ t.accounts)
    (hb : b ∈ t.accounts) (hemail : Text.lower a.email = Text.lower b.email) : a = b :=
  List.inj_on_of_nodup_map h.emails ha hb hemail

/-! ### From the entries to the live accounts -/

/-- A record with the identifier of a live account is that of an entry that declares the account. -/
theorem declares_of_record (hdist : Distinct i.tree) (ha : a ∈ i.tree.accounts)
    {c : CanonicalAccount} (hc : accountRecord? i d = some c) (hid : c.cloudId = some a.id) :
    Declares d a := by
  obtain ⟨live, hlive, hsame, hemail, -⟩ := (accountRecord?_stands hc).live a.id hid
  have heq : live = a := hdist.eq_of_id hlive ha hsame
  unfold Declares
  rw [Text.sameIgnoringCase_iff] at hemail ⊢
  rw [← heq]
  exact hemail.symm

/-- The record of an entry that declares a live account has the identifier of the account. -/
theorem cloudId_of_declares (hdist : Distinct i.tree) (ha : a ∈ i.tree.accounts)
    (hd : Declares d a) {c : CanonicalAccount} (hc : accountRecord? i d = some c) :
    c.cloudId = some a.id := by
  unfold Declares at hd
  rw [Text.sameIgnoringCase_iff] at hd
  have hstands := accountRecord?_stands hc
  cases hid : c.cloudId with
  | none =>
    -- then no live account would have the address
    have hother := (hstands.absent hid).1 a ha
    rw [← Bool.not_eq_true, Text.sameIgnoringCase_iff] at hother
    exact absurd hd.symm hother
  | some id =>
    obtain ⟨live, hlive, hsame, hemail, -⟩ := hstands.live id hid
    rw [Text.sameIgnoringCase_iff, hd] at hemail
    rw [← hsame, hdist.eq_of_email hlive ha hemail]

/-- An entry of a clean pass has a record. -/
theorem exists_accountRecord? (hadm : Admissible nothing i) (hd : d ∈ i.config.accounts) :
    ∃ c, accountRecord? i d = some c :=
  Option.isSome_iff_exists.1 (accountRecord?_isSome_iff.2 (hadm.accounts d hd))

/-- The canonical accounts with an identifier are the records with it. -/
theorem filter_accounts_eq (i : Input) (id : String) :
    (reconcile i).organization.accounts.filter (·.cloudId = some id) =
      i.config.accounts.filterMap fun d =>
        (accountRecord? i d).filter (·.cloudId = some id) := by
  rw [reconcile_accounts]
  exact List.filter_filterMap

/-- **A live account belongs to one canonical account iff an active entry declares it.** -/
theorem claimed_iff (hdist : Distinct i.tree) (hadm : Admissible nothing i)
    (ha : a ∈ i.tree.accounts) :
    Claimed i a.id ↔ ∃ d ∈ i.config.accounts, Declares d a := by
  unfold Claimed
  rw [filter_accounts_eq]
  constructor
  · rintro ⟨c, hc⟩
    have hmem : c ∈ [c] := List.mem_singleton_self c
    rw [← hc] at hmem
    obtain ⟨d, hd, hrecord⟩ := List.mem_filterMap.1 hmem
    rw [Option.filter_eq_some_iff, decide_eq_true_iff] at hrecord
    exact ⟨d, hd, declares_of_record hdist ha hrecord.1 hrecord.2⟩
  · rintro ⟨d, hd, hdeclares⟩
    -- no other active entry has the address, or the pass would have said so
    have hnodup : (i.config.accounts.map address).Nodup :=
      duplicateEmails_eq_nil.1 (List.eq_nil_iff_forall_not_mem.2 fun f hf => hadm.emails f hf)
    have hother : ∀ e ∈ i.config.accounts, Declares e a → e = d := by
      intro e he hedeclares
      unfold Declares at hdeclares hedeclares
      rw [Text.sameIgnoringCase_iff] at hdeclares hedeclares
      exact List.inj_on_of_nodup_map hnodup he hd (hedeclares.trans hdeclares.symm)
    obtain ⟨c, hc⟩ := exists_accountRecord? hadm hd
    have hid := cloudId_of_declares hdist ha hdeclares hc
    refine ⟨c, filterMap_eq_singleton hnodup.of_map hd ?_ ?_⟩
    · rw [hc, Option.filter_some, decide_eq_true hid]
      rfl
    · intro e he hne
      rw [Option.filter_eq_none_iff]
      intro c' hc' hid'
      exact hne (hother e he (declares_of_record hdist ha hc' (of_decide_eq_true hid')))

/-! ### From the live accounts to the entries -/

/-- An address leads to an entry iff an entry declares the account. -/
theorem accountByEmail?_isSome_iff {c : Configuration} :
    (c.accountByEmail? a.email).isSome = true ↔ ∃ d ∈ c.allAccounts, Declares d a := by
  unfold Configuration.accountByEmail?
  rw [List.find?_isSome]
  rfl

/-- A finding about an account that nobody declared names it. -/
theorem subject_of_unmanaged? {c : Configuration} {t : OrgTree} {f : Finding}
    (h : unmanaged? c t a = some f) : f.subject = a.id := by
  unfold unmanaged? at h
  simp only at h
  split at h
  · cases h
  · cases h
    rfl

/-- There is a warning about a live account iff somebody has to answer for it and no entry declares
it. -/
theorem unmanaged?_isSome_iff (ha : a ∈ i.tree.accounts) :
    (unmanaged? i.config i.tree a).isSome = true ↔
      Answerable i a ∧ ¬ ∃ d ∈ i.config.allAccounts, Declares d a := by
  have hplace : (i.tree.parentPath? a).any (isExempt i.config.options) = false ↔
      ∀ path, i.tree.parentPath? a = some path →
        i.config.options.isIgnored (Path.topLevel path) = false ∧
          Path.topLevel path ≠ i.config.options.suspendedOu := by
    cases i.tree.parentPath? a <;> simp [isExempt]
  have hiff : (unmanaged? i.config i.tree a).isSome = true ↔ a.isSuspended = false ∧
      ¬ (i.config.accountByEmail? a.email).isSome = true ∧
      (i.tree.parentPath? a).any (isExempt i.config.options) = false := by
    unfold unmanaged?
    simp only
    split
    · rename_i h
      simp only [Option.isSome_none, Bool.false_eq_true, false_iff]
      rintro ⟨hactive, hnone, hfree⟩
      simp only [hactive, hfree, Bool.false_or, Bool.or_false] at h
      exact hnone h
    · rename_i h
      simp only [Bool.or_eq_true, not_or, Bool.not_eq_true] at h
      simp [h]
  rw [hiff, hplace, accountByEmail?_isSome_iff]
  constructor
  · rintro ⟨hactive, hnone, hfree⟩
    exact ⟨⟨ha, hactive, hfree⟩, hnone⟩
  · rintro ⟨hanswerable, hnone⟩
    exact ⟨hanswerable.active, hnone, hanswerable.place⟩

/-- A finding that nobody declared an account is a warning about a live account that somebody has to
answer for and that no entry declares. -/
theorem exists_of_mem_unmanaged {f : Finding} (hf : f ∈ unmanaged i) :
    f.isFatal = false ∧ ∃ a, unmanaged? i.config i.tree a = some f ∧ f.subject = a.id ∧
      Answerable i a ∧ ¬ ∃ d ∈ i.config.allAccounts, Declares d a := by
  obtain ⟨a, ha, hsome⟩ := List.mem_filterMap.1 hf
  refine ⟨(unmanaged?_eq_some hsome).1, a, hsome, subject_of_unmanaged? hsome, ?_⟩
  apply (unmanaged?_isSome_iff ha).1
  rw [hsome]
  rfl

/-- **There is one warning about a live account iff somebody has to answer for it and no entry
declares it.** -/
theorem warned_iff (hdist : Distinct i.tree) (ha : a ∈ i.tree.accounts) :
    Warned i a.id ↔ Answerable i a ∧ ¬ ∃ d ∈ i.config.allAccounts, Declares d a := by
  unfold Warned
  rw [ofKind_unmanagedAccount]
  constructor
  · rintro ⟨f, hf, -⟩
    have hmem : f ∈ [f] := List.mem_singleton_self f
    rw [← hf, List.mem_filter, decide_eq_true_iff] at hmem
    obtain ⟨-, b, -, hsubject, hanswerable, hnone⟩ := exists_of_mem_unmanaged hmem.1
    have heq : b = a := hdist.eq_of_id hanswerable.live ha (hsubject.symm.trans hmem.2)
    rw [← heq]
    exact ⟨hanswerable, hnone⟩
  · intro h
    obtain ⟨f, hf⟩ := Option.isSome_iff_exists.1 ((unmanaged?_isSome_iff ha).2 h)
    refine ⟨f, ?_, (unmanaged?_eq_some hf).1⟩
    unfold unmanaged
    rw [List.filter_filterMap]
    apply filterMap_eq_singleton hdist.ids.of_map ha
    · rw [hf, Option.filter_some, decide_eq_true (subject_of_unmanaged? hf)]
      rfl
    · intro b hb hne
      rw [Option.filter_eq_none_iff]
      intro g hg hsubject
      refine hne (hdist.eq_of_id hb ha ?_)
      rw [← subject_of_unmanaged? hg]
      exact of_decide_eq_true hsubject

/-! ### Both ways -/

/-- **A clean pass accounts for every live account.** One that is neither suspended nor left alone
belongs to just one canonical account, or is declared by deleted entries only, or has just one
warning that nobody declared it; and there are no such warnings about others. -/
theorem live_accountedFor (i : Input) (hids : (i.tree.accounts.map LiveAccount.id).Nodup)
    (hemails : (i.tree.accounts.map fun a => Text.lower a.email).Nodup)
    (hclean : (reconcile i).hasFatal = false) :
    (∀ a, Answerable i a → JustOne (Claimed i a.id) (Retired i a) (Warned i a.id)) ∧
      ∀ f ∈ (reconcile i).findings, f.kind = .unmanagedAccount →
        f.isFatal = false ∧ ∃ a, Answerable i a ∧ f.subject = a.id ∧ Warned i a.id := by
  have hdist : Distinct i.tree := ⟨hids, hemails⟩
  have hadm := (hasFatal_eq_false_iff i).1 hclean
  constructor
  · intro a ha
    have hclaimed := claimed_iff hdist hadm ha.live
    have hwarned := warned_iff hdist ha.live
    by_cases hany : ∃ d ∈ i.config.allAccounts, Declares d a
    · have hquiet : ¬ Warned i a.id := fun h => (hwarned.1 h).2 hany
      by_cases hactive : ∃ d ∈ i.config.accounts, Declares d a
      · have hkept : ¬ Retired i a := by
          obtain ⟨d, hd, hdeclares⟩ := hactive
          obtain ⟨hmem, hnot⟩ := List.mem_filter.1 hd
          intro hretired
          rw [hretired.2 d hmem hdeclares] at hnot
          cases hnot
        exact .inl ⟨hclaimed.2 hactive, hkept, hquiet⟩
      · have hretired : Retired i a := by
          refine ⟨hany, fun d hd hdeclares => ?_⟩
          by_contra hnot
          refine hactive ⟨d, List.mem_filter.2 ⟨hd, ?_⟩, hdeclares⟩
          rw [Bool.not_eq_true']
          exact Bool.not_eq_true _ ▸ hnot
        exact .inr (.inl ⟨fun h => hactive (hclaimed.1 h), hretired, hquiet⟩)
    · have hfree : ¬ Claimed i a.id := by
        intro h
        obtain ⟨d, hd, hdeclares⟩ := hclaimed.1 h
        exact hany ⟨d, (List.mem_filter.1 hd).1, hdeclares⟩
      exact .inr (.inr ⟨hfree, fun h => hany h.1, hwarned.2 ⟨ha, hany⟩⟩)
  · intro f hf hkind
    have hmem : f ∈ unmanaged i := by
      rw [← ofKind_unmanagedAccount]
      exact mem_ofKind.2 ⟨hf, hkind⟩
    obtain ⟨hwarning, a, -, hsubject, hanswerable, hnone⟩ := exists_of_mem_unmanaged hmem
    exact ⟨hwarning, a, hanswerable, hsubject,
      (warned_iff hdist hanswerable.live).2 ⟨hanswerable, hnone⟩⟩

/-- Three live accounts: the entry of one is active, that of another is deleted, and nobody declared
the third. -/
def threeLive : Input where
  config :=
    { options := {}
      ous := .ofList [("Core", {})]
      mandatory := .empty
      workload := .ofList
        [("log", coreEntry "Log" "Log@x.org"),
          ("old", { coreEntry "Old" "old@x.org" with deleted := true })] }
  tree :=
    { rootId := "r-1"
      ous := [⟨"ou-a", "Core", "r-1", "Core"⟩]
      buckets :=
        [("ou-a", [⟨"1", "Log", "log@x.org", .active, "ou-a"⟩,
            ⟨"2", "Old", "OLD@x.org", .active, "ou-a"⟩]),
          ("r-1", [⟨"3", "Stray", "stray@x.org", .active, "r-1"⟩])] }

/-- Each of them meets another one of the three ends, and the last one alone is complained about. -/
theorem live_accountedFor_threeLive :
    (threeLive.tree.accounts.map LiveAccount.id).Nodup ∧
      (threeLive.tree.accounts.map fun a => Text.lower a.email).Nodup ∧
      (reconcile threeLive).hasFatal = false ∧
      subjectsOf .unmanagedAccount (reconcile threeLive).findings = ["3"] ∧
      (reconcile threeLive).organization.accounts.map CanonicalAccount.cloudId = [some "1"] ∧
      ∀ a, Answerable threeLive a →
        JustOne (Claimed threeLive a.id) (Retired threeLive a) (Warned threeLive a.id) := by
  have hids : (threeLive.tree.accounts.map LiveAccount.id).Nodup := by decide
  have hemails : (threeLive.tree.accounts.map fun a => Text.lower a.email).Nodup := by
    decide +kernel
  have hclean : (reconcile threeLive).hasFatal = false := by decide +kernel
  refine ⟨hids, hemails, hclean, by decide +kernel, by decide +kernel, ?_⟩
  exact (live_accountedFor threeLive hids hemails hclean).1

end OrgAlign.Reconcile
