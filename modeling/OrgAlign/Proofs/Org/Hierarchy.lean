import Mathlib.Data.List.Nodup
import Mathlib.Data.List.Perm.Subperm
import Mathlib.Tactic.Common
import OrgAlign.Org.Organization
import OrgAlign.Proofs.Path
import OrgAlign.Proofs.Walks

/-!
# Well-formed organizations

The links of a snapshot lead up to the root (`Snapshot.Linked`), also when units are added
(`Snapshot.Rooted`), its accounts are housed under parents that exist (`Snapshot.Housed`), and
siblings have different names that can stand in a path (`Snapshot.Named`). Main statements:

* `nextOuId_fresh`: the next unit gets an identifier of its own;
* `Linked.pathOf_eq_join`: a unit's path is its parent's path and its name, however deep the unit
  is;
* `Rooted.addOu`, `Rooted.located_addOu`: a unit under a parent that exists leaves the hierarchy
  rooted and the other units as and where they are.
-/

namespace OrgAlign.Org.Snapshot

/-! ### Conditions -/

/-- The units hang together below the root. -/
structure Linked (s : Snapshot) : Prop where
  /-- There is a root. -/
  root : s.root.isSome = true
  /-- The root is no unit. -/
  rootApart : ∀ r, s.root = some r → s.isOu r.id = false
  /-- Units have distinct identifiers. -/
  ids : (s.ous.map OuNode.id).Nodup
  /-- Every unit has a parent. -/
  parents : ∀ o ∈ s.ous, s.isParent o.parent = true
  /-- No unit is above itself: units have ranks that grow downwards. -/
  acyclic : ∃ rank : String → Nat, ∀ o ∈ s.ous, ∀ p ∈ s.ous, o.parent = p.id → rank p.id < rank o.id

/-- The units form a hierarchy under the root, and go on to do so when some are added. -/
structure Rooted (s : Snapshot) : Prop where
  /-- There is a root. -/
  root : s.root.isSome = true
  /-- The root is no unit, and never becomes one. -/
  rootApart : ∀ r, s.root = some r → s.isOu r.id = false ∧ ∀ n, r.id ≠ ouId n
  /-- Units have distinct identifiers. -/
  ids : (s.ous.map OuNode.id).Nodup
  /-- Every unit has a parent. -/
  parents : ∀ o ∈ s.ous, s.isParent o.parent = true
  /-- No unit is above itself: units have ranks that grow downwards. -/
  acyclic : ∃ rank : String → Nat, ∀ o ∈ s.ous, ∀ p ∈ s.ous, o.parent = p.id → rank p.id < rank o.id

/-- Every account has an identifier of its own and a parent. -/
structure Housed (s : Snapshot) : Prop where
  /-- Accounts have distinct identifiers. -/
  accountIds : (s.accounts.map LiveAccount.id).Nodup
  /-- Every account has a parent. -/
  accountParents : ∀ a ∈ s.accounts, s.isParent a.parent = true

/-- Names of units make paths. -/
structure Named (s : Snapshot) : Prop where
  /-- Siblings have different names. -/
  siblings : s.ous.Pairwise fun o p => o.parent = p.parent → o.name ≠ p.name
  /-- No name is empty or has a slash. -/
  names : ∀ o ∈ s.ous, Path.IsName o.name

/-- A well-formed organization. -/
structure WellFormed (s : Snapshot) : Prop extends Rooted s, Housed s, Named s where
  /-- Whatever policies attach to has an identifier of its own. -/
  targets : (s.root.toList.map Root.id ++ s.ous.map OuNode.id ++
    s.accounts.map LiveAccount.id).Nodup
  /-- No account has an identifier that a new unit may get. -/
  accountsApart : ∀ a ∈ s.accounts, ∀ n, a.id ≠ ouId n
  /-- Policies have distinct identifiers. -/
  policyIds : (s.policies.map AttachedPolicy.id).Nodup

/-- A hierarchy that units may be added to hangs together. -/
theorem Rooted.linked {s : Snapshot} (hs : s.Rooted) : s.Linked :=
  ⟨hs.root, fun r hr => (hs.rootApart r hr).1, hs.ids, hs.parents, hs.acyclic⟩

/-- Whether units form a hierarchy shows in the root and the units. -/
theorem Rooted.congr {s s' : Snapshot} (hs : s.Rooted) (hroot : s'.root = s.root)
    (hous : s'.ous = s.ous) : s'.Rooted := by
  obtain ⟨root, ous, accounts, policies⟩ := s'
  cases hroot
  cases hous
  exact ⟨hs.root, hs.rootApart, hs.ids, hs.parents, hs.acyclic⟩

/-- No two accounts share an e-mail address, upper and lower case being the same. -/
def DistinctEmails (s : Snapshot) : Prop := (s.accounts.map fun a => Text.lower a.email).Nodup

/-! ### New identifiers -/

/-- Different numbers make different identifiers. -/
theorem ouId_injective : Function.Injective ouId := by
  intro m n h
  unfold ouId at h
  have hlist := congrArg String.toList h
  simp only [String.toList_append, String.toList_ofList, List.append_cancel_left_eq] at hlist
  -- zeros in front do not change the number that the digits stand for
  have hnum := congrArg (Nat.ofDigitChars 10 · 0) hlist
  simpa only [Nat.ofDigitChars_append, Nat.ofDigitChars_replicate_zero, Nat.mul_zero,
    Nat.ofDigitChars_ten_toDigits] using hnum

variable {s : Snapshot}

theorem isOu_iff {id : String} : s.isOu id = true ↔ ∃ o ∈ s.ous, o.id = id := by
  simp only [isOu, List.any_eq_true, beq_iff_eq]

theorem isRoot_iff {id : String} : s.isRoot id = true ↔ ∃ r, s.root = some r ∧ r.id = id := by
  simp only [isRoot, Option.any_eq_true, beq_iff_eq]

theorem isParent_iff {id : String} :
    s.isParent id = true ↔ (∃ r, s.root = some r ∧ r.id = id) ∨ ∃ o ∈ s.ous, o.id = id := by
  unfold isParent
  rw [Bool.or_eq_true, isRoot_iff, isOu_iff]

/-- Of more identifiers than there are units one is free. -/
theorem exists_free_candidate (s : Snapshot) : ∃ id ∈ s.candidateIds, s.isOu id = false := by
  by_contra hall
  have hused : ∀ id ∈ s.candidateIds, id ∈ s.ous.map OuNode.id := by
    intro id hid
    have hou : s.isOu id = true := by
      rw [← Bool.not_eq_false]
      exact fun h => hall ⟨id, hid, h⟩
    obtain ⟨o, ho, rfl⟩ := isOu_iff.1 hou
    exact List.mem_map_of_mem ho
  have hnodup : s.candidateIds.Nodup := by
    refine List.Nodup.map ?_ List.nodup_range
    intro i j h
    have := ouId_injective h
    omega
  have hle := (hnodup.subperm hused).length_le
  simp only [candidateIds, List.length_map, List.length_range] at hle
  omega

/-- The next unit gets an identifier that no unit has. -/
theorem nextOuId_fresh (s : Snapshot) : s.isOu s.nextOuId = false := by
  obtain ⟨id, hid, hfree⟩ := s.exists_free_candidate
  unfold nextOuId
  cases hfind : s.candidateIds.find? fun id => !s.isOu id with
  | none =>
    have := List.find?_eq_none.1 hfind id hid
    rw [hfree] at this
    exact absurd rfl this
  | some found =>
    have := List.find?_some hfind
    rwa [Bool.not_eq_true'] at this

/-- The next unit gets one of the identifiers made from numbers. -/
theorem nextOuId_eq_ouId (s : Snapshot) : ∃ n, s.nextOuId = ouId n := by
  unfold nextOuId
  cases hfind : s.candidateIds.find? fun id => !s.isOu id with
  | none => exact ⟨_, rfl⟩
  | some id =>
    obtain ⟨i, -, hi⟩ := List.mem_map.1 (List.mem_of_find?_eq_some hfind)
    exact ⟨_, hi.symm⟩

/-! ### The way up -/

/-- The names met on the way up from a parent to the root, nearest first. -/
inductive LeadsUp (s : Snapshot) : String → List String → Prop
  | root {r : Root} (h : s.root = some r) : LeadsUp s r.id []
  | ou {o : OuNode} {names : List String} (ho : o ∈ s.ous) (h : LeadsUp s o.parent names) :
    LeadsUp s o.id (o.name :: names)

theorem Linked.ou?_root (hs : s.Linked) {r : Root} (h : s.root = some r) : s.ou? r.id = none := by
  have hou := hs.rootApart r h
  unfold isOu at hou
  unfold ou?
  rw [List.find?_eq_none]
  exact fun o ho => by simpa using List.any_eq_false.1 hou o ho

theorem Linked.ou?_id (hs : s.Linked) {o : OuNode} (ho : o ∈ s.ous) : s.ou? o.id = some o :=
  find?_of_nodup hs.ids ho

/-- The names above are those on the way up, if there are steps enough to get there. -/
theorem Linked.namesAbove_eq (hs : s.Linked) {id : String} {names : List String}
    (h : LeadsUp s id names) {n : Nat} (hn : names.length ≤ n) : s.namesAbove n id = names := by
  induction h generalizing n with
  | root hr =>
    cases n with
    | zero => rfl
    | succ n => simp only [namesAbove, hs.ou?_root hr]
  | ou ho _ ih =>
    cases n with
    | zero => exact absurd hn (by simp)
    | succ n => simp only [namesAbove, hs.ou?_id ho, ih (Nat.le_of_succ_le_succ hn)]

/-- Fewer items pass a stricter test that one of them fails. -/
theorem countP_lt {α : Type} {l : List α} {p q : α → Bool} (hpq : ∀ a ∈ l, p a = true → q a = true)
    {a : α} (ha : a ∈ l) (hq : q a = true) (hp : p a = false) : l.countP p < l.countP q := by
  obtain ⟨before, after, rfl⟩ := List.append_of_mem ha
  have hbefore : before.countP p ≤ before.countP q :=
    List.countP_mono_left fun b hb => hpq b (List.mem_append_left _ hb)
  have hafter : after.countP p ≤ after.countP q :=
    List.countP_mono_left fun b hb => hpq b (List.mem_append_right _ (List.mem_cons_of_mem a hb))
  rw [List.countP_append, List.countP_append, List.countP_cons_of_neg (by simp [hp]),
    List.countP_cons_of_pos hq]
  omega

/-- From every unit the way leads up to the root, over no more units than there are. -/
theorem Linked.exists_leadsUp_ou (hs : s.Linked) {o : OuNode} (ho : o ∈ s.ous) :
    ∃ names, LeadsUp s o.id names ∧ names.length ≤ s.ous.length := by
  obtain ⟨rank, hrank⟩ := hs.acyclic
  -- by induction on the rank; the units on the way have ranks up to that of the first
  have main : ∀ k, ∀ o ∈ s.ous, rank o.id = k → ∃ names, LeadsUp s o.id names ∧
      names.length ≤ s.ous.countP fun p => rank p.id ≤ k := by
    intro k
    induction k using Nat.strongRecOn with
    | ind k ih =>
      intro o ho hk
      have hone : 0 < s.ous.countP fun p => rank p.id ≤ k :=
        List.countP_pos_iff.2 ⟨o, ho, by simp [hk]⟩
      rcases isParent_iff.1 (hs.parents o ho) with ⟨r, hr, hid⟩ | ⟨p, hp, hid⟩
      · exact ⟨[o.name], .ou ho (hid ▸ .root hr), by simpa using hone⟩
      · have hlt : rank p.id < k := hk ▸ hrank o ho p hp hid.symm
        obtain ⟨names, hnames, hlen⟩ := ih (rank p.id) hlt p hp rfl
        refine ⟨o.name :: names, .ou ho (hid ▸ hnames), ?_⟩
        have hmore : (s.ous.countP fun q => rank q.id ≤ rank p.id) <
            s.ous.countP fun q => rank q.id ≤ k := by
          refine countP_lt (fun q _ h => ?_) ho (by simp [hk]) (by simp [hk, hlt])
          have := of_decide_eq_true h
          exact decide_eq_true (by omega)
        rw [List.length_cons]
        omega
  obtain ⟨names, hnames, hlen⟩ := main _ o ho rfl
  exact ⟨names, hnames, Nat.le_trans hlen List.countP_le_length⟩

/-- From every parent the way leads up to the root, over no more units than there are. -/
theorem Linked.exists_leadsUp (hs : s.Linked) {id : String} (hid : s.isParent id = true) :
    ∃ names, LeadsUp s id names ∧ names.length ≤ s.ous.length := by
  rcases isParent_iff.1 hid with ⟨r, hr, rfl⟩ | ⟨o, ho, rfl⟩
  · exact ⟨[], .root hr, Nat.zero_le _⟩
  · exact hs.exists_leadsUp_ou ho

/-! ### Paths -/

/-- The path that names on the way up stand for. -/
def pathUp (names : List String) : String := names.reverse.foldl Path.join ""

@[simp] theorem pathUp_cons (name : String) (names : List String) :
    pathUp (name :: names) = Path.join (pathUp names) name := by
  unfold pathUp
  rw [List.reverse_cons, List.foldl_append]
  rfl

/-- A unit's path follows from the names on the way up, however long that is. -/
theorem Linked.pathOf_eq_pathUp (hs : s.Linked) {o : OuNode} {names : List String}
    (h : LeadsUp s o.parent names) (hlen : names.length ≤ s.ous.length) :
    s.pathOf o = pathUp (o.name :: names) := by
  unfold pathOf
  rw [hs.namesAbove_eq h hlen]
  rfl

/-- The path of a parent, empty for the root. -/
def pathAt (s : Snapshot) (id : String) : String := ((s.ou? id).map s.pathOf).getD ""

/-- A parent's path follows from the names on the way up. -/
theorem Linked.pathAt_eq_pathUp (hs : s.Linked) {id : String} {names : List String}
    (h : LeadsUp s id names) (hlen : names.length ≤ s.ous.length) :
    s.pathAt id = pathUp names := by
  unfold pathAt
  cases h with
  | root hr =>
    rw [hs.ou?_root hr]
    rfl
  | ou ho h =>
    rw [hs.ou?_id ho]
    exact hs.pathOf_eq_pathUp h (Nat.le_of_succ_le hlen)

/-- A unit's path is its parent's path and its name. -/
theorem Linked.pathOf_eq_join (hs : s.Linked) {o : OuNode} (ho : o ∈ s.ous) :
    s.pathOf o = Path.join (s.pathAt o.parent) o.name := by
  obtain ⟨names, hnames, hlen⟩ := hs.exists_leadsUp (hs.parents o ho)
  rw [hs.pathOf_eq_pathUp hnames hlen, hs.pathAt_eq_pathUp hnames hlen, pathUp_cons]

/-- Paths follow from the units alone. -/
theorem located_congr {s' : Snapshot} (h : s'.ous = s.ous) : s'.located = s.located := by
  have hou : s'.ou? = s.ou? := by
    funext id
    unfold ou?
    rw [h]
  have hnames : ∀ n parent, s'.namesAbove n parent = s.namesAbove n parent := by
    intro n
    induction n with
    | zero => exact fun _ => rfl
    | succ n ih =>
      intro parent
      simp only [namesAbove, hou, ih]
  funext o
  unfold located pathOf
  rw [h, hnames]

/-! ### One more unit -/

/-- The snapshot with one more unit. -/
def addOu (s : Snapshot) (node : OuNode) : Snapshot := { s with ous := s.ous ++ [node] }

/-- The unit can be added: its identifier is free and its parent is there. -/
structure Fits (s : Snapshot) (node : OuNode) : Prop where
  /-- No unit has its identifier. -/
  fresh : s.isOu node.id = false
  /-- Its identifier is made from a number. -/
  generated : ∃ n, node.id = ouId n
  /-- Its parent is there. -/
  parent : s.isParent node.parent = true

/-- Creating a unit adds one that fits, unless a sibling has its name. -/
theorem created_eq_ok {name parent : String} {node : OuNode} {s' : Snapshot}
    (h : Organization.created s name parent = .ok (node, s')) :
    s' = s.addOu node ∧ s.Fits node ∧ node.name = name ∧ node.parent = parent ∧
      ∀ o ∈ s.ous, o.parent = parent → o.name ≠ name := by
  unfold Organization.created at h
  split at h
  · cases h
  · rename_i hparent
    split at h
    · cases h
    · rename_i hsibling
      cases h
      refine ⟨rfl, ⟨s.nextOuId_fresh, s.nextOuId_eq_ouId, by simpa using hparent⟩, rfl, rfl, ?_⟩
      intro o ho hpar hname
      refine hsibling (List.any_eq_true.2 ⟨o, ho, ?_⟩)
      simp [hpar, hname]

/-- There is room for a unit: its parent is there, and has no unit of that name. -/
structure Vacant (s : Snapshot) (name parent : String) : Prop where
  /-- The parent is there. -/
  isParent : s.isParent parent = true
  /-- No sibling has the name. -/
  siblings : ∀ o ∈ s.ous, o.parent = parent → o.name ≠ name

/-- Where there is room for a unit it can be created. -/
theorem Vacant.created {name parent : String} (h : s.Vacant name parent) :
    Organization.created s name parent =
      .ok (⟨s.nextOuId, name, parent⟩, s.addOu ⟨s.nextOuId, name, parent⟩) := by
  have hnone : (s.ous.any fun o => o.name == name && o.parent == parent) = false := by
    rw [List.any_eq_false]
    intro o ho hboth
    obtain ⟨hname, hparent⟩ := Bool.and_eq_true_iff.1 hboth
    exact h.siblings o ho (beq_iff_eq.1 hparent) (beq_iff_eq.1 hname)
  unfold Organization.created
  rw [h.isParent, hnone]
  rfl

theorem isParent_addOu {node : OuNode} {id : String} :
    (s.addOu node).isParent id = true ↔ s.isParent id = true ∨ node.id = id := by
  simp only [isParent_iff, addOu, List.mem_append, List.mem_singleton]
  constructor
  · rintro (h | ⟨o, ho | rfl, hid⟩)
    · exact .inl (.inl h)
    · exact .inl (.inr ⟨o, ho, hid⟩)
    · exact .inr hid
  · rintro ((h | ⟨o, ho, hid⟩) | hid)
    · exact .inl h
    · exact .inr ⟨o, .inl ho, hid⟩
    · exact .inr ⟨node, .inr rfl, hid⟩

section

variable {node : OuNode}

/-- A unit that fits is not a parent yet. -/
theorem Rooted.not_isParent_of_fits (hs : s.Rooted) (hfits : s.Fits node) :
    ¬ s.isParent node.id = true := by
  rw [isParent_iff]
  rintro (⟨r, hr, hid⟩ | ⟨o, ho, hid⟩)
  · obtain ⟨n, hn⟩ := hfits.generated
    exact (hs.rootApart r hr).2 n (hid.trans hn)
  · have hou := isOu_iff.2 ⟨o, ho, hid⟩
    rw [hfits.fresh] at hou
    cases hou

/-- A unit that fits ranks below its parent, and no unit is below it. -/
theorem Rooted.acyclic_addOu (hs : s.Rooted) (hfits : s.Fits node) :
    ∃ rank : String → Nat, ∀ o ∈ (s.addOu node).ous, ∀ p ∈ (s.addOu node).ous,
      o.parent = p.id → rank p.id < rank o.id := by
  have hnew := hs.not_isParent_of_fits hfits
  have hold : ∀ o ∈ s.ous, o.id ≠ node.id := fun o ho hid =>
    hnew (isParent_iff.2 (.inr ⟨o, ho, hid⟩))
  obtain ⟨rank, hrank⟩ := hs.acyclic
  refine ⟨fun id => if id = node.id then rank node.parent + 1 else rank id, ?_⟩
  intro o ho p hp hpar
  rcases List.mem_append.1 hp with hp | hp
  · rcases List.mem_append.1 ho with ho | ho
    · simp only [hold o ho, hold p hp, if_false]
      exact hrank o ho p hp hpar
    · rw [List.mem_singleton.1 ho] at hpar ⊢
      simp only [hold p hp, if_false, if_true, hpar]
      exact Nat.lt_succ_self _
  · rw [List.mem_singleton.1 hp] at hpar
    rcases List.mem_append.1 ho with ho | ho
    · exact absurd (hpar ▸ hs.parents o ho) hnew
    · rw [List.mem_singleton.1 ho] at hpar
      exact absurd (hpar ▸ hfits.parent) hnew

/-- A unit that fits leaves the hierarchy rooted. -/
theorem Rooted.addOu (hs : s.Rooted) (hfits : s.Fits node) : (s.addOu node).Rooted := by
  have hnew := hs.not_isParent_of_fits hfits
  refine ⟨hs.root, ?_, ?_, ?_, hs.acyclic_addOu hfits⟩
  · intro r hr
    refine ⟨?_, (hs.rootApart r hr).2⟩
    rw [← Bool.not_eq_true, isOu_iff]
    rintro ⟨o, ho, hid⟩
    rcases List.mem_append.1 ho with ho | ho
    · have hou := isOu_iff.2 ⟨o, ho, hid⟩
      rw [(hs.rootApart r hr).1] at hou
      cases hou
    · rw [List.mem_singleton.1 ho] at hid
      exact hnew (isParent_iff.2 (.inl ⟨r, hr, hid.symm⟩))
  · unfold Snapshot.addOu
    rw [List.map_append, List.map_singleton]
    refine List.nodup_append.2 ⟨hs.ids, List.nodup_singleton _, ?_⟩
    intro id hid id' hid' heq
    obtain ⟨o, ho, rfl⟩ := List.mem_map.1 hid
    rw [List.mem_singleton.1 hid'] at heq
    exact hnew (isParent_iff.2 (.inr ⟨o, ho, heq⟩))
  · intro o ho
    rcases List.mem_append.1 ho with ho | ho
    · exact isParent_addOu.2 (.inl (hs.parents o ho))
    · rw [List.mem_singleton.1 ho]
      exact isParent_addOu.2 (.inl hfits.parent)

/-- The ways up that there were are still there. -/
theorem LeadsUp.addOu {id : String} {names : List String} (h : LeadsUp s id names) (node : OuNode) :
    LeadsUp (s.addOu node) id names := by
  induction h with
  | root hr => exact .root hr
  | ou ho _ ih => exact .ou (List.mem_append_left _ ho) ih

/-- A unit that fits leaves the paths under the parents there were as they are. -/
theorem Rooted.pathUnder_addOu (hs : s.Rooted) (hfits : s.Fits node) {o : OuNode}
    (ho : s.isParent o.parent = true) :
    (s.addOu node).pathOf o = Path.join (s.pathAt o.parent) o.name := by
  obtain ⟨names, hnames, hlen⟩ := hs.linked.exists_leadsUp ho
  have hlen' : names.length ≤ (s.addOu node).ous.length := by
    unfold Snapshot.addOu
    rw [List.length_append]
    exact Nat.le_trans hlen (Nat.le_add_right _ _)
  rw [(hs.addOu hfits).linked.pathOf_eq_pathUp (hnames.addOu node) hlen', pathUp_cons,
    hs.linked.pathAt_eq_pathUp hnames hlen]

/-- A unit that fits leaves the others as and where they are, and comes last. -/
theorem Rooted.located_addOu (hs : s.Rooted) (hfits : s.Fits node) :
    (s.addOu node).ous.map (s.addOu node).located = s.ous.map s.located ++
      [⟨node.id, node.name, node.parent, Path.join (s.pathAt node.parent) node.name⟩] := by
  have hold : ∀ o ∈ s.ous, (s.addOu node).located o = s.located o := by
    intro o ho
    unfold located
    rw [hs.pathUnder_addOu hfits (hs.parents o ho), hs.linked.pathOf_eq_join ho]
  have hnew : (s.addOu node).located node =
      ⟨node.id, node.name, node.parent, Path.join (s.pathAt node.parent) node.name⟩ := by
    unfold located
    rw [hs.pathUnder_addOu hfits hfits.parent]
  change (s.ous ++ [node]).map _ = _
  rw [List.map_append, List.map_congr_left hold, List.map_singleton, hnew]

end

/-! ### Flat organizations -/

/-- All units are right under the root, and no identifier but theirs starts like one that a new unit
may get. -/
def Flat (s : Snapshot) (r : Root) : Prop :=
  s.root = some r ∧ (∀ o ∈ s.ous, o.parent = r.id) ∧
    (∀ a ∈ s.accounts, s.isParent a.parent = true) ∧
    (s.ous.map OuNode.name).Nodup ∧ (∀ o ∈ s.ous, Path.IsName o.name) ∧
    (∀ id ∈ r.id :: s.accounts.map LiveAccount.id, id.toList.head? ≠ some 'o') ∧
    (r.id :: (s.ous.map OuNode.id ++ s.accounts.map LiveAccount.id)).Nodup ∧
    (s.policies.map AttachedPolicy.id).Nodup

instance (s : Snapshot) (r : Root) : Decidable (s.Flat r) := inferInstanceAs (Decidable (_ ∧ _))

/-- A flat organization is well-formed. -/
theorem Flat.wellFormed {r : Root} (h : s.Flat r) : s.WellFormed := by
  obtain ⟨hroot, hparents, hhoused, hsiblings, hnames, hapart, htargets, hpolicies⟩ := h
  have hous := (List.nodup_append'.1 (List.nodup_cons.1 htargets).2)
  have hnotRoot : ∀ o ∈ s.ous, o.id ≠ r.id := fun o ho heq =>
    (List.nodup_cons.1 htargets).1 (heq ▸ List.mem_append_left _ (List.mem_map_of_mem ho))
  have hne : ∀ id ∈ r.id :: s.accounts.map LiveAccount.id, ∀ n, id ≠ ouId n := by
    intro id hid n heq
    have hhead := hapart id hid
    rw [heq] at hhead
    exact hhead (by simp [ouId])
  constructor
  · refine ⟨by rw [hroot]; rfl, fun r' hr' => ?_, hous.1, fun o ho => ?_, fun _ => 0, ?_⟩
    · obtain rfl : r = r' := Option.some.inj (hroot.symm.trans hr')
      refine ⟨?_, hne r.id List.mem_cons_self⟩
      rw [← Bool.not_eq_true, isOu_iff]
      rintro ⟨o, ho, heq⟩
      exact hnotRoot o ho heq
    · exact isParent_iff.2 (.inl ⟨r, hroot, (hparents o ho).symm⟩)
    · intro o ho q hq heq
      exact absurd (heq.symm.trans (hparents o ho)) (hnotRoot q hq)
  · exact ⟨hous.2.1, hhoused⟩
  · refine ⟨?_, hnames⟩
    refine (List.pairwise_map.1 hsiblings).imp ?_
    intro o q hname _
    exact hname
  · rw [hroot]
    exact htargets
  · exact fun a ha => hne a.id (List.mem_cons_of_mem _ (List.mem_map_of_mem ha))
  · exact hpolicies

end OrgAlign.Org.Snapshot
