import Mathlib.Data.List.Basic
import Mathlib.Tactic.Common
import OrgAlign.Org.Organization

/-!
# Issued calls

Whatever is done to an organization is done by the calls in its log. `Organization.perform` carries
out one call, and `Issued o o'` says that some calls, one after the other, lead from `o` to `o'`;
`IssuedAs P o o'` says so of calls that each had a property where they were issued. Main statements:

* `calls_foldl_perform`: the log gets exactly the calls that were issued;
* `createOu_cases`, `moveAccount_cases`, `attachPolicy_cases`, `detachPolicy_cases`: a mutation
  leaves the snapshot alone or changes it in its one way;
* `Unharmed.split`, `Unharmed.no_subject`: calls of which none touches a subject that is made to
  fail;
* `createOu_of_failing`, `createOu_of_available`, `moveAccount_of_failing`,
  `moveAccount_of_available`: what becomes of a call that touches one, and of one that does not.
-/

namespace OrgAlign.Org

/-! ### What one mutation can do -/

namespace Organization

/-- The organization after a mutation differs by the call in the log and maybe by its snapshot. -/
def after (o : Organization) (c : Call) (s : Snapshot) : Organization :=
  { o with snapshot := s, calls := o.calls ++ [c] }

variable {o : Organization}

@[simp] theorem snapshot_after (c : Call) (s : Snapshot) : (o.after c s).snapshot = s := rfl

@[simp] theorem calls_after (c : Call) (s : Snapshot) : (o.after c s).calls = o.calls ++ [c] := rfl

@[simp] theorem failing_after (c : Call) (s : Snapshot) : (o.after c s).failing = o.failing := rfl

/-- The first item with a key is the only one. -/
theorem updateFirst_eq_map {α : Type} {key : α → String} {id : String} {f : α → α} {as : List α}
    (h : (as.map key).Nodup) :
    updateFirst (fun a => key a == id) f as = as.map fun a => if key a = id then f a else a := by
  induction as with
  | nil => rfl
  | cons a as ih =>
    obtain ⟨ha, has⟩ := List.nodup_cons.1 h
    unfold updateFirst
    by_cases hid : key a = id
    · have hrest : as.map (fun b => if key b = id then f b else b) = as := by
        refine (List.map_congr_left fun b hb => if_neg fun hb' => ?_).trans (List.map_id as)
        exact ha (List.mem_map.2 ⟨b, hb, hb'.trans hid.symm⟩)
      simp [hid, hrest]
    · simp [hid, ih has]

/-- What replacing an item leaves alone in every item stays. -/
theorem map_updateFirst {α β : Type} (key : α → β) {p : α → Bool} {f : α → α}
    (h : ∀ a, key (f a) = key a) (as : List α) : (updateFirst p f as).map key = as.map key := by
  induction as with
  | nil => rfl
  | cons a as ih =>
    unfold updateFirst
    split
    · rw [List.map_cons, List.map_cons, h]
    · rw [List.map_cons, List.map_cons, ih]

/-- Moving an account changes that account's parent alone. -/
theorem eq_of_moved {s s' : Snapshot} {account source target : String}
    (h : moved s account source target = .ok s') : s' = { s with
      accounts := updateFirst (·.id == account) (fun a => { a with parent := target })
        s.accounts } := by
  unfold moved at h
  split at h
  · cases h
  split at h
  · cases h
  split at h
  · cases h
  split at h
  · cases h
  · exact (Except.ok.inj h).symm

/-- A call is made to fail iff one of its subjects is. -/
theorem unavailable?_eq_none {op : Operation} {subjects : List String} :
    o.unavailable? op subjects = none ↔ ∀ x ∈ subjects, x ∉ o.failing := by
  unfold unavailable?
  rw [Option.map_eq_none_iff, List.find?_eq_none]
  simp

/-- Creating a unit fails and changes nothing, or does what `created` says. -/
theorem createOu_cases (o : Organization) (name parent : String) :
    (∃ e, o.createOu name parent = (.error e, o.after (.createOu name parent) o.snapshot)) ∨
    ∃ node s, created o.snapshot name parent = .ok (node, s) ∧
      o.createOu name parent = (.ok node, o.after (.createOu name parent) s) := by
  simp only [createOu]
  split
  · exact .inl ⟨_, rfl⟩
  · split
    · rename_i h
      exact .inr ⟨_, _, h, rfl⟩
    · exact .inl ⟨_, rfl⟩

/-- Moving an account fails and changes nothing, or does what `moved` says. -/
theorem moveAccount_cases (o : Organization) (account source target : String) :
    (∃ e, o.moveAccount account source target =
      (.error e, o.after (.moveAccount account source target) o.snapshot)) ∨
    ∃ s, moved o.snapshot account source target = .ok s ∧
      o.moveAccount account source target =
        (.ok (), o.after (.moveAccount account source target) s) := by
  simp only [moveAccount]
  split
  · exact .inl ⟨_, rfl⟩
  · split
    · rename_i h
      exact .inr ⟨_, h, rfl⟩
    · exact .inl ⟨_, rfl⟩

/-- Attaching a policy fails and changes nothing, or does what `attached` says. -/
theorem attachPolicy_cases (o : Organization) (policy target : String) :
    (∃ e, o.attachPolicy policy target =
      (.error e, o.after (.attachPolicy policy target) o.snapshot)) ∨
    ∃ s, attached o.snapshot policy target = .ok s ∧
      o.attachPolicy policy target = (.ok (), o.after (.attachPolicy policy target) s) := by
  simp only [attachPolicy]
  split
  · exact .inl ⟨_, rfl⟩
  · split
    · rename_i h
      exact .inr ⟨_, h, rfl⟩
    · exact .inl ⟨_, rfl⟩

/-- Detaching a policy fails and changes nothing, or does what `detached` says. -/
theorem detachPolicy_cases (o : Organization) (policy target : String) :
    (∃ e, o.detachPolicy policy target =
      (.error e, o.after (.detachPolicy policy target) o.snapshot)) ∨
    ∃ s, detached o.snapshot policy target = .ok s ∧
      o.detachPolicy policy target = (.ok (), o.after (.detachPolicy policy target) s) := by
  simp only [detachPolicy]
  split
  · exact .inl ⟨_, rfl⟩
  · split
    · rename_i h
      exact .inr ⟨_, h, rfl⟩
    · exact .inl ⟨_, rfl⟩

/-! ### Calls one after the other -/

/-- The organization after a call, whatever becomes of the call. -/
def perform (o : Organization) : Call → Organization
  | .createOu name parent => (o.createOu name parent).2
  | .moveAccount account source target => (o.moveAccount account source target).2
  | .attachPolicy policy target => (o.attachPolicy policy target).2
  | .detachPolicy policy target => (o.detachPolicy policy target).2

/-- A call adds itself to the log and changes nothing but the snapshot. -/
theorem perform_eq_after (o : Organization) (c : Call) : ∃ s, o.perform c = o.after c s := by
  cases c with
  | createOu name parent =>
    rcases o.createOu_cases name parent with ⟨e, h⟩ | ⟨node, s, -, h⟩
    · exact ⟨o.snapshot, congrArg Prod.snd h⟩
    · exact ⟨s, congrArg Prod.snd h⟩
  | moveAccount account source target =>
    rcases o.moveAccount_cases account source target with ⟨e, h⟩ | ⟨s, -, h⟩
    · exact ⟨o.snapshot, congrArg Prod.snd h⟩
    · exact ⟨s, congrArg Prod.snd h⟩
  | attachPolicy policy target =>
    rcases o.attachPolicy_cases policy target with ⟨e, h⟩ | ⟨s, -, h⟩
    · exact ⟨o.snapshot, congrArg Prod.snd h⟩
    · exact ⟨s, congrArg Prod.snd h⟩
  | detachPolicy policy target =>
    rcases o.detachPolicy_cases policy target with ⟨e, h⟩ | ⟨s, -, h⟩
    · exact ⟨o.snapshot, congrArg Prod.snd h⟩
    · exact ⟨s, congrArg Prod.snd h⟩

/-- The log gets exactly the calls that were issued, in order. -/
theorem calls_foldl_perform (issued : List Call) (o : Organization) :
    (issued.foldl perform o).calls = o.calls ++ issued := by
  induction issued generalizing o with
  | nil => exact (List.append_nil _).symm
  | cons c issued ih =>
    obtain ⟨s, hs⟩ := o.perform_eq_after c
    rw [List.foldl_cons, ih, hs, calls_after, List.append_assoc, List.singleton_append]

/-- Calls do not make anything fail that did not fail before. -/
theorem failing_foldl_perform (issued : List Call) (o : Organization) :
    (issued.foldl perform o).failing = o.failing := by
  induction issued generalizing o with
  | nil => rfl
  | cons c issued ih =>
    obtain ⟨s, hs⟩ := o.perform_eq_after c
    rw [List.foldl_cons, ih, hs, failing_after]

end Organization

/-- Some calls lead from one organization to another. -/
def Issued (o o' : Organization) : Prop :=
  ∃ issued : List Call, o' = issued.foldl Organization.perform o

namespace Issued

variable {o o' o'' : Organization}

theorem refl (o : Organization) : Issued o o := ⟨[], rfl⟩

theorem trans (h : Issued o o') (h' : Issued o' o'') : Issued o o'' := by
  obtain ⟨issued, rfl⟩ := h
  obtain ⟨more, rfl⟩ := h'
  exact ⟨issued ++ more, (List.foldl_append).symm⟩

theorem perform (o : Organization) (c : Call) : Issued o (o.perform c) := ⟨[c], rfl⟩

/-- Calls do not make anything fail that did not fail before. -/
theorem failing_eq (h : Issued o o') : o'.failing = o.failing := by
  obtain ⟨issued, rfl⟩ := h
  exact Organization.failing_foldl_perform issued o

end Issued

/-- Some calls lead from one organization to another, each with a property where it was issued. -/
def IssuedAs (P : Organization → Call → Prop) (o o' : Organization) : Prop :=
  ∃ issued : List Call, o' = issued.foldl Organization.perform o ∧
    ∀ before c after, issued = before ++ c :: after → P (before.foldl Organization.perform o) c

namespace IssuedAs

variable {P : Organization → Call → Prop} {o o' o'' : Organization}

theorem refl (o : Organization) : IssuedAs P o o :=
  ⟨[], rfl, fun _ _ _ h =>
    absurd h.symm (List.append_ne_nil_of_right_ne_nil _ (List.cons_ne_nil _ _))⟩

theorem perform {c : Call} (h : P o c) : IssuedAs P o (o.perform c) := by
  refine ⟨[c], rfl, fun before d after hsplit => ?_⟩
  rcases List.append_eq_singleton_iff.1 hsplit.symm with ⟨rfl, hd⟩ | ⟨-, hd⟩
  · cases hd
    exact h
  · cases hd

theorem trans (h : IssuedAs P o o') (h' : IssuedAs P o' o'') : IssuedAs P o o'' := by
  obtain ⟨first, rfl, hfirst⟩ := h
  obtain ⟨second, rfl, hsecond⟩ := h'
  refine ⟨first ++ second, (List.foldl_append).symm, fun before c after hsplit => ?_⟩
  rcases List.append_eq_append_iff.1 hsplit with ⟨between, rfl, hc⟩ | ⟨between, rfl, hc⟩
  · rw [List.foldl_append]
    exact hsecond between c after hc
  · cases between with
    | nil =>
      rw [List.append_nil] at hsecond
      exact hsecond [] c after hc.symm
    | cons d between =>
      cases hc
      exact hfirst before c between rfl

/-- They are calls. -/
theorem issued (h : IssuedAs P o o') : Issued o o' := by
  obtain ⟨issued, h, -⟩ := h
  exact ⟨issued, h⟩

end IssuedAs

/-! ### Calls that nothing was made to fail -/

/-- The subjects that can make a call fail. -/
def Call.subjects : Call → List String
  | createOu name parent => [name, parent]
  | moveAccount account _ target => [account, target]
  | attachPolicy _ target => [target]
  | detachPolicy _ target => [target]

/-- None of the calls that lead from one organization to another was made to fail. -/
def Unharmed (o o' : Organization) : Prop :=
  ∀ c ∈ o'.calls.drop o.calls.length, ∀ x ∈ c.subjects, x ∉ o.failing

namespace Unharmed

variable {o o₁ o₂ : Organization}

/-- Where nothing is made to fail, no call is. -/
theorem of_failing_eq_nil (h : o.failing = []) (o' : Organization) : Unharmed o o' := by
  intro c _ x _
  rw [h]
  exact List.not_mem_nil

/-- Of calls in two stretches none was made to fail iff none was in either. -/
theorem split (h₁ : Issued o o₁) (h₂ : Issued o₁ o₂) (h : Unharmed o o₂) :
    Unharmed o o₁ ∧ Unharmed o₁ o₂ := by
  have hfailing := h₁.failing_eq
  obtain ⟨first, rfl⟩ := h₁
  obtain ⟨second, rfl⟩ := h₂
  unfold Unharmed at h ⊢
  simp only [Organization.calls_foldl_perform, List.append_assoc, List.drop_left] at h ⊢
  rw [← List.append_assoc, List.drop_left, hfailing]
  exact ⟨fun c hc => h c (List.mem_append_left _ hc), fun c hc => h c (List.mem_append_right _ hc)⟩

/-- The subjects of a call that was not made to fail are available. -/
theorem available {c : Call} (h : Unharmed o (o.perform c)) {op : Operation} :
    o.unavailable? op c.subjects = none := by
  obtain ⟨s, hs⟩ := o.perform_eq_after c
  unfold Unharmed at h
  rw [hs, Organization.calls_after, List.drop_left] at h
  exact Organization.unavailable?_eq_none.2 (h c List.mem_cons_self)

/-- A call that was not made to fail has no subject that is. -/
theorem no_subject {c : Call} (h : Unharmed o (o.perform c)) :
    ¬ ∃ x ∈ c.subjects, x ∈ o.failing := by
  have havailable : o.unavailable? .createOrganizationalUnit c.subjects = none := h.available
  rintro ⟨x, hx, hfailing⟩
  exact Organization.unavailable?_eq_none.1 havailable x hx hfailing

end Unharmed

namespace Organization

variable {o : Organization}

/-- Where a subject is made to fail, the error is no success. -/
theorem unavailable?_of_failing {subjects : List String} (h : ∃ x ∈ subjects, x ∈ o.failing)
    (op : Operation) : ∃ e, e.isNoOp = false ∧ o.unavailable? op subjects = some e := by
  cases hfind : subjects.find? o.failing.contains with
  | none =>
    obtain ⟨x, hx, hfailing⟩ := h
    exact absurd (List.contains_iff_mem.2 hfailing) (List.find?_eq_none.1 hfind x hx)
  | some x => exact ⟨_, rfl, Option.map_eq_some_iff.2 ⟨x, hfind, rfl⟩⟩

/-- Creating a unit whose name or parent is made to fail changes nothing, and is no success. -/
theorem createOu_of_failing {name parent : String} (h : ∃ x ∈ [name, parent], x ∈ o.failing) :
    ∃ e, e.isNoOp = false ∧ o.createOu name parent =
      (.error e, o.after (.createOu name parent) o.snapshot) := by
  obtain ⟨e, hnoOp, he⟩ : ∃ e, e.isNoOp = false ∧ (o.record (.createOu name parent)).unavailable?
      .createOrganizationalUnit [name, parent] = some e := unavailable?_of_failing h _
  refine ⟨e, hnoOp, ?_⟩
  unfold createOu
  simp only [he]
  rfl

/-- Creating a unit does what `created` says, if neither its name nor its parent is made to fail. -/
theorem createOu_of_available {name parent : String} (h : ¬ ∃ x ∈ [name, parent], x ∈ o.failing) :
    o.createOu name parent = match created o.snapshot name parent with
      | .ok (node, s) => (.ok node, o.after (.createOu name parent) s)
      | .error e => (.error e, o.after (.createOu name parent) o.snapshot) := by
  have havailable : (o.record (.createOu name parent)).unavailable? .createOrganizationalUnit
      [name, parent] = none :=
    unavailable?_eq_none.2 fun x hx hfailing => h ⟨x, hx, hfailing⟩
  unfold createOu
  simp only [havailable]
  rfl

/-- Moving an account that is made to fail changes nothing, and is no success. -/
theorem moveAccount_of_failing {account target : String}
    (h : ∃ x ∈ [account, target], x ∈ o.failing) (source : String) :
    ∃ e, e.isNoOp = false ∧ o.moveAccount account source target =
      (.error e, o.after (.moveAccount account source target) o.snapshot) := by
  obtain ⟨e, hnoOp, he⟩ : ∃ e, e.isNoOp = false ∧
      (o.record (.moveAccount account source target)).unavailable? .moveAccount [account, target] =
        some e := unavailable?_of_failing h _
  refine ⟨e, hnoOp, ?_⟩
  unfold moveAccount
  simp only [he]
  rfl

/-- Moving an account does what `moved` says, if neither it nor its new parent is made to fail. -/
theorem moveAccount_of_available {account target : String}
    (h : ¬ ∃ x ∈ [account, target], x ∈ o.failing) (source : String) :
    o.moveAccount account source target = match moved o.snapshot account source target with
      | .ok s => (.ok (), o.after (.moveAccount account source target) s)
      | .error e => (.error e, o.after (.moveAccount account source target) o.snapshot) := by
  have havailable : (o.record (.moveAccount account source target)).unavailable? .moveAccount
      [account, target] = none :=
    unavailable?_eq_none.2 fun x hx hfailing => h ⟨x, hx, hfailing⟩
  unfold moveAccount
  simp only [havailable]
  rfl

end Organization
end OrgAlign.Org
