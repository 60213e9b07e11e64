import OrgAlign.Guard.Enforce
import OrgAlign.Proofs.Org.CallLog
import OrgAlign.Proofs.Walks

/-!
# What the steps of enforcement keep

Enforcement attaches and detaches policies and notes in its report what became of it. Main
statements:

* `enforceOn_keeps`: what survives every attempt and every note survives the work on a target;
* `enforceWith_eq_ok`, `enforceWith_keeps`: and all of the work;
* `issued_enforceWith`: enforcement changes the organization by calls alone.
-/

namespace OrgAlign.Guard

open Config Org

namespace Enforcement

/-! ### Attempts -/

/-- An attempt to attach a policy is refused or noted. -/
theorem attach_cases (e : Enforcement) (p : Policy) (t : Target) :
    (∃ error, (e.org.attachPolicy p.id t.id).1 = .error error ∧
      e.attach p t = { e with org := (e.org.attachPolicy p.id t.id).2 }.settle error) ∨
    ((e.org.attachPolicy p.id t.id).1 = .ok () ∧
      e.attach p t =
        { org := (e.org.attachPolicy p.id t.id).2
          report := { e.report with attached := e.report.attached ++ [(p.name, t.name)] } }) := by
  rcases h : e.org.attachPolicy p.id t.id with ⟨error | ⟨⟩, org⟩
  · exact .inl ⟨error, rfl, by simp only [attach, h]⟩
  · exact .inr ⟨rfl, by simp only [attach, h]⟩

/-- An attempt to detach a policy is refused or noted. -/
theorem detach_cases (e : Enforcement) (p : Policy) (t : Target) :
    (∃ error, (e.org.detachPolicy p.id t.id).1 = .error error ∧
      e.detach t p = { e with org := (e.org.detachPolicy p.id t.id).2 }.settle error) ∨
    ((e.org.detachPolicy p.id t.id).1 = .ok () ∧
      e.detach t p =
        { org := (e.org.detachPolicy p.id t.id).2
          report := { e.report with detached := e.report.detached ++ [(p.name, t.name)] } }) := by
  rcases h : e.org.detachPolicy p.id t.id with ⟨error | ⟨⟩, org⟩
  · exact .inl ⟨error, rfl, by simp only [detach, h]⟩
  · exact .inr ⟨rfl, by simp only [detach, h]⟩

@[simp] theorem settle_org (e : Enforcement) (error : ClientError) :
    (e.settle error).org = e.org := by
  unfold settle
  split <;> rfl

@[simp] theorem settle_attached (e : Enforcement) (error : ClientError) :
    (e.settle error).report.attached = e.report.attached := by
  unfold settle
  split <;> rfl

@[simp] theorem settle_detached (e : Enforcement) (error : ClientError) :
    (e.settle error).report.detached = e.report.detached := by
  unfold settle
  split <;> rfl

/-! ### Targets -/

section

variable (Inv : Enforcement → Prop)
  (hreport : ∀ e report, Inv e → Inv { e with report })
  (hattach : ∀ e p t, Inv e → Inv (e.attach p t))
  (hdetach : ∀ e t p, Inv e → Inv (e.detach t p))

include hreport hattach hdetach

theorem enforceOn_keeps (quarantine : Policy) (baseline : String) (carriers : List String)
    (e : Enforcement) (t : Target) (he : Inv e) :
    Inv (enforceOn quarantine baseline carriers e t) := by
  have hisolate : Inv (isolate quarantine baseline (carriers.contains t.id) e t) := by
    unfold isolate
    split
    · exact hreport _ _ he
    · have hdone := foldl_keeps Inv (fun e p => hdetach e t p)
      simp only
      split
      · exact hdone _ e he
      · exact hattach _ _ _ (hdone _ e he)
  simp only [enforceOn]
  split
  · exact he
  · split
    · exact hdetach _ _ _ he
    · exact he
  · exact hisolate

end
end Enforcement

/-! ### All targets -/

variable {c : Configuration} {quarantine : Policy} {p : Plan} {o : Organization}
  {e : Enforcement}

/-- Enforcement starts iff the quarantine policy can be looked up, and then it goes through all
targets. -/
theorem enforceWith_eq_ok : enforceWith c quarantine p o = .ok e ↔
    ∃ carriers, o.targetsOf quarantine.id = .ok carriers ∧
      e = p.targets.foldl
        (Enforcement.enforceOn quarantine c.options.baselinePolicy carriers) ⟨o, {}⟩ := by
  unfold enforceWith
  cases o.targetsOf quarantine.id with
  | error error => simp
  | ok carriers => simp [eq_comm]

/-- What survives every attempt and every note survives enforcement. -/
theorem enforceWith_keeps (Inv : Enforcement → Prop)
    (hreport : ∀ e report, Inv e → Inv { e with report })
    (hattach : ∀ e p t, Inv e → Inv (e.attach p t))
    (hdetach : ∀ e t p, Inv e → Inv (e.detach t p)) (ho : Inv ⟨o, {}⟩)
    (h : enforceWith c quarantine p o = .ok e) : Inv e := by
  obtain ⟨carriers, -, rfl⟩ := enforceWith_eq_ok.1 h
  exact foldl_keeps Inv
    (fun e t => Enforcement.enforceOn_keeps Inv hreport hattach hdetach quarantine _ carriers e t)
    _ _ ho

/-- Enforcement changes the organization by calls alone. -/
theorem issued_enforceWith (h : enforceWith c quarantine p o = .ok e) : Issued o e.org := by
  refine enforceWith_keeps (fun e => Issued o e.org) (fun _ _ h => h) ?_ ?_ (Issued.refl o) h
  · intro e p t he
    have hcall := Issued.trans he (Issued.perform e.org (.attachPolicy p.id t.id))
    rcases e.attach_cases p t with ⟨error, -, h⟩ | ⟨-, h⟩
    · change Issued o (e.attach p t).org
      rw [h, Enforcement.settle_org]
      exact hcall
    · change Issued o (e.attach p t).org
      rw [h]
      exact hcall
  · intro e t p he
    have hcall := Issued.trans he (Issued.perform e.org (.detachPolicy p.id t.id))
    rcases e.detach_cases p t with ⟨error, -, h⟩ | ⟨-, h⟩
    · change Issued o (e.detach t p).org
      rw [h, Enforcement.settle_org]
      exact hcall
    · change Issued o (e.detach t p).org
      rw [h]
      exact hcall

end OrgAlign.Guard
