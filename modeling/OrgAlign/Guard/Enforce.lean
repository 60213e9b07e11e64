import OrgAlign.Guard.Plan

/-!
# Enforcing the guard plan

A quarantined target carries the quarantine policy and, besides it, at most the baseline policy. A
declared target loses the quarantine policy and keeps the rest; an ignored one is left alone.

Which targets carry the quarantine policy is looked up once, before anything changes. A target that
fails is noted and the others go on.
-/

namespace OrgAlign.Guard

open Config Org

/-- What enforcement did. -/
structure Report where
  /-- Policies attached, by name, each with its target's name. -/
  attached : List (String × String) := []
  /-- Policies detached, by name, each with its target's name. -/
  detached : List (String × String) := []
  /-- What failed; none where the reason is not known here. -/
  failures : List (Option String) := []
deriving DecidableEq, Repr, Inhabited

/-- How many attachments changed. -/
def Report.mutations (r : Report) : Nat := r.attached.length + r.detached.length

/-- The organization and what was done so far. -/
structure Enforcement where
  /-- The organization. -/
  org : Organization
  /-- What was done. -/
  report : Report
deriving DecidableEq, Repr

/-- Why enforcement cannot start. -/
inductive Obstacle
  | missingPolicy (name : String)
  | client (e : ClientError)
deriving DecidableEq, Repr

/-- The quarantine policy that the configuration names. -/
def quarantinePolicy (c : Configuration) (o : Organization) : Except Obstacle Policy :=
  match o.policies (some c.options.quarantinePolicy) with
  | p :: _ => .ok p
  | [] => .error (.missingPolicy c.options.quarantinePolicy)

namespace Enforcement

/-- Notes a failure, unless the result was already there. -/
def settle (e : Enforcement) (error : ClientError) : Enforcement :=
  if error.isNoOp then e
  else { e with report := { e.report with failures := e.report.failures ++ [error.message?] } }

/-- Attaches a policy to a target. -/
def attach (e : Enforcement) (p : Policy) (t : Target) : Enforcement :=
  match e.org.attachPolicy p.id t.id with
  | (.ok _, org) =>
    { org, report := { e.report with attached := e.report.attached ++ [(p.name, t.name)] } }
  | (.error error, org) => { e with org }.settle error

/-- Detaches a policy from a target. -/
def detach (t : Target) (e : Enforcement) (p : Policy) : Enforcement :=
  match e.org.detachPolicy p.id t.id with
  | (.ok _, org) =>
    { org, report := { e.report with detached := e.report.detached ++ [(p.name, t.name)] } }
  | (.error error, org) => { e with org }.settle error

/-- A policy that a quarantined target must not carry. -/
def isForeign (quarantine : Policy) (baseline : String) (p : Policy) : Bool :=
  p.id ≠ quarantine.id && p.name ≠ baseline

/-- Quarantines a target that carries the quarantine policy already or not. -/
def isolate (quarantine : Policy) (baseline : String) (carries : Bool) (e : Enforcement)
    (t : Target) : Enforcement :=
  match e.org.policiesFor t.id with
  | .error error =>
    { e with report := { e.report with failures := e.report.failures ++ [error.message?] } }
  | .ok current =>
    let e := (current.filter (isForeign quarantine baseline)).foldl (detach t) e
    if carries then e else e.attach quarantine t

/-- Does what one target needs. -/
def enforceOn (quarantine : Policy) (baseline : String) (carriers : List String)
    (e : Enforcement) (t : Target) : Enforcement :=
  let carries := carriers.contains t.id
  match t.reason with
  | .ignored => e
  | .declared => if carries then detach t e quarantine else e
  | _ => isolate quarantine baseline carries e t

end Enforcement

/-- Enforces a plan with a given quarantine policy. -/
def enforceWith (c : Configuration) (quarantine : Policy) (p : Plan) (o : Organization) :
    Except Obstacle Enforcement :=
  match o.targetsOf quarantine.id with
  | .error e => .error (.client e)
  | .ok carriers =>
    .ok (p.targets.foldl
      (Enforcement.enforceOn quarantine c.options.baselinePolicy carriers) ⟨o, {}⟩)

/-- Enforces a plan with the quarantine policy that the configuration names. -/
def enforce (c : Configuration) (p : Plan) (o : Organization) : Except Obstacle Enforcement :=
  (quarantinePolicy c o).bind fun quarantine => enforceWith c quarantine p o

end OrgAlign.Guard
