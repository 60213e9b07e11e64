import OrgAlign.Config.Schema
import OrgAlign.Org.Tree
import OrgAlign.Path

/-!
# The guard plan

Every account right under the root and every top-level unit is either governed, because the
configuration declares it or ignores it, or quarantined. The verdict and its reason are a plain
function of the configuration and the hierarchy.
-/

namespace OrgAlign.Guard

open Config Org

/-- What a target is. -/
inductive TargetKind
  | account
  | organizationalUnit
deriving DecidableEq, Repr

/-- The kind's name. -/
def TargetKind.name : TargetKind → String
  | account => "account"
  | organizationalUnit => "organizational-unit"

/-- Why a target is governed or quarantined. -/
inductive Reason
  | declared
  | ignored
  | undeclared
  | rootAccount
  | suspended
deriving DecidableEq, Repr

namespace Reason

/-- The reason's name. -/
def name : Reason → String
  | declared => "declared"
  | ignored => "ignored"
  | undeclared => "undeclared"
  | rootAccount => "root-account"
  | suspended => "suspended"

/-- The reason makes a target governed. -/
def governs : Reason → Bool
  | declared => true
  | ignored => true
  | _ => false

end Reason

/-- A target with its verdict. -/
structure Target where
  /-- Its identifier. -/
  id : String
  /-- Its name. -/
  name : String
  /-- What it is. -/
  kind : TargetKind
  /-- Why it is governed or quarantined. -/
  reason : Reason
deriving DecidableEq, Repr

/-- The target is governed. -/
def Target.governed (t : Target) : Bool := t.reason.governs

/-- A guard plan. -/
structure Plan where
  /-- The targets, accounts first. -/
  targets : List Target := []
deriving DecidableEq, Repr, Inhabited

namespace Plan

/-- The first segments of the declared paths. -/
def declaredTops (c : Configuration) : List String := c.declaredPaths.map Path.topLevel

/-- Why a top-level unit is governed or quarantined. The unit of suspended accounts is quarantined
even if it is ignored or declared. -/
def reasonFor (c : Configuration) (name : String) : Reason :=
  if name = c.options.suspendedOu then .suspended
  else if c.options.isIgnored name then .ignored
  else if (declaredTops c).contains name then .declared
  else .undeclared

/-- The plan for a hierarchy. -/
def compute (c : Configuration) (t : OrgTree) : Plan :=
  ⟨(t.rootAccounts.map fun a => ⟨a.id, a.name, .account, .rootAccount⟩) ++
    t.topLevelOus.map fun o => ⟨o.id, o.name, .organizationalUnit, reasonFor c o.name⟩⟩

/-- The governed targets. -/
def governed (p : Plan) : List Target := p.targets.filter Target.governed

/-- The quarantined targets. -/
def quarantined (p : Plan) : List Target := p.targets.filter fun t => !t.governed

end Plan
end OrgAlign.Guard
