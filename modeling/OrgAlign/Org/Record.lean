import OrgAlign.Source

/-!
# Records of the live organization

What the organization reports: its root, its units, its accounts and its policies.
-/

namespace OrgAlign.Org

/-- The state of an account. -/
inductive AccountStatus
  | active
  | suspended
  | pendingClosure
deriving DecidableEq, Repr, Inhabited

namespace AccountStatus

/-- The status as the organization spells it. -/
def name : AccountStatus → String
  | active => "ACTIVE"
  | suspended => "SUSPENDED"
  | pendingClosure => "PENDING_CLOSURE"

/-- The states with their names. -/
def named : List (String × AccountStatus) :=
  [active, suspended, pendingClosure].map fun s => (s.name, s)

/-- Reads a status. -/
def read? {δ : Type} [Source δ] (d : δ) : Option AccountStatus :=
  (Source.choice? d).bind (Label.pick named)

end AccountStatus

/-- An account. -/
structure LiveAccount where
  /-- Its identifier. -/
  id : String
  /-- Its name. -/
  name : String
  /-- Its e-mail address. -/
  email : String
  /-- Its state. -/
  status : AccountStatus
  /-- The root or the unit that holds it. -/
  parent : String
deriving DecidableEq, Repr

/-- The account is suspended. -/
def LiveAccount.isSuspended (a : LiveAccount) : Bool := a.status = .suspended

/-- A unit as the organization lists it. -/
structure OuNode where
  /-- Its identifier. -/
  id : String
  /-- Its name. -/
  name : String
  /-- The root or the unit that holds it. -/
  parent : String
deriving DecidableEq, Repr

/-- A unit with its path. -/
structure LiveOu where
  /-- Its identifier. -/
  id : String
  /-- Its name. -/
  name : String
  /-- The root or the unit that holds it. -/
  parent : String
  /-- Its path from the root. -/
  path : String
deriving DecidableEq, Repr

/-- A unit right under the root. -/
def LiveOu.isTopLevel (o : LiveOu) : Bool := o.path = o.name

/-- The root. -/
structure Root where
  /-- Its identifier. -/
  id : String
  /-- Its name. -/
  name : String
deriving DecidableEq, Repr

/-- A policy. -/
structure Policy where
  /-- Its identifier. -/
  id : String
  /-- Its name. -/
  name : String
deriving DecidableEq, Repr

/-- A policy with everything that it is attached to. -/
structure AttachedPolicy where
  /-- Its identifier. -/
  id : String
  /-- Its name. -/
  name : String
  /-- The root, units and accounts it is attached to. -/
  targets : List String
deriving DecidableEq, Repr

/-- The policy itself. -/
def AttachedPolicy.policy (p : AttachedPolicy) : Policy := ⟨p.id, p.name⟩

/-- The policy is attached to a target. -/
def AttachedPolicy.isOn (p : AttachedPolicy) (target : String) : Bool := p.targets.contains target

end OrgAlign.Org
