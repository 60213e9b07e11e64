import OrgAlign.Org.Snapshot

/-!
# The organization

An organization answers look-ups and carries out four mutations: creating a unit, moving an
account, attaching a policy and detaching one. Every attempt at a mutation is kept in the call log,
whatever becomes of it. Subjects can be made to fail, so that callers can be watched at it.

A mutation that finds its result already there says so (`ClientError.noOp`); callers take that for
success.
-/

namespace OrgAlign

/-- What was asked of a collaborator. -/
inductive Operation
  | getOrganizationalUnit
  | listAccountsForParent
  | moveAccount
  | createOrganizationalUnit
  | listPoliciesForTarget
  | listTargetsForPolicy
  | attachPolicy
  | detachPolicy
  | getFile
  | commit
  | loadPrevious
  | publish
deriving DecidableEq, Repr

/-- The operation's name. -/
def Operation.name : Operation → String
  | getOrganizationalUnit => "get_organizational_unit"
  | listAccountsForParent => "list_accounts_for_parent"
  | moveAccount => "move_account"
  | createOrganizationalUnit => "create_organizational_unit"
  | listPoliciesForTarget => "list_policies_for_target"
  | listTargetsForPolicy => "list_targets_for_policy"
  | attachPolicy => "attach_policy"
  | detachPolicy => "detach_policy"
  | getFile => "get_file"
  | commit => "commit"
  | loadPrevious => "load_previous"
  | publish => "publish"

/-- Why a collaborator did not do what was asked. A reason in the operating system's or a parser's
words is not known here. -/
inductive ClientError
  | noOp (operation : Operation) (detail : String)
  | notFound (operation : Operation) (resource : String)
  | failed (operation : Operation) (reason : Option String)
deriving DecidableEq, Repr

namespace ClientError

/-- The result was already there. -/
def isNoOp : ClientError → Bool
  | noOp _ _ => true
  | _ => false

/-- The message, unless it quotes the operating system or a parser. -/
def message? : ClientError → Option String
  | noOp o detail => some (o.name ++ ": no change (" ++ detail ++ ")")
  | notFound o resource => some (o.name ++ ": " ++ resource ++ " not found")
  | failed o reason => reason.map fun r => o.name ++ " failed: " ++ r

/-- The message; an unknown reason leaves a gap. -/
def message (e : ClientError) : String := e.message?.getD ""

end ClientError

namespace Org

/-- An attempted mutation. -/
inductive Call
  | createOu (name parent : String)
  | moveAccount (account source target : String)
  | attachPolicy (policy target : String)
  | detachPolicy (policy target : String)
deriving DecidableEq, Repr

/-- The call on one line. -/
def Call.text : Call → String
  | createOu name parent => "create-organizational-unit " ++ name ++ " under " ++ parent
  | moveAccount account source target =>
    "move-account " ++ account ++ " " ++ source ++ " -> " ++ target
  | attachPolicy policy target => "attach-policy " ++ policy ++ " to " ++ target
  | detachPolicy policy target => "detach-policy " ++ policy ++ " from " ++ target

/-- An organization. -/
structure Organization where
  /-- Its state. -/
  snapshot : Snapshot
  /-- The mutations attempted, in order. -/
  calls : List Call := []
  /-- The subjects made to fail. -/
  failing : List String := []
deriving DecidableEq, Repr, Inhabited

namespace Organization

/-! ### Failing subjects and the log -/

/-- Makes every call that touches a subject fail. -/
def failOn (o : Organization) (subject : String) : Organization :=
  { o with failing := subject :: o.failing }

/-- Forgets the calls. -/
def clearCalls (o : Organization) : Organization := { o with calls := [] }

/-- Adds a call to the log. -/
def record (o : Organization) (c : Call) : Organization := { o with calls := o.calls ++ [c] }

/-- The error of the first subject that is made to fail. -/
def unavailable? (o : Organization) (op : Operation) (subjects : List String) :
    Option ClientError :=
  (subjects.find? o.failing.contains).map fun s => .failed op (some (s ++ " is unavailable"))

/-! ### Look-ups -/

/-- The root, or none. -/
def roots (o : Organization) : List Root := o.snapshot.root.toList

/-- A unit with its path. -/
def ouWithPath (o : Organization) (id : String) : Except ClientError LiveOu :=
  match o.snapshot.ou? id with
  | some node => .ok (o.snapshot.located node)
  | none => .error (.notFound .getOrganizationalUnit id)

/-- The accounts right under a parent. -/
def accountsUnder (o : Organization) (parent : String) : Except ClientError (List LiveAccount) :=
  if o.snapshot.isParent parent then .ok (o.snapshot.accounts.filter (·.parent == parent))
  else .error (.notFound .listAccountsForParent parent)

/-- The policies, or those with a name. -/
def policies (o : Organization) (name : Option String) : List Policy :=
  (o.snapshot.policies.map AttachedPolicy.policy).filter fun p => name.all (· == p.name)

/-- The policies attached to a target. -/
def policiesFor (o : Organization) (target : String) : Except ClientError (List Policy) :=
  match o.unavailable? .listPoliciesForTarget [target] with
  | some e => .error e
  | none => .ok ((o.snapshot.policies.filter (·.isOn target)).map AttachedPolicy.policy)

/-- What a policy is attached to. -/
def targetsOf (o : Organization) (policy : String) : Except ClientError (List String) :=
  match o.snapshot.policies.find? (·.id == policy) with
  | some p => .ok p.targets
  | none => .error (.notFound .listTargetsForPolicy policy)

/-! ### Mutations -/

/-- Replaces the first item that satisfies `p`. -/
def updateFirst {α : Type} (p : α → Bool) (f : α → α) : List α → List α
  | [] => []
  | a :: as => if p a then f a :: as else a :: updateFirst p f as

/-- The outcome of a mutation, and the organization after it. -/
abbrev Outcome (α : Type) := Except ClientError α × Organization

/-- A mutation that does not take place. -/
def refuse {α : Type} (o : Organization) (e : ClientError) : Outcome α := (.error e, o)

/-- A mutation that takes place. -/
def commit {α : Type} (o : Organization) (a : α) (s : Snapshot) : Outcome α :=
  (.ok a, { o with snapshot := s })

/-- What moving an account does to a snapshot. -/
def moved (s : Snapshot) (account source target : String) : Except ClientError Snapshot :=
  if !s.isParent target then .error (.notFound .moveAccount target)
  else match s.accounts.find? (·.id == account) with
    | none => .error (.notFound .moveAccount account)
    | some a =>
      if a.parent = target then
        .error (.noOp .moveAccount (account ++ " already in " ++ target))
      else if a.parent ≠ source then
        .error (.failed .moveAccount (some (account ++ " is not in " ++ source)))
      else
        .ok { s with
          accounts := updateFirst (·.id == account) (fun a => { a with parent := target })
            s.accounts }

/-- Moves an account from one parent to another. -/
def moveAccount (o : Organization) (account source target : String) : Outcome Unit :=
  let o := o.record (.moveAccount account source target)
  match o.unavailable? .moveAccount [account, target] with
  | some e => o.refuse e
  | none =>
    match moved o.snapshot account source target with
    | .ok s => o.commit () s
    | .error e => o.refuse e

/-- What creating a unit does to a snapshot. -/
def created (s : Snapshot) (name parent : String) : Except ClientError (OuNode × Snapshot) :=
  if !s.isParent parent then .error (.notFound .createOrganizationalUnit parent)
  else if s.ous.any fun o => o.name == name && o.parent == parent then
    .error (.noOp .createOrganizationalUnit (name ++ " already exists under " ++ parent))
  else
    let node : OuNode := ⟨s.nextOuId, name, parent⟩
    .ok (node, { s with ous := s.ous ++ [node] })

/-- Creates a unit under a parent. -/
def createOu (o : Organization) (name parent : String) : Outcome OuNode :=
  let o := o.record (.createOu name parent)
  match o.unavailable? .createOrganizationalUnit [name, parent] with
  | some e => o.refuse e
  | none =>
    match created o.snapshot name parent with
    | .ok (node, s) => o.commit node s
    | .error e => o.refuse e

/-- What attaching a policy does to a snapshot. -/
def attached (s : Snapshot) (policy target : String) : Except ClientError Snapshot :=
  if !s.isTarget target then .error (.notFound .attachPolicy target)
  else match s.policies.find? (·.id == policy) with
    | none => .error (.notFound .attachPolicy policy)
    | some p =>
      if p.isOn target then .error (.noOp .attachPolicy (policy ++ " already on " ++ target))
      else
        .ok { s with
          policies := updateFirst (·.id == policy)
            (fun p => { p with targets := p.targets ++ [target] }) s.policies }

/-- Attaches a policy to a target. -/
def attachPolicy (o : Organization) (policy target : String) : Outcome Unit :=
  let o := o.record (.attachPolicy policy target)
  match o.unavailable? .attachPolicy [target] with
  | some e => o.refuse e
  | none =>
    match attached o.snapshot policy target with
    | .ok s => o.commit () s
    | .error e => o.refuse e

/-- What detaching a policy does to a snapshot. -/
def detached (s : Snapshot) (policy target : String) : Except ClientError Snapshot :=
  match s.policies.find? (·.id == policy) with
  | none => .error (.notFound .detachPolicy policy)
  | some p =>
    if p.isOn target then
      .ok { s with
        policies := updateFirst (·.id == policy)
          (fun p => { p with targets := p.targets.filter (· ≠ target) }) s.policies }
    else .error (.noOp .detachPolicy (policy ++ " not on " ++ target))

/-- Detaches a policy from a target. -/
def detachPolicy (o : Organization) (policy target : String) : Outcome Unit :=
  let o := o.record (.detachPolicy policy target)
  match o.unavailable? .detachPolicy [target] with
  | some e => o.refuse e
  | none =>
    match detached o.snapshot policy target with
    | .ok s => o.commit () s
    | .error e => o.refuse e

end Organization
end Org
end OrgAlign
