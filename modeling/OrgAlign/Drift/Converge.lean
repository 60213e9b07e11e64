import OrgAlign.Config.Schema
import OrgAlign.Finding
import OrgAlign.Reconcile.Match

/-!
# Bringing the hierarchy in line

Convergence changes the organization so that the declared hierarchy exists: it creates missing
units from the top down, moves suspended accounts into their unit, and moves the primary account
out of the root. A mutation that fails is noted and the rest goes on; one that finds its result
already there is no failure.

The tree is kept in step with every mutation that succeeds, so no step reads the hierarchy again.
-/

namespace OrgAlign.Drift

open Config Org Reconcile

/-- What convergence did. -/
structure Corrections where
  /-- The units created. -/
  created : List LiveOu := []
  /-- The accounts moved, by identifier, and the path each moved to. -/
  moved : List (String × String) := []
  /-- What failed; none where the reason is not known here. -/
  failures : List (Option String) := []
  /-- A warning for each correction. -/
  findings : List Finding := []
deriving DecidableEq, Repr, Inhabited

/-- Nothing was done and nothing failed. -/
def Corrections.isEmpty (c : Corrections) : Bool :=
  c.created.isEmpty && c.moved.isEmpty && c.failures.isEmpty

/-- The organization, the tree kept in step with it, and what was done so far. -/
structure Convergence where
  /-- The organization. -/
  org : Organization
  /-- The hierarchy. -/
  tree : OrgTree
  /-- What was done. -/
  report : Corrections
deriving DecidableEq, Repr

namespace Convergence

/-- Notes a failure. -/
def fail (c : Convergence) (reason : Option String) : Convergence :=
  { c with report := { c.report with failures := c.report.failures ++ [reason] } }

/-- Notes a created unit. -/
def addCreated (c : Convergence) (ou : LiveOu) : Convergence :=
  { c with report := { c.report with created := c.report.created ++ [ou] } }

/-- Notes a moved account. -/
def addMoved (c : Convergence) (account path : String) : Convergence :=
  { c with report := { c.report with moved := c.report.moved ++ [(account, path)] } }

/-- Notes a warning. -/
def warn (c : Convergence) (f : Finding) : Convergence :=
  { c with report := { c.report with findings := c.report.findings ++ [f] } }

/-! ### Creating units -/

/-- How an attempt to create a unit ended. -/
inductive Creation
  | created (ou : LiveOu)
  | present
  | failed (e : ClientError)
deriving DecidableEq, Repr

/-- The parent under which a path is created: the root, or the unit at the path above. -/
def parentFor (t : OrgTree) (path : String) : Except ClientError String :=
  match Path.parent? path with
  | none => .ok t.rootId
  | some above =>
    match t.ouByPath? above with
    | some ou => .ok ou.id
    | none => .error (.notFound .createOrganizationalUnit above)

/-- Creates the unit at a path under its parent. -/
def createOu (c : Convergence) (path : String) : Creation × Convergence :=
  match parentFor c.tree path with
  | .error e => (.failed e, c)
  | .ok parent =>
    match c.org.createOu (Path.leaf path) parent with
    | (.ok node, org) =>
      let (ou, tree) := c.tree.insertOu node
      (.created ou, { c with org, tree })
    | (.error e, org) => (if e.isNoOp then .present else .failed e, { c with org })

/-- Creates the units on the way down to a declared path, until one cannot be created. -/
def createDown (declared : String) : List String → Convergence → Convergence
  | [], c => c
  | path :: paths, c =>
    if (c.tree.ouByPath? path).isSome then createDown declared paths c
    else match c.createOu path with
      | (.created ou, c) =>
        createDown declared paths
          ((c.warn (.warning .missingOu declared
            ("Created organizational unit \"" ++ ou.path ++ "\""))).addCreated ou)
      | (.present, c) => c
      | (.failed e, c) => c.fail e.message?

/-- Creates a declared unit, unless it is ignored or resolves already. -/
def createDeclared (g : GlobalOptions) (c : Convergence) (declared : String) : Convergence :=
  if g.isIgnored (Path.topLevel declared) then c
  else match matchOu declared c.tree.ous with
    | .notFound => createDown declared (Path.ancestry declared) c
    | _ => c

/-- Creates every missing unit. -/
def createMissing (config : Configuration) (c : Convergence) : Convergence :=
  config.declaredPaths.foldl (createDeclared config.options) c

/-! ### Moving accounts -/

/-- Moves an account. The answer says whether it moved. -/
def move (c : Convergence) (a : LiveAccount) (targetId targetPath : String) :
    Bool × Convergence :=
  match c.org.moveAccount a.id a.parent targetId with
  | (.ok _, org) =>
    (true, { c with org, tree := c.tree.relocate a.id targetId }.addMoved a.id targetPath)
  | (.error e, org) =>
    let c := { c with org }
    (false, if e.isNoOp then c else c.fail e.message?)

/-- Moves a suspended account into its unit. -/
def moveSuspended (targetId targetPath : String) (c : Convergence) (a : LiveAccount) :
    Convergence :=
  match c.move a targetId targetPath with
  | (true, c) =>
    c.warn (.warning .suspendedAccount a.id
      ("Moved suspended account \"" ++ a.name ++ "\" (" ++ a.id ++ ") to \"" ++ targetPath ++
        "\""))
  | (false, c) => c

/-- Suspended accounts outside their unit. -/
def outOfPlace (t : OrgTree) (suspendedOu : String) : List LiveAccount :=
  t.accounts.filter fun a => a.isSuspended && t.parentPath? a ≠ some suspendedOu

/-- The unit at a path in a hierarchy read afresh. -/
def reread? (o : Organization) (path : String) : Option String :=
  match OrgTree.read o with
  | .ok t => (t.ouByPath? path).map LiveOu.id
  | .error _ => none

/-- The unit of suspended accounts, created if it is missing. -/
def suspendedTarget (c : Convergence) (path : String) : Option String × Convergence :=
  match c.tree.ouByPath? path with
  | some ou => (some ou.id, c)
  | none =>
    match c.createOu path with
    | (.created ou, c) => (some ou.id, c.addCreated ou)
    | (.failed e, c) => (none, c.fail e.message?)
    | (.present, c) =>
      match reread? c.org path with
      | some id => (some id, c)
      | none => (none, c.fail (some ("cannot locate organizational unit \"" ++ path ++ "\"")))

/-- Moves every suspended account into its unit. -/
def relocateSuspended (config : Configuration) (c : Convergence) : Convergence :=
  let path := config.options.suspendedOu
  match outOfPlace c.tree path with
  | [] => c
  | accounts =>
    match c.suspendedTarget path with
    | (some id, c) => accounts.foldl (moveSuspended id path) c
    | (none, c) => c

/-- The account declared as primary, if the organization keeps it right under the root. -/
def rootPrimary? (config : Configuration) (t : OrgTree) : Option (String × LiveAccount) :=
  (config.accounts.find? fun d => d.entry.role == some .primary).bind fun d =>
    (matchAccount? d.entry.email t.rootAccounts).map (d.key, ·)

/-- Moves the primary account out of the root. -/
def relocatePrimary (config : Configuration) (c : Convergence) : Convergence :=
  match rootPrimary? config c.tree with
  | none => c
  | some (key, live) =>
    match config.account? key with
    | none => c
    | some d =>
      let path := d.entry.path
      match (matchOu path c.tree.ous).ou? with
      | none =>
        c.fail (some ("cannot move primary account \"" ++ key ++ "\": organizational unit \"" ++
          path ++ "\" not found"))
      | some ou =>
        match c.move live ou.id ou.path with
        | (true, c) =>
          c.warn (.warning .ouMembershipMismatch key
            ("Moved primary account \"" ++ live.name ++ "\" from the root to \"" ++ ou.path ++
              "\""))
        | (false, c) => c

end Convergence

/-- Brings the hierarchy of an organization in line with the configuration. -/
def converge (config : Configuration) (org : Organization) (tree : OrgTree) : Convergence :=
  let c : Convergence := ⟨org, tree, {}⟩
  ((c.createMissing config).relocateSuspended config).relocatePrimary config

end OrgAlign.Drift
