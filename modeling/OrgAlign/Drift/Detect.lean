import OrgAlign.Config.Rename
import OrgAlign.Finding
import OrgAlign.Reconcile.Match
import OrgAlign.State.Published

/-!
# Following the organization in the configuration

What operators do in the organization itself, renaming accounts and units or suspending accounts,
is written back into the configuration: first the accounts renamed since the state was published,
then the suspended accounts, then the renamed units, the shallowest first. Every amendment that
made a difference is a warning.
-/

namespace OrgAlign.Drift

open Config Org

/-- A workspace with the findings about its amendment. -/
structure Amendment where
  /-- The configuration. -/
  workspace : Workspace
  /-- What was amended, in order. -/
  findings : List Finding

/-- Notes a finding. -/
def Amendment.note (r : Amendment) (f : Finding) : Amendment :=
  { r with findings := r.findings ++ [f] }

/-- Applies a patch, and notes a finding if that made a difference. -/
def Amendment.update (r : Amendment) (key : String) (patch : AccountPatch) (f : Finding) :
    Amendment :=
  let (workspace, changed) := r.workspace.updateAccount key patch
  let r := { r with workspace }
  if changed then r.note f else r

/-! ### Accounts -/

/-- The account keeps its declared name whatever the organization calls it. -/
def keepsName (before : CanonicalAccount) : Bool := before.role = some .primary

/-- The live account of a published record, if it was renamed since and is not suspended, and
whether its name changed. -/
def renamed? (tree : OrgTree) (before : CanonicalAccount) : Option (LiveAccount × Bool) :=
  (before.cloudId.bind tree.accountById?).bind fun live =>
    let renamed := !keepsName before && live.name ≠ before.name
    if live.isSuspended || (!renamed && Text.sameIgnoringCase live.email before.email) then none
    else some (live, renamed)

/-- Follows one renamed account. -/
def followAccount (tree : OrgTree) (r : Amendment) (before : CanonicalAccount) : Amendment :=
  match renamed? tree before with
  | none => r
  | some (live, renamed) =>
    r.update before.key
      { name := if renamed then some live.name else none, email := some live.email }
      (.warning .renamedAccount before.key
        ("Account \"" ++ before.key ++ "\" (" ++ live.id ++ ") was renamed from \"" ++
          before.name ++ "\" <" ++ before.email ++ "> to \"" ++ live.name ++ "\" <" ++
          live.email ++ ">"))

/-- Marks the declared account of one suspended account as deleted. The configuration is the one
before any of these markings. -/
def markSuspended (c : Configuration) (r : Amendment) (live : LiveAccount) : Amendment :=
  match c.accountByEmail? live.email with
  | none => r
  | some d =>
    r.update d.key { name := some live.name, email := some live.email, deleted := some true }
      (.warning .suspendedAccount d.key
        ("Account \"" ++ d.key ++ "\" (" ++ live.id ++
          ") is suspended and was marked deleted in the configuration"))

/-- Marks all suspended accounts. -/
def markAllSuspended (tree : OrgTree) (r : Amendment) : Amendment :=
  (tree.accounts.filter LiveAccount.isSuspended).foldl (markSuspended r.workspace.merged) r

/-! ### Units -/

/-- Published units in the order in which they are followed: by depth. -/
def byDepth (ous : List CanonicalOu) : List CanonicalOu :=
  Sorting.sort (fun a b => (Path.segments a.path).length < (Path.segments b.path).length) ous

/-- What a unit's key becomes when the unit is elsewhere now: its path if the key was its path, its
name if the key was its name. -/
def newKey? (before : CanonicalOu) (live : LiveOu) : Option String :=
  if live.path = before.path then none
  else if before.logicalKey = before.path then some live.path
  else if before.logicalKey = before.name then some live.name
  else none

/-- Follows one renamed unit. -/
def followOu (tree : OrgTree) (r : Amendment) (before : CanonicalOu) : Except Error Amendment :=
  match tree.ouById? before.id with
  | none => .ok r
  | some live =>
    match newKey? before live with
    | none => .ok r
    | some key =>
      (r.workspace.renameOu before.logicalKey key).map fun (workspace, changed) =>
        let r := { r with workspace }
        if changed then
          r.note (.warning .renamedOu before.logicalKey
            ("Organizational unit " ++ before.id ++ " moved from \"" ++ before.path ++
              "\" to \"" ++ live.path ++ "\""))
        else r

/-- Follows all renamed units up to the first conflict. What was amended before a
conflict stands. -/
def followOus (tree : OrgTree) : List CanonicalOu → Amendment → Option Error × Amendment
  | [], r => (none, r)
  | before :: rest, r =>
    match followOu tree r before with
    | .ok r => followOus tree rest r
    | .error e => (some e, r)

/-! ### All of it -/

/-- Amends a workspace after the organization. A conflict is told together with what was
amended before it. -/
def detect (tree : OrgTree) (previous : Option PublishedState) (workspace : Workspace) :
    Option Error × Amendment :=
  let r : Amendment := ⟨workspace, []⟩
  match previous with
  | none => (none, markAllSuspended tree r)
  | some state =>
    followOus tree (byDepth state.ous)
      (markAllSuspended tree (state.accounts.foldl (followAccount tree) r))

end OrgAlign.Drift
