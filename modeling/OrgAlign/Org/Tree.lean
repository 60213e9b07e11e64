import OrgAlign.Org.Organization

/-!
# The hierarchy as read

An `OrgTree` is the hierarchy read from an organization once: every unit with its path, and the
accounts right under the root and under each unit. Callers that change the organization keep the
tree in step themselves (`insertOu`, `relocate`).

The accounts are kept by parent, in order of the parents' identifiers; the root's own accounts come
first whatever its identifier is.
-/

namespace OrgAlign.Org

/-- Accounts by parent, in order of the parents. -/
abbrev Buckets := List (String × List LiveAccount)

namespace Buckets

/-- The accounts under a parent. -/
def get? (bs : Buckets) (parent : String) : Option (List LiveAccount) :=
  (bs.find? (·.1 == parent)).map Prod.snd

/-- Replaces the accounts under a parent by what `f` makes of them, none if the parent is new. -/
def alter (parent : String) (f : Option (List LiveAccount) → List LiveAccount) :
    Buckets → Buckets
  | [] => [(parent, f none)]
  | b :: bs =>
    if parent = b.1 then (parent, f (some b.2)) :: bs
    else if parent < b.1 then (parent, f none) :: b :: bs
    else b :: alter parent f bs

/-- Sets the accounts under a parent. -/
def set (bs : Buckets) (parent : String) (accounts : List LiveAccount) : Buckets :=
  alter parent (fun _ => accounts) bs

/-- Makes sure that a parent is there. -/
def touch (bs : Buckets) (parent : String) : Buckets := alter parent (·.getD []) bs

/-- Adds an account under its parent. -/
def add (bs : Buckets) (a : LiveAccount) : Buckets :=
  alter a.parent (fun as => as.getD [] ++ [a]) bs

/-- Takes the first account with an identifier out. -/
def take? (id : String) : Buckets → Option (LiveAccount × Buckets)
  | [] => none
  | (parent, accounts) :: bs =>
    match accounts.find? (·.id == id) with
    | some a => some (a, (parent, accounts.eraseP (·.id == id)) :: bs)
    | none => (take? id bs).map fun (a, bs) => (a, (parent, accounts) :: bs)

end Buckets

/-- The hierarchy. -/
structure OrgTree where
  /-- The root's identifier. -/
  rootId : String
  /-- The units with their paths. -/
  ous : List LiveOu
  /-- The accounts by parent. -/
  buckets : Buckets
deriving DecidableEq, Repr

/-- Why a hierarchy cannot be read. -/
inductive ReadError
  | noRoot
  | client (e : ClientError)
deriving DecidableEq, Repr

namespace OrgTree

/-! ### Reading -/

/-- The accounts of the parents listed, read one parent after the other. -/
def readBuckets (o : Organization) : List String → Buckets → Except ReadError Buckets
  | [], bs => .ok bs
  | parent :: parents, bs =>
    match o.accountsUnder parent with
    | .ok accounts => readBuckets o parents (bs.set parent accounts)
    | .error e => .error (.client e)

/-- Reads the hierarchy of an organization. -/
def read (o : Organization) : Except ReadError OrgTree := do
  let root ← match o.roots with
    | r :: _ => .ok r
    | [] => .error .noRoot
  let ous ← o.snapshot.ous.mapM fun node =>
    match o.ouWithPath node.id with
    | .ok ou => .ok ou
    | .error e => .error (.client e)
  let buckets ← readBuckets o (root.id :: ous.map LiveOu.id) []
  pure ⟨root.id, ous, buckets⟩

/-- The hierarchy made of given parts. -/
def ofParts (rootId : String) (ous : List LiveOu) (accounts : List LiveAccount) : OrgTree :=
  let parents := (rootId :: ous.map LiveOu.id).foldl (fun bs id => Buckets.set bs id []) []
  ⟨rootId, ous, accounts.foldl Buckets.add parents⟩

/-! ### Look-ups -/

/-- The units right under the root. -/
def topLevelOus (t : OrgTree) : List LiveOu := t.ous.filter LiveOu.isTopLevel

/-- The first unit with a path. -/
def ouByPath? (t : OrgTree) (path : String) : Option LiveOu := t.ous.find? (·.path == path)

/-- The first unit with an identifier. -/
def ouById? (t : OrgTree) (id : String) : Option LiveOu := t.ous.find? (·.id == id)

/-- The accounts right under a parent. -/
def accountsIn (t : OrgTree) (parent : String) : List LiveAccount :=
  (t.buckets.get? parent).getD []

/-- The accounts right under the root. -/
def rootAccounts (t : OrgTree) : List LiveAccount := t.accountsIn t.rootId

/-- Every account, those under the root first. -/
def accounts (t : OrgTree) : List LiveAccount :=
  t.rootAccounts ++ (t.buckets.filter (·.1 ≠ t.rootId)).flatMap Prod.snd

/-- The first account with an identifier. -/
def accountById? (t : OrgTree) (id : String) : Option LiveAccount := t.accounts.find? (·.id == id)

/-- The path of the unit that holds an account, none under the root. -/
def parentPath? (t : OrgTree) (a : LiveAccount) : Option String :=
  (t.ouById? a.parent).map LiveOu.path

/-! ### Keeping in step -/

/-- Notes a unit created under a parent, and gives it. -/
def insertOu (t : OrgTree) (node : OuNode) : LiveOu × OrgTree :=
  let above := ((t.ouById? node.parent).map LiveOu.path).getD ""
  let ou : LiveOu := ⟨node.id, node.name, node.parent, Path.join above node.name⟩
  (ou, { t with ous := t.ous ++ [ou], buckets := t.buckets.touch node.id })

/-- Notes that an account moved to a parent. -/
def relocate (t : OrgTree) (account target : String) : OrgTree :=
  match t.buckets.take? account with
  | some (a, buckets) => { t with buckets := Buckets.add buckets { a with parent := target } }
  | none => t

end OrgTree
end OrgAlign.Org
