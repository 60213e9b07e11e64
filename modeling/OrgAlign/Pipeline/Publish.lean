import OrgAlign.Pipeline.World

/-!
# Committing and publishing

The amended configuration is committed upon the head it was loaded from; where there is nothing to
commit, that head stands. The canonical records are then published with the head they belong to.
-/

namespace OrgAlign.Pipeline

open Config Files

/-- What became of the configuration. -/
inductive Outcome
  | committed (id : String)
  | unchanged (id : String)
deriving DecidableEq, Repr

/-- The head after the run. -/
def Outcome.commitId : Outcome → String
  | committed id => id
  | unchanged id => id

/-- The request that asks for changes. -/
def commitRequest (parent : String) (changes : List FileChange) : CommitRequest :=
  { parent
    puts := changes.filterMap fun
      | .put path content _ => some (path, content)
      | .delete _ _ => none
    deletes := changes.filterMap fun
      | .put _ _ _ => none
      | .delete path _ => some path }

/-- Commits changes. -/
def commit (s : Site) (o : Options) (changes : List FileChange) (d : Disk) :
    Except Failure Outcome × Disk :=
  if changes = [] then (.ok (.unchanged o.commit), d)
  else match s.repository.commit d o.repository (commitRequest o.commit changes) with
    | (.ok id, d) => (.ok (.committed id), d)
    | (.error e, d) => (if e.isNoOp then .ok (.unchanged o.commit) else .error (.client e), d)

/-- The state to publish. -/
def stateOf (c : CanonicalOrganization) (commitId : String) (now : Timestamp) : PublishedState :=
  { publishedAt := now, commitId, accounts := c.accounts, ous := c.ous, warnings := c.warnings }

/-- Publishes canonical records. -/
def publish (s : Site) (state : PublishedState) (d : Disk) : Except Failure Unit × Disk :=
  match s.store.publish d state with
  | (.ok _, d) => (.ok (), d)
  | (.error e, d) => (.error (.client e), d)

end OrgAlign.Pipeline
