import OrgAlign.Files.Disk
import OrgAlign.Org.Organization
import OrgAlign.State.Published

/-!
# Where the published state is kept

The state of each organization is a file of its own below the home folder. A file that cannot be
read is an error, one that is not there is not.
-/

namespace OrgAlign

open Files

/-- Where the published state of an organization is kept. -/
structure StateStore where
  /-- The path of the home folder. -/
  home : String
  /-- The organization's name. -/
  organization : String
deriving DecidableEq, Repr

namespace StateStore

/-- The folder of states below the home folder. -/
def folder : String := ".orgsync/state"

/-- The path of the state's file. -/
def path (s : StateStore) : String := under (under s.home folder) (s.organization ++ ".json")

/-- The state published last. -/
def load (s : StateStore) (d : Disk) : Except ClientError (Option PublishedState) :=
  if d.isThere s.path then
    match (d.read? s.path).bind PublishedState.parse? with
    | some state => .ok (some state)
    | none => .error (.failed .loadPrevious none)
  else .ok none

/-- Publishes a state. -/
def publish (s : StateStore) (d : Disk) (state : PublishedState) : Except ClientError Unit × Disk :=
  match d.replace s.path state.text with
  | (true, d) => (.ok (), d)
  | (false, d) => (.error (.failed .publish none), d)

end StateStore
end OrgAlign
