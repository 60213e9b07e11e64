import OrgAlign.Failure
import OrgAlign.Files.Disk

/-!
# Snapshots on disk

An organization is loaded from the file of its snapshot, with an empty call log and nothing made to
fail, and saved to it.
-/

namespace OrgAlign.Org.Organization

open Files

/-- Loads an organization. -/
def load (d : Disk) (path : String) : Except Failure Organization :=
  match d.read? path with
  | none => .error .io
  | some text =>
    match Snapshot.parse text with
    | .ok snapshot => .ok { snapshot }
    | .error why => .error (.snapshot why)

/-- Saves an organization. -/
def save (o : Organization) (d : Disk) (path : String) : Except Failure Unit × Disk :=
  match d.replace path o.snapshot.text with
  | (true, d) => (.ok (), d)
  | (false, d) => (.error .io, d)

end OrgAlign.Org.Organization
