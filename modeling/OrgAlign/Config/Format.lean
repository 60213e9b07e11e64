import OrgAlign.Text.Ascii

/-!
# The format of a configuration file

A file is JSON if its name ends in `.json`, in whatever case, and YAML otherwise.
-/

namespace OrgAlign.Config

/-- How a configuration file is written. -/
inductive Format
  | yaml
  | json
deriving DecidableEq, Repr, Inhabited

namespace Format

/-- The format that a path's extension announces. -/
def ofPath (path : String) : Format :=
  match Text.cutLast '.' path with
  | some (_, extension) => if Text.sameIgnoringCase extension "json" then .json else .yaml
  | none => .yaml

/-- The usual extension. -/
def extension : Format → String
  | yaml => "yaml"
  | json => "json"

end Format
end OrgAlign.Config
