import OrgAlign.Text.Ascii

/-!
# Slash-separated paths of organizational units

A top-level unit's path is its name; every other unit's path is its parent's path, a slash and its
name. Paths written by people may carry leading, trailing or repeated slashes, so everything here
is defined through `segments`, the non-empty pieces between slashes.
-/

namespace OrgAlign.Path

/-- The character between two segments. -/
def separator : Char := '/'

/-- `name` below `parent`; the empty parent stands for the root. -/
def join (parent name : String) : String :=
  if parent.isEmpty then name else parent ++ "/" ++ name

/-- The non-empty pieces of a path, top-down. -/
def segments (path : String) : List String :=
  ((Text.splitAt separator path.toList).filter (· ≠ [])).map String.ofList

/-- The paths met on the way down `names` from `above`. -/
def descend (above : String) : List String → List String
  | [] => []
  | name :: names => join above name :: descend (join above name) names

/-- Every non-empty beginning of a path, shortest first: `A/B/C` gives `A`, `A/B`, `A/B/C`. -/
def ancestry (path : String) : List String :=
  descend "" (segments path)

/-- The first segment, or the empty text. -/
def topLevel (path : String) : String :=
  (segments path).headD ""

/-- The last segment, or the empty text. -/
def leaf (path : String) : String :=
  (segments path).getLastD ""

/-- The path has exactly one segment. -/
def isTopLevel (path : String) : Bool :=
  (segments path).length == 1

/-- The file stem for a unit's own configuration file: its segments joined by underscores. -/
def fileStem (path : String) : String :=
  String.intercalate "_" (segments path)

/-- The path above the last separator, if there is a separator. -/
def parent? (path : String) : Option String :=
  (Text.cutLast separator path).map Prod.fst

/-- `path` with the beginning `old` replaced by `new`, when `path` is `old` or lies below it.
Whole segments count: `corex` does not lie below `core`. -/
def rebase (path old new : String) : Option String :=
  if path = old then some new
  else match Text.dropHead old.toList path.toList with
    | some (c :: rest) => if c = separator then some (new ++ String.ofList (c :: rest)) else none
    | _ => none

end OrgAlign.Path
