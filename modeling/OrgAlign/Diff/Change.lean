import OrgAlign.Config.Change
import OrgAlign.Diff.Unified

/-!
# Diffs of configuration changes

Each change as a unified diff against the text that it replaces; a text that is not there counts as
empty. Line ends of two characters count as line feeds, so a change of line ends alone is none.
-/

namespace OrgAlign.Diff

open Config

/-- The text with every carriage return before a line feed left out. -/
def unifyLineEnds : List Char → List Char
  | '\r' :: '\n' :: rest => '\n' :: unifyLineEnds rest
  | c :: rest => c :: unifyLineEnds rest
  | [] => []

/-- The text with line feeds at the ends of its lines. -/
def withLineFeeds (text : String) : String := String.ofList (unifyLineEnds text.toList)

/-- What a change does to one file. -/
structure FileDiff where
  /-- The file's path. -/
  path : String
  /-- The unified diff. -/
  text : String
deriving DecidableEq, Repr

/-- The diff of a change, if it changes anything. -/
def fileDiff? (c : FileChange) : Option FileDiff :=
  let old := withLineFeeds (c.previous.getD "")
  let new := withLineFeeds c.content
  if old = new then none
  else some ⟨c.path, unified ("a/" ++ c.path) ("b/" ++ c.path) old new⟩

/-- The diffs of changes. -/
def fileDiffs (changes : List FileChange) : List FileDiff := changes.filterMap fileDiff?

end OrgAlign.Diff
