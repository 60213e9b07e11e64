import OrgAlign.Diff.Compact

/-!
# Unified diffs

Changed lines with three unchanged ones around them, in hunks. Two changes share a hunk when no
more than six lines lie between them. A line that does not end with a line end says so below.
-/

namespace OrgAlign.Diff

/-- How many unchanged lines stand around a change. -/
def contextSize : Nat := 3

/-! ### Lines -/

/-- Cuts a text after every line feed, carriage return, or both in that order. The line under
construction is kept last first. -/
def cutLines : List Char → List Char → List String
  | [], [] => []
  | line, [] => [String.ofList line.reverse]
  | line, '\r' :: '\n' :: rest => String.ofList ('\n' :: '\r' :: line).reverse :: cutLines [] rest
  | line, c :: rest =>
    if c = '\n' ∨ c = '\r' then String.ofList (c :: line).reverse :: cutLines [] rest
    else cutLines (c :: line) rest

/-- The lines of a text, line ends included. -/
def linesOf (text : String) : Lines := (cutLines [] text.toList).toArray

/-- The line ends. -/
def isTerminated (line : String) : Bool :=
  line.toList.getLast?.any fun c => c = '\n' || c = '\r'

/-! ### Hunks -/

/-- Keeps the last lines of a first run of kept lines. -/
def trimFirst : List Edit → List Edit
  | e :: rest => (if e.kind = .keep then e.dropFront (e.oldSize - contextSize) else e) :: rest
  | [] => []

/-- Keeps the first lines of a last run of kept lines. -/
def trimLast : List Edit → List Edit
  | [] => []
  | [e] => [if e.kind = .keep then e.dropBack (e.oldSize - contextSize) else e]
  | e :: rest => e :: trimLast rest

/-- Cuts a script in the middle of long runs of kept lines; the group under construction is kept
last first. -/
def groupsFrom (group : List Edit) : List Edit → List (List Edit)
  | [] => [group.reverse]
  | e :: rest =>
    if e.kind = .keep ∧ 2 * contextSize < e.oldSize then
      (e.dropBack (e.oldSize - contextSize) :: group).reverse ::
        groupsFrom [e.dropFront (e.oldSize - contextSize)] rest
    else groupsFrom (e :: group) rest

/-- A group without a change. -/
def isIdle (group : List Edit) : Bool := group.length ≤ 1 && group.all (·.kind = .keep)

/-- The groups of edits that make a hunk each. -/
def groups (edits : List Edit) : List (List Edit) :=
  match (groupsFrom [] (trimLast (trimFirst edits))).reverse with
  | last :: others => if isIdle last then others.reverse else (last :: others).reverse
  | [] => []

/-! ### Text -/

/-- The lines `start` to `stop` in a hunk's header: an empty range begins at the line before it. -/
def rangeText (start stop : Nat) : String :=
  let size := stop - start
  if size = 1 then toString (start + 1)
  else toString (if size = 0 then start else start + 1) ++ "," ++ toString size

/-- What stands below a line without a line end. -/
def unterminatedNote : String := "\n\\ No newline at end of file\n"

/-- Lines with a mark in front of each. -/
def markedLines (mark : String) (lines : Lines) (start size : Nat) : String :=
  ((lines.extract start (start + size)).toList.map fun line =>
    mark ++ line ++ (if isTerminated line then "" else unterminatedNote)).foldl (· ++ ·) ""

/-- The lines of an edit: deleted ones before inserted ones. -/
def editText (old new : Lines) (e : Edit) : String :=
  match e.kind with
  | .keep => markedLines " " old e.oldStart e.oldSize
  | _ => markedLines "-" old e.oldStart e.oldSize ++ markedLines "+" new e.newStart e.newSize

/-- A hunk. -/
def hunkText (old new : Lines) (group : List Edit) : String :=
  match group, group.getLast? with
  | first :: _, some last =>
    "@@ -" ++ rangeText first.oldStart last.oldEnd ++ " +" ++
      rangeText first.newStart last.newEnd ++ " @@\n" ++
      (group.map (editText old new)).foldl (· ++ ·) ""
  | _, _ => ""

/-- The unified diff of two texts under two names; empty when nothing changes. -/
def unified (oldName newName oldText newText : String) : String :=
  let old := linesOf oldText
  let new := linesOf newText
  let hunks := (groups (compact old new (Edit.script old new))).map (hunkText old new)
  if hunks = [] then ""
  else "--- " ++ oldName ++ "\n+++ " ++ newName ++ "\n" ++ hunks.foldl (· ++ ·) ""

end OrgAlign.Diff
