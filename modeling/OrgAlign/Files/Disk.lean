import OrgAlign.Path
import OrgAlign.Sorting

/-!
# Folders and files

A `Disk` holds text files in folders. A place is the list of names that lead to it from the top; a
path is a text that leads from the top, or from the current folder, to a place (`Disk.locate?`). On
the way every place has to be a folder, `..` goes up, and a path that ends in a slash leads to a
folder only.

Operations say whether they took place. One that fails may have made folders on its way; it never
touches a file.
-/

namespace OrgAlign.Files

/-- The names that lead from the top to a folder or file. -/
abbrev Place := List String

/-- What is at a place. -/
inductive Node
  | folder
  | file (text : String)
deriving DecidableEq, Repr

/-- Folders and files. -/
structure Disk where
  /-- What is at each place below the top. -/
  nodes : List (Place × Node) := []
  /-- The folder from which relative paths lead. -/
  current : Place := []
deriving DecidableEq, Repr, Inhabited

/-! ### Paths -/

/-- The name of the folder itself. -/
def here : String := "."

/-- The name of the folder above. -/
def above : String := ".."

/-- How many bytes a name has at most. -/
def longestName : Nat := 255

/-- A name that a folder or file can have. -/
def isName (step : String) : Bool :=
  step.utf8ByteSize ≤ longestName && !step.toList.contains (Char.ofNat 0)

/-- The path leads from the top. -/
def isAbsolute (path : String) : Bool := path.toList.head? = some Path.separator

/-- The path can only lead to a folder. -/
def endsInFolder (path : String) : Bool :=
  path.toList.getLast? = some Path.separator || Path.leaf path = here

/-- The names and upward steps of a path. -/
def stepsOf (path : String) : List String := (Path.segments path).filter (· ≠ here)

/-- The path that leads on from a folder; an absolute one stays as it is. -/
def under (folder path : String) : String :=
  if isAbsolute path || folder.isEmpty then path
  else if folder.toList.getLast? = some Path.separator then folder ++ path
  else folder ++ "/" ++ path

namespace Disk

/-! ### What is where -/

/-- What is at a place. -/
def at? (d : Disk) (p : Place) : Option Node :=
  if p = [] then some .folder else (d.nodes.find? (·.1 == p)).map Prod.snd

/-- There is a folder at a place. -/
def isFolder (d : Disk) (p : Place) : Bool := d.at? p = some .folder

/-- The place where one step leads. -/
def stepFrom (p : Place) (step : String) : Place := if step = above then p.dropLast else p ++ [step]

/-- The place where steps lead through folders. -/
def walk? (d : Disk) (p : Place) : List String → Option Place
  | [] => some p
  | step :: steps =>
    if d.isFolder p && isName step then walk? d (stepFrom p step) steps else none

/-- The folder from which a path leads. -/
def origin (d : Disk) (path : String) : Place := if isAbsolute path then [] else d.current

/-- The place that a path leads to, whether anything is there or not. -/
def locate? (d : Disk) (path : String) : Option Place :=
  if path.isEmpty then none
  else (d.walk? (d.origin path) (stepsOf path)).bind fun p =>
    if endsInFolder path && !d.isFolder p then none else some p

/-- What a path leads to. -/
def node? (d : Disk) (path : String) : Option Node := (d.locate? path).bind d.at?

/-- Something is at the end of a path. -/
def isThere (d : Disk) (path : String) : Bool := (d.node? path).isSome

/-- The text of the file at the end of a path. -/
def read? (d : Disk) (path : String) : Option String :=
  match d.node? path with
  | some (.file text) => some text
  | _ => none

/-! ### Changing it -/

/-- Puts a node at a place. -/
def set (d : Disk) (p : Place) (n : Node) : Disk :=
  if d.nodes.any (·.1 == p) then
    { d with nodes := d.nodes.map fun e => if e.1 == p then (p, n) else e }
  else { d with nodes := d.nodes ++ [(p, n)] }

/-- Takes the node at a place away. -/
def erase (d : Disk) (p : Place) : Disk := { d with nodes := d.nodes.filter (·.1 ≠ p) }

/-- Makes the folders that are missing on the way along steps, up to the first file. -/
def makeWay (d : Disk) (p : Place) : List String → Bool × Disk
  | [] => (d.isFolder p, d)
  | step :: steps =>
    if d.isFolder p && isName step then
      let next := stepFrom p step
      match d.at? next with
      | some _ => makeWay d next steps
      | none => makeWay (d.set next .folder) next steps
    else (false, d)

/-- Makes the folder that is to hold what a path leads to. -/
def makeParent (d : Disk) (path : String) : Bool × Disk :=
  match stepsOf path with
  | [] => (true, d)
  | steps => d.makeWay (d.origin path) steps.dropLast

/-- Writes a file. -/
def write? (d : Disk) (path text : String) : Option Disk :=
  if endsInFolder path then none
  else (d.locate? path).bind fun p => if d.isFolder p then none else some (d.set p (.file text))

/-- Moves a file over whatever file is at the end of another path. -/
def rename? (d : Disk) (source target : String) : Option Disk := do
  let p ← d.locate? source
  let text ← d.read? source
  let q ← d.locate? target
  if d.isFolder q then none else some ((d.erase p).set q (.file text))

/-- Removes a file. -/
def remove? (d : Disk) (path : String) : Option Disk := do
  let p ← d.locate? path
  let _ ← d.read? path
  some (d.erase p)

/-- The path of the file that is written before it takes the place of another one. -/
def temporary (path : String) : String := path ++ ".tmp"

/-- Replaces the text of a file: its folder is made if it is missing, the text goes to a temporary
file beside it, and that file then takes its place. -/
def replace (d : Disk) (path text : String) : Bool × Disk :=
  match d.makeParent path with
  | (false, d) => (false, d)
  | (true, d) =>
    match d.write? (temporary path) text with
    | none => (false, d)
    | some written =>
      match written.rename? (temporary path) path with
      | some renamed => (true, renamed)
      | none => (false, (written.remove? (temporary path)).getD written)

/-! ### Listing -/

/-- The steps from one place down to another, if it lies below. -/
def below? (base p : Place) : Option (List String) :=
  if base.isPrefixOf p && p ≠ base then some (p.drop base.length) else none

/-- The files below a place, each with the steps down to it. -/
def filesBelow (d : Disk) (base : Place) : List (List String × String) :=
  d.nodes.filterMap fun e =>
    match e.2, below? base e.1 with
    | .file text, some steps => some (steps, text)
    | _, _ => none

end Disk
end OrgAlign.Files
