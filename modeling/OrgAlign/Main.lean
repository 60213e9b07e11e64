import OrgAlign.Command.Paths
import Std.Time.DateTime.Timestamp

/-!
# The program

Reads what a command line looks at into a `Disk`, carries the command line out on it, and writes
back what is different. Nothing is decided here.
-/

namespace OrgAlign.Console

open Command Files

/-- The absolute path of a place. -/
def textOf (p : Place) : String := "/" ++ String.intercalate "/" p

/-- The place that a path names, whether there are folders on the way or not. -/
def placeOf (d : Disk) (path : String) : Place :=
  (stepsOf path).foldl Disk.stepFrom (d.origin path)

/-- Reads what is at a place. -/
def readPlace (d : Disk) (p : Place) : IO Disk := do
  let path ← IO.FS.realPath (textOf p)
  if ← path.isDir then return d.set p .folder
  else if ← path.pathExists then return d.set p (.file (← IO.FS.readFile path))
  else return d

/-- Reads what is at a place and below it. -/
partial def readBelow (d : Disk) (p : Place) : IO Disk := do
  let mut d ← readPlace d p
  let path ← IO.FS.realPath (textOf p)
  if ← path.isDir then
    for entry in ← path.readDir do
      d ← readBelow d (p ++ [entry.fileName])
  return d

/-- Reads everything on the way to a path, and everything below the path. -/
def readPath (d : Disk) (path : String) : IO Disk := do
  let p := placeOf d path
  let mut d := d
  for n in List.range p.length do
    if n ≠ 0 then d ← readPlace d (p.take n)
  readBelow d p

/-- Replaces a file by way of a temporary one. -/
def writeFile (p : Place) (text : String) : IO Unit := do
  let path := textOf p
  IO.FS.writeFile (Disk.temporary path) text
  IO.FS.rename (Disk.temporary path) path

/-- Writes back what is different. -/
def writeBack (before after : Disk) : IO Unit := do
  for (p, node) in after.nodes do
    if before.at? p ≠ some node then
      match node with
      | .folder => IO.FS.createDirAll (textOf p)
      | .file text => writeFile p text
  for (p, _) in before.nodes do
    if after.at? p = none then IO.FS.removeFile (textOf p)

/-- The present time. -/
def now : IO Timestamp := do
  let t ← Std.Time.Timestamp.now
  let seconds := t.toSecondsSinceUnixEpoch.val
  let nanos := t.toNanosecondsSinceUnixEpoch.val
  return ⟨seconds / 86400, (seconds % 86400).toNat, (nanos % 1000000000).toNat⟩

/-- What a failure says; words that are not known leave a gap. -/
def errorLines (messages : List (Option String)) : String :=
  errorText (messages.map fun m => m.getD "the reason is not known")

/-- Reads what a command line looks at: first what it names, then what the root file lists. -/
def readHost (arguments : List String) : IO Host := do
  let folder ← IO.currentDir
  let start : Disk := { current := Path.segments folder.toString }
  let home ← IO.getEnv "HOME"
  let empty : Host := ⟨start, home, ← now⟩
  let named ← (paths empty arguments).foldlM readPath start
  let listed ← (paths { empty with disk := named } arguments).foldlM readPath named
  return { empty with disk := listed }

end OrgAlign.Console

open OrgAlign Console in
/-- Carries out the command line that the program is started with. -/
def main (arguments : List String) : IO UInt32 := do
  let host ← readHost arguments
  let (answer, disk) := Command.execute host arguments
  writeBack host.disk disk
  IO.print answer.out
  IO.eprint (errorLines answer.messages)
  return answer.code.toUInt32
