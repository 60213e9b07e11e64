import OrgAlign.Digest.Sha256
import OrgAlign.Files.Disk
import OrgAlign.Org.Organization

/-!
# The configuration repository

A repository is a folder, and what the folder holds now is its only revision. The identifier of that
revision, the head, is the SHA-256 digest of every visible file's path and text, in order of the
paths (`Repository.head?`). A file is hidden when its name, or the name of a folder on the way to
it, starts with a dot.

Reading and committing have to name the head. A commit writes its files one after the other, then
removes the others, so one that fails may have been carried out in part.
-/

namespace OrgAlign.Files

open Org

/-- A repository. -/
structure Repository where
  /-- Its name. -/
  name : String
  /-- The path of its folder. -/
  folder : String
deriving DecidableEq, Repr

/-- What a commit asks for. -/
structure CommitRequest where
  /-- The head that it is made upon. -/
  parent : String
  /-- The files to write, each with its text. -/
  puts : List (String × String) := []
  /-- The files to remove. -/
  deletes : List String := []
deriving DecidableEq, Repr

/-! ### The head -/

/-- The name of a hidden folder or file. -/
def isHidden (name : String) : Bool := name.toList.head? = some '.'

/-- The visible ones of some files by path, in order of the paths. -/
def visibleFiles (files : List (List String × String)) : List (String × String) :=
  Sorting.sort (fun a b => Sorting.textBefore a.1 b.1)
    ((files.filter fun f => !f.1.any isHidden).map fun f => (String.intercalate "/" f.1, f.2))

/-- The bytes of a text. -/
def bytesOf (text : String) : List UInt8 := text.toUTF8.data.toList

/-- The bytes that stand for some files: each path and each text, with a zero byte behind it. -/
def stream (files : List (String × String)) : List UInt8 :=
  files.flatMap fun f => bytesOf f.1 ++ 0 :: bytesOf f.2 ++ [0]

namespace Repository

/-- The files in the repository's folder, none if there is no folder, unless a file is there
instead. -/
def contents? (r : Repository) (d : Disk) : Option (List (List String × String)) :=
  match d.locate? r.folder with
  | none => some []
  | some p =>
    match d.at? p with
    | none => some []
    | some .folder => some (d.filesBelow p)
    | some (.file _) => none

/-- The identifier of what the repository holds now. -/
def head? (r : Repository) (d : Disk) : Option String :=
  (r.contents? d).map fun files => Sha256.hexDigest (stream (visibleFiles files))

/-- The path of a file of the repository. -/
def pathOf (r : Repository) (path : String) : String := under r.folder path

/-- What is wrong with a request for a revision of a repository. -/
def obstacle? (r : Repository) (d : Disk) (op : Operation) (repository commit : String) :
    Option ClientError :=
  if repository ≠ r.name then some (.notFound op ("repository " ++ repository))
  else match r.head? d with
    | none => some (.failed op none)
    | some head =>
      if commit = head then none
      else
        some (.failed op (some
          ("commit " ++ commit ++ " is not the head of " ++ repository ++ " (" ++ head ++ ")")))

/-! ### Reading -/

/-- Reads a file of a revision. -/
def getFile (r : Repository) (d : Disk) (repository path commit : String) :
    Except ClientError String :=
  match r.obstacle? d .getFile repository commit with
  | some e => .error e
  | none =>
    if d.isThere (r.pathOf path) then
      match d.read? (r.pathOf path) with
      | some text => .ok text
      | none => .error (.failed .getFile none)
    else .error (.notFound .getFile path)

/-! ### Committing -/

/-- A request asks for something that is not so yet. -/
def changesAnything (r : Repository) (d : Disk) (request : CommitRequest) : Bool :=
  request.puts.any (fun f => d.read? (r.pathOf f.1) ≠ some f.2) ||
    request.deletes.any fun path => d.isThere (r.pathOf path)

/-- Writes files, up to the first that cannot be written. -/
def putAll (r : Repository) : List (String × String) → Disk → Bool × Disk
  | [], d => (true, d)
  | (path, text) :: rest, d =>
    match d.replace (r.pathOf path) text with
    | (true, d) => putAll r rest d
    | (false, d) => (false, d)

/-- Removes files, up to the first that cannot be removed; one that is not there counts as
removed. -/
def deleteAll (r : Repository) : List String → Disk → Bool × Disk
  | [], d => (true, d)
  | path :: rest, d =>
    if d.isThere (r.pathOf path) then
      match d.remove? (r.pathOf path) with
      | some d => deleteAll r rest d
      | none => (false, d)
    else deleteAll r rest d

/-- Carries a request out. -/
def carryOut (r : Repository) (request : CommitRequest) (d : Disk) : Bool × Disk :=
  match r.putAll request.puts d with
  | (true, d) => r.deleteAll request.deletes d
  | (false, d) => (false, d)

/-- Commits. The answer is the new head. -/
def commit (r : Repository) (d : Disk) (repository : String) (request : CommitRequest) :
    Except ClientError String × Disk :=
  match r.obstacle? d .commit repository request.parent with
  | some e => (.error e, d)
  | none =>
    if r.changesAnything d request then
      match r.carryOut request d with
      | (false, d) => (.error (.failed .commit none), d)
      | (true, d) =>
        match r.head? d with
        | some head => (.ok head, d)
        | none => (.error (.failed .commit none), d)
    else (.error (.noOp .commit "no changes"), d)

end Repository
end OrgAlign.Files
