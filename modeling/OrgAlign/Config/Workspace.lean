import OrgAlign.Config.Change
import OrgAlign.Config.Encode
import OrgAlign.Config.Error

/-!
# The split configuration workspace

A configuration is a root file and the files that its sections list. A `Workspace` keeps every file
it loaded, knows which file declares an entry and which files were edited since, and says what has
to be written and removed (`Workspace.changes`).

The list of files in the root and the paths of the files themselves are kept apart: relocating a
file changes both.
-/

namespace OrgAlign.Config

/-! ### Sections with their files -/

/-- A file that a section lists. -/
structure SplitFile (α : Type) where
  /-- Its path. -/
  path : String
  /-- Its entries. -/
  entries : KeyedMap α
  /-- It was edited. -/
  dirty : Bool
deriving DecidableEq

/-- A section of the root file with the files that it lists. -/
structure Shelf (α : Type) where
  /-- The section. -/
  part : Section α
  /-- Its files, none for an inline section. -/
  files : List (SplitFile α)
deriving DecidableEq

namespace Shelf

variable {α : Type}

/-- All entries in one map. A key of several files keeps its first position and takes the last
file's entry. -/
def merged (s : Shelf α) : KeyedMap α :=
  match s.part with
  | .inline entries => entries
  | .load _ => KeyedMap.ofList (s.files.flatMap fun f => f.entries.entries)

/-- All keys, once for each file that has them. -/
def keys (s : Shelf α) : List String :=
  match s.part with
  | .inline entries => entries.keys
  | .load _ => s.files.flatMap fun f => f.entries.keys

/-- The files that declare a key; an inline section stands for the root file. -/
def declaring (s : Shelf α) (rootPath key : String) : List String :=
  match s.part with
  | .inline entries => if entries.contains key then [rootPath] else []
  | .load _ => (s.files.filter fun f => f.entries.contains key).map SplitFile.path

/-- Some file was edited. -/
def hasDirtyFile (s : Shelf α) : Bool := s.files.any SplitFile.dirty

end Shelf

/-! ### The workspace -/

/-- A loaded configuration. -/
structure Workspace where
  /-- The root file's path. -/
  rootPath : String
  /-- Options. -/
  options : GlobalOptions
  /-- The units. -/
  ous : Shelf OuEntry
  /-- The mandatory accounts. -/
  mandatory : Shelf AccountEntry
  /-- The workload accounts. -/
  workload : Shelf AccountEntry
  /-- Other fields of the root file. -/
  extra : Extra
  /-- The root file was edited. -/
  rootDirty : Bool
  /-- Files to remove. -/
  deleted : List String
  /-- The texts loaded, by path. -/
  loadedTexts : List (String × String)
deriving DecidableEq

namespace Workspace

/-- The root file. -/
def root (w : Workspace) : RootFile :=
  { options := w.options, ous := w.ous.part, mandatory := w.mandatory.part,
    workload := w.workload.part, extra := w.extra }

/-- One of the account sections with its files. -/
def accounts (w : Workspace) : AccountSection → Shelf AccountEntry
  | .mandatory => w.mandatory
  | .workload => w.workload

/-- The text loaded from a path. -/
def loadedText? (w : Workspace) (path : String) : Option String :=
  (w.loadedTexts.find? (·.1 == path)).map Prod.snd

/-- The merged view. -/
def merged (w : Workspace) : Configuration :=
  { options := w.options, ous := w.ous.merged, mandatory := w.mandatory.merged,
    workload := w.workload.merged }

/-- The files that declare an account. -/
def filesDeclaring (w : Workspace) (key : String) : List String :=
  AccountSection.all.flatMap fun s => (w.accounts s).declaring w.rootPath key

/-! ### Loading -/

/-- How files are got hold of. -/
abbrev Fetch := String → Except Error String

/-- Reads the text of a file. -/
def parse {α : Type} [Readable α] (path text : String) : Except Error α :=
  match readText (Format.ofPath path) text with
  | .ok a => .ok a
  | .error why => .error (.unreadable (Format.ofPath path) path why)

/-- Loads the files that a section lists, each with its text. -/
def loadFiles {α : Type} [Readable (KeyedMap α)] (fetch : Fetch) (paths : List String) :
    Except Error (List (SplitFile α × String)) :=
  paths.mapM fun path => do
    let text ← fetch path
    let entries ← parse path text
    pure (⟨path, entries, false⟩, text)

/-- The texts of loaded files by path. -/
def textsOf {α : Type} (files : List (SplitFile α × String)) : List (String × String) :=
  files.map fun f => (f.1.path, f.2)

/-- Loads the root file and every file that its sections list. -/
def load (fetch : Fetch) (rootPath : String) : Except Error Workspace := do
  let text ← fetch rootPath
  let root : RootFile ← parse rootPath text
  let ous ← loadFiles fetch root.ous.files
  let mandatory ← loadFiles fetch root.mandatory.files
  let workload ← loadFiles fetch root.workload.files
  pure
    { rootPath
      options := root.options
      ous := ⟨root.ous, ous.map Prod.fst⟩
      mandatory := ⟨root.mandatory, mandatory.map Prod.fst⟩
      workload := ⟨root.workload, workload.map Prod.fst⟩
      extra := root.extra
      rootDirty := false
      deleted := []
      loadedTexts := (rootPath, text) :: textsOf ous ++ textsOf mandatory ++ textsOf workload }

/-! ### Changes -/

/-- Something was edited. -/
def hasChanges (w : Workspace) : Bool :=
  w.rootDirty || !w.deleted.isEmpty || w.ous.hasDirtyFile || w.mandatory.hasDirtyFile ||
    w.workload.hasDirtyFile

/-- A file to write. -/
def put (w : Workspace) (path : String) (v : Value) : Except Error FileChange :=
  let format := Format.ofPath path
  match render? format v with
  | some content => .ok (.put path content (w.loadedText? path))
  | none => .error (.unwritable format)

/-- The edited files of a section to write. -/
def putFiles {α : Type} (w : Workspace) (toValue : α → Value) (s : Shelf α) :
    Except Error (List FileChange) :=
  (s.files.filter SplitFile.dirty).mapM fun f => w.put f.path (keyedValue toValue f.entries)

/-- What has to be written, the root file first, and what has to be removed. -/
def changes (w : Workspace) : Except Error (List FileChange) := do
  let root ← if w.rootDirty then (w.put w.rootPath w.root.toValue).map ([·]) else pure []
  let ous ← w.putFiles OuEntry.toValue w.ous
  let mandatory ← w.putFiles AccountEntry.toValue w.mandatory
  let workload ← w.putFiles AccountEntry.toValue w.workload
  let deleted := w.deleted.map fun path => FileChange.delete path (w.loadedText? path)
  pure (root ++ ous ++ mandatory ++ workload ++ deleted)

end Workspace
end OrgAlign.Config
