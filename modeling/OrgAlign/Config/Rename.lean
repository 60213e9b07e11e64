import OrgAlign.Config.Edit
import OrgAlign.Path
import OrgAlign.Sorting

/-!
# Renaming units

Renaming the unit path `old` to `new` renames the key `old` and every key below it, points accounts
of those units to their new paths, and moves a file that holds a single unit and is named for it
to the name that follows from the new path.

A renaming that would run into a key that stays is refused as a whole.
-/

namespace OrgAlign.Config

/-- A key and what it becomes. -/
abbrev Renaming := String × String

/-! ### Which keys -/

/-- The keys at or below `old` with what they become, in order of the keys. -/
def renamings (keys : List String) (old new : String) : List Renaming :=
  (Sorting.sort Sorting.textBefore keys.eraseDups).filterMap fun key =>
    (Path.rebase key old new).map (key, ·)

/-- The first renaming onto a key that stays. -/
def conflict? (keys : List String) (rs : List Renaming) : Option Renaming :=
  rs.find? fun r => keys.contains r.2 && !rs.any (·.1 == r.2)

/-! ### Entries and files -/

/-- Renames keys one after the other. -/
def renameKeys {α : Type} (entries : KeyedMap α) (rs : List Renaming) : KeyedMap α :=
  rs.foldl (fun m r => m.rename r.1 r.2) entries

/-- Some of the renamings takes place when they are made one after the other. -/
def renamesAny {α : Type} (entries : KeyedMap α) : List Renaming → Bool
  | [] => false
  | r :: rs => (entries.rename? r.1 r.2).isSome || renamesAny (entries.rename r.1 r.2) rs

/-- Where a unit's own file moves, provided that its name follows from the unit's old path. -/
def relocation? (path old new : String) : Option String :=
  let (directory, name) := match Text.cutLast '/' path with
    | some (d, n) => (some d, n)
    | none => (none, path)
  (Text.cutLast '.' name).bind fun (stem, extension) =>
    if stem = Path.fileStem old then
      let renamed := Path.fileStem new ++ "." ++ extension
      some (match directory with
        | some d => d ++ "/" ++ renamed
        | none => renamed)
    else none

/-- Where a file moves after its keys were renamed, if it holds a single unit that was renamed. -/
def SplitFile.relocation? {α : Type} (f : SplitFile α) (rs : List Renaming) : Option String :=
  (rs.find? fun r => f.entries.size = 1 && f.entries.contains r.2).bind fun r =>
    Config.relocation? f.path r.1 r.2

/-- The list of a section's files, and what else moving files leaves behind. -/
structure Relocations where
  /-- The list of files in the root. -/
  listed : List String
  /-- Files to remove. -/
  deleted : List String
  /-- The root file was touched. -/
  rootDirty : Bool

/-- Notes that a file moves. The place it moves to is not to be removed any more. -/
def Relocations.move (r : Relocations) (source target : String) : Relocations :=
  let deleted := r.deleted.filter (· ≠ target)
  { listed := r.listed.map fun p => if p = source then target else p
    deleted := if deleted.contains source then deleted else deleted ++ [source]
    rootDirty := true }

/-- Renames the keys of one file and moves it if it has to move. -/
def SplitFile.rename {α : Type} (f : SplitFile α) (rs : List Renaming) (r : Relocations) :
    SplitFile α × Relocations :=
  let renamed : SplitFile α :=
    { f with
      entries := renameKeys f.entries rs
      dirty := f.dirty || renamesAny f.entries rs }
  match renamed.relocation? rs with
  | some target => ({ renamed with path := target, dirty := true }, r.move f.path target)
  | none => (renamed, r)

/-- Renames the keys of files one after the other. -/
def renameFiles {α : Type} (rs : List Renaming) :
    List (SplitFile α) → Relocations → List (SplitFile α) × Relocations
  | [], r => ([], r)
  | f :: fs, r =>
    let (f, r) := f.rename rs r
    let (fs, r) := renameFiles rs fs r
    (f :: fs, r)

namespace Workspace

/-! ### Units -/

/-- Renames the keys of units. The deepest keys go first, so that a key never runs into one that
is still to be renamed. -/
def renameOuKeys (w : Workspace) (old new : String) : Except Error (Workspace × Bool) :=
  let keys := w.ous.keys
  let rs := renamings keys old new
  match conflict? keys rs with
  | some r => .error (.renameConflict ouSectionKey r.1 r.2)
  | none =>
    if rs = [] then .ok (w, false)
    else
      let rs := rs.reverse
      match w.ous.part with
      | .inline entries =>
        .ok ({ w with
          ous := { w.ous with part := .inline (renameKeys entries rs) }
          rootDirty := true }, true)
      | .load listed =>
        let (files, r) := renameFiles rs w.ous.files ⟨listed, w.deleted, w.rootDirty⟩
        .ok ({ w with
          ous := ⟨.load r.listed, files⟩
          deleted := r.deleted
          rootDirty := r.rootDirty }, true)

/-! ### Accounts -/

/-- Points an account at or below `old` to its new path. -/
def repoint (old new : String) (a : AccountEntry) : AccountEntry :=
  match Path.rebase a.path old new with
  | some path =>
    AccountPatch.apply { ou := some (Path.topLevel path), ouPath := a.ouPath.map fun _ => path } a
  | none => a

/-- Points the accounts of one section to their new paths, once for each file that declares
them. -/
def repointAccounts (w : Workspace) (s : AccountSection) (old new : String) : Workspace × Bool :=
  (w.accounts s).keys.foldl (fun (w, changed) key =>
    let (w, here) := w.editAccount s key (repoint old new)
    (w, changed || here)) (w, false)

/-- Renames a unit. The answer says whether anything changed. -/
def renameOu (w : Workspace) (old new : String) : Except Error (Workspace × Bool) :=
  if old = new then .ok (w, false)
  else
    (w.renameOuKeys old new).map fun (w, changed) =>
      AccountSection.all.foldl (fun (w, changed) s =>
        let (w, here) := w.repointAccounts s old new
        (w, changed || here)) (w, changed)

end Workspace
end OrgAlign.Config
