import OrgAlign.Config.Workspace

/-!
# Editing accounts

An edit of an entry is a function on entries. It reaches every file that declares the entry's key,
and only files where it made a difference count as edited.
-/

namespace OrgAlign.Config

/-! ### Entries of a section -/

/-- A section after an edit. -/
structure Edited (α : Type) where
  /-- The section with its files. -/
  shelf : Shelf α
  /-- The root file was touched. -/
  root : Bool
  /-- Some entry is different now. -/
  changed : Bool

/-- The entry under `key` differs from its image. -/
def differs {α : Type} [DecidableEq α] (entries : KeyedMap α) (key : String) (f : α → α) : Bool :=
  (entries.get? key).any fun a => f a ≠ a

/-- Edits the entry under `key` in one file. -/
def SplitFile.edit {α : Type} [DecidableEq α] (file : SplitFile α) (key : String) (f : α → α) :
    SplitFile α :=
  { file with
    entries := file.entries.modify key f
    dirty := file.dirty || differs file.entries key f }

/-- Edits the entry under `key` wherever the section declares it. -/
def Shelf.edit {α : Type} [DecidableEq α] (s : Shelf α) (key : String) (f : α → α) : Edited α :=
  match s.part with
  | .inline entries =>
    let changed := differs entries key f
    ⟨{ s with part := .inline (entries.modify key f) }, changed, changed⟩
  | .load _ =>
    ⟨{ s with files := s.files.map fun file => file.edit key f }, false,
      s.files.any fun file => differs file.entries key f⟩

/-! ### Patches -/

/-- New values for fields of an account's entry; what is not given stays. -/
structure AccountPatch where
  /-- The name. -/
  name : Option String := none
  /-- The e-mail address. -/
  email : Option String := none
  /-- The top-level unit. -/
  ou : Option String := none
  /-- The full path of the unit. -/
  ouPath : Option String := none
  /-- Whether the entry stays for the record only. -/
  deleted : Option Bool := none
deriving DecidableEq, Repr

/-- The entry with the given fields replaced. -/
def AccountPatch.apply (p : AccountPatch) (a : AccountEntry) : AccountEntry :=
  { a with
    name := p.name.getD a.name
    email := p.email.getD a.email
    ou := p.ou.getD a.ou
    ouPath := p.ouPath <|> a.ouPath
    deleted := p.deleted.getD a.deleted }

namespace Workspace

/-- The workspace with one account section edited. -/
def withAccounts (w : Workspace) (s : AccountSection) (e : Edited AccountEntry) : Workspace :=
  let w := { w with rootDirty := w.rootDirty || e.root }
  match s with
  | .mandatory => { w with mandatory := e.shelf }
  | .workload => { w with workload := e.shelf }

/-- Edits an account in one section. The answer says whether anything changed. -/
def editAccount (w : Workspace) (s : AccountSection) (key : String)
    (f : AccountEntry → AccountEntry) : Workspace × Bool :=
  let e := (w.accounts s).edit key f
  (w.withAccounts s e, e.changed)

/-- Applies a patch to an account wherever it is declared. The answer says whether anything
changed. -/
def updateAccount (w : Workspace) (key : String) (p : AccountPatch) : Workspace × Bool :=
  AccountSection.all.foldl (fun (w, changed) s =>
    let (w, here) := w.editAccount s key p.apply
    (w, changed || here)) (w, false)

end Workspace
end OrgAlign.Config
