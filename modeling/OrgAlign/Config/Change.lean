/-!
# Changes to configuration files

What an amended configuration asks to be done to its files: write one, or remove one. Either way
the change knows the text that it replaces.
-/

namespace OrgAlign.Config

/-- A change to one file. -/
inductive FileChange
  | put (path content : String) (previous : Option String)
  | delete (path : String) (previous : Option String)
deriving DecidableEq, Repr

namespace FileChange

/-- The file's path. -/
def path : FileChange → String
  | put path _ _ => path
  | delete path _ => path

/-- The text that the change replaces. -/
def previous : FileChange → Option String
  | put _ _ previous => previous
  | delete _ previous => previous

/-- The text that the change leaves, none after a removal. -/
def content : FileChange → String
  | put _ content _ => content
  | delete _ _ => ""

end FileChange
end OrgAlign.Config
