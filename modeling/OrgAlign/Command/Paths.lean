import OrgAlign.Command.Run

/-!
# What a command line looks at

A command line is carried out on a disk that holds the folder of the configuration and the other
places that the command line names. They cannot all be told from the command line: the root file may
list files outside its folder. So `paths` says which paths matter as far as the root file is known.
-/

namespace OrgAlign.Command

open Config Files

/-- The files that the sections of the root file list, if the root file can be read. -/
def listedFiles (d : Disk) (a : Arguments) : List String :=
  match d.read? (under a.config a.root) with
  | none => []
  | some text =>
    match (Workspace.parse a.root text : Except Error RootFile) with
    | .ok root => root.ous.files ++ root.mandatory.files ++ root.workload.files
    | .error _ => []

/-- The paths of everything that a command line looks at. -/
def paths (h : Host) (arguments : List String) : List String :=
  match Invocation.read arguments with
  | .work _ a =>
    [a.config, a.org] ++ (h.home.map fun home => (StateStore.mk home a.name).path).toList ++
      (a.root :: a.legacy.toList ++ listedFiles h.disk a).map (under a.config)
  | _ => []

end OrgAlign.Command
