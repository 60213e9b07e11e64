import OrgAlign.Config.Workspace
import OrgAlign.Failure
import OrgAlign.Files.Repository
import OrgAlign.Manifest
import OrgAlign.State.Store

/-!
# What a run works on

A run reads and changes a `World`: the organization, and the disk with the configuration and the
published state. A `Site` says where on the disk they are, and `Options` what the run is asked to
do.
-/

namespace OrgAlign.Pipeline

open Config Files Org

/-- Everything that a run may change. -/
structure World where
  /-- The organization. -/
  org : Organization
  /-- The files. -/
  disk : Disk
deriving Inhabited

/-- Where a run finds things on the disk. -/
structure Site where
  /-- The configuration. -/
  repository : Repository
  /-- The published state. -/
  store : StateStore
deriving DecidableEq, Repr

/-- What a run is asked to do. -/
structure Options where
  /-- The repository's name. -/
  repository : String
  /-- The head of the configuration to work on. -/
  commit : String
  /-- The path of the root file. -/
  rootPath : String
  /-- The path of the bootstrap manifest, if there is one. -/
  manifestPath : Option String := none
  /-- Neither commit nor publish. -/
  dryRun : Bool := false
  /-- The present time. -/
  now : Timestamp
deriving DecidableEq, Repr

/-! ### Loading -/

/-- Everything that is loaded before the work begins. -/
structure Loaded where
  /-- The configuration. -/
  workspace : Workspace
  /-- The bootstrap manifest. -/
  manifest : Option Manifest
  /-- The live hierarchy. -/
  tree : OrgTree
  /-- The state published last. -/
  previous : Option PublishedState

/-- Gets a file of the configuration. -/
def fetch (s : Site) (o : Options) (d : Disk) : Workspace.Fetch := fun path =>
  match s.repository.getFile d o.repository path o.commit with
  | .ok text => .ok text
  | .error e => .error (.fetch path e.message?)

/-- Loads the bootstrap manifest from a path. -/
def loadManifest (fetch : Workspace.Fetch) (path : String) : Except Error Manifest := do
  let text ← fetch path
  match Manifest.parse text with
  | .ok m => pure m
  | .error why => throw (.unreadable .yaml path why)

/-- Loads the configuration, the manifest, the hierarchy and the state, in this order. -/
def load (s : Site) (o : Options) (w : World) : Except Failure Loaded := do
  let fetch := fetch s o w.disk
  let workspace ← (Workspace.load fetch o.rootPath).mapError Failure.config
  let manifest ← (o.manifestPath.mapM (loadManifest fetch)).mapError Failure.config
  let tree ← (OrgTree.read w.org).mapError Failure.ofReadError
  let previous ← (s.store.load w.disk).mapError Failure.client
  pure { workspace, manifest, tree, previous }

end OrgAlign.Pipeline
