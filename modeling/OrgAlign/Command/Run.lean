import OrgAlign.Command.Arguments
import OrgAlign.Command.Report
import OrgAlign.Org.SnapshotFile

/-!
# Carrying out a command line

Every action loads the organization from its snapshot, takes the head of the configuration, and
works on that. Only `apply` changes files: whatever a run did to the organization is saved, even if
the run failed afterwards.
-/

namespace OrgAlign.Command

open Files Org Pipeline

/-- Where a command is carried out. -/
structure Host where
  /-- The files. -/
  disk : Disk
  /-- The path of the home folder, if it is known. -/
  home : Option String
  /-- The present time. -/
  now : Timestamp

/-- The answer to a command line. -/
structure Answer where
  /-- The exit code. -/
  code : Nat
  /-- What is printed. -/
  out : String
  /-- What a failure says and what everything that it rests on says; none where the wording is that
  of the operating system or a parser. -/
  messages : List (Option String)
deriving DecidableEq, Repr

namespace Answer

/-- The answer of an action that succeeds. -/
def success (out : String) : Answer := ⟨0, out, []⟩

/-- The answer of an action that fails in some context. -/
def failure (context : String) (f : Failure) : Answer := ⟨1, "", some context :: f.messages⟩

/-- The error text, if all of it is known. -/
def errorText? (a : Answer) : Option String := (a.messages.mapM id).map errorText

end Answer

/-! ### Sessions -/

/-- Everything that an action works with. -/
structure Session where
  /-- The organization. -/
  org : Organization
  /-- Where its configuration and its state are. -/
  site : Site
  /-- What a run is asked to do. -/
  options : Options

/-- The name of the repository. -/
def repositoryName : String := "config"

/-- An action that fails says in which context. -/
def within {α : Type} (context : String) (r : Except Failure α) : Except Answer α :=
  r.mapError (Answer.failure context)

/-- Loads the organization and takes the head of the configuration. -/
def openSession (h : Host) (a : Arguments) (dryRun : Bool) : Except Answer Session := do
  let org ← within ("failed to load organization snapshot " ++ a.org)
    (Organization.load h.disk a.org)
  let home ← within "could not locate the state directory"
    (match h.home with
    | some home => .ok home
    | none => .error .noHome)
  let repository : Repository := ⟨repositoryName, a.config⟩
  let commit ← within ("failed to read configuration directory " ++ a.config)
    (match repository.head? h.disk with
    | some head => .ok head
    | none => .error .io)
  pure
    { org
      site := ⟨repository, ⟨home, a.name⟩⟩
      options :=
        { repository := repositoryName, commit, rootPath := a.root, manifestPath := a.legacy
          dryRun, now := h.now } }

/-- What an action works on. -/
def Session.world (s : Session) (d : Disk) : World := ⟨s.org, d⟩

/-! ### Actions -/

/-- Validates the configuration. Fatal findings make the exit code one. -/
def validate (h : Host) (a : Arguments) : Except Answer Answer := do
  let s ← openSession h a true
  let r ← within "validation failed" (Pipeline.validate s.site s.options (s.world h.disk))
  let out := validationText a.json r
  pure (if r.errors.isEmpty then .success out
    else ⟨1, out, [some (toString r.errors.length ++ " fatal finding(s)")]⟩)

/-- Shows what a run would do. -/
def plan (h : Host) (a : Arguments) : Except Answer Answer := do
  let s ← openSession h a true
  let (report, w) := Pipeline.run s.site s.options (s.world h.disk)
  let r ← within "plan failed" report
  pure (.success (planText r w.org.calls))

/-- Saves the organization that a run leaves behind, and tells what the run did. -/
def concluded (s : Session) (a : Arguments) (report : Except Failure Pipeline.Report) (w : World) :
    Answer × Disk :=
  match w.org.save w.disk a.org with
  | (.error e, d) => (.failure ("failed to save organization snapshot " ++ a.org) e, d)
  | (.ok _, d) =>
    match report with
    | .error e => (.failure "apply failed" e, d)
    | .ok r => (.success (runText r s.site.store.path), d)

/-- Makes a run. -/
def apply (h : Host) (a : Arguments) : Answer × Disk :=
  match openSession h a false with
  | .error answer => (answer, h.disk)
  | .ok s =>
    let (report, w) := Pipeline.run s.site s.options (s.world h.disk)
    concluded s a report w

/-- The answer of an action, whether it failed or not. -/
def settled : Except Answer Answer → Answer
  | .ok a => a
  | .error a => a

/-! ### Command lines -/

/-- The name of the command and its version. -/
def versionText : String := "orgsync 0.1.0\n"

/-- How the command is used. -/
def helpText : String :=
  lines ["Reconcile a declarative organization configuration with the live organization", "",
    "Usage: orgsync <validate|plan|apply> --org <FILE> [OPTIONS]", "",
    "Options:",
    "  --config <DIR>   configuration folder [default: .]",
    "  --org <FILE>     organization snapshot",
    "  --root <PATH>    root configuration file [default: config.yaml]",
    "  --legacy <PATH>  bootstrap manifest",
    "  --name <NAME>    name of the published state [default: default]",
    "  --json           machine-readable answer, for validate"]

/-- The exit code for a command line that makes no sense. -/
def misuseCode : Nat := 2

/-- Carries a command line out. -/
def execute (h : Host) (arguments : List String) : Answer × Disk :=
  match Invocation.read arguments with
  | .misuse => (⟨misuseCode, "", [some "invalid command line; try --help"]⟩, h.disk)
  | .help => (.success helpText, h.disk)
  | .version => (.success versionText, h.disk)
  | .work .validate a => (settled (validate h a), h.disk)
  | .work .plan a => (settled (plan h a), h.disk)
  | .work .apply a => apply h a

end OrgAlign.Command
