import OrgAlign.Config.Error
import OrgAlign.Guard.Enforce
import OrgAlign.Org.Tree

/-!
# Failures

Why a whole run came to nothing. A failure may rest on an error of a part, which may rest on another
one; `Failure.messages` lists what each of them says, the failure first. What only the operating
system or a parser could word is not known here.
-/

namespace OrgAlign

/-- Why a run failed. -/
inductive Failure
  | config (e : Config.Error)
  | client (e : ClientError)
  | validation (messages : List String)
  | noRoot
  | missingPolicy (name : String)
  | noHome
  | io
  | snapshot (why : Config.Unreadable)
deriving DecidableEq, Repr

namespace Failure

/-- A hierarchy cannot be read. -/
def ofReadError : Org.ReadError → Failure
  | .noRoot => noRoot
  | .client e => client e

/-- Enforcement cannot start. -/
def ofObstacle : Guard.Obstacle → Failure
  | .missingPolicy name => missingPolicy name
  | .client e => client e

/-- What the failure says, unless it quotes the operating system or a parser. -/
def message? : Failure → Option String
  | config e => e.message?.map ("configuration error: " ++ ·)
  | client e => e.message?.map ("client error: " ++ ·)
  | validation messages =>
    some ("There were errors while loading the configuration:\n" ++
      String.intercalate "\n" messages)
  | noRoot => some "the organization reports no root"
  | missingPolicy name =>
    some ("quarantine policy \"" ++ name ++ "\" does not exist in the organization")
  | noHome => some "cannot determine home directory; set $HOME or equivalent"
  | io => none
  | snapshot why => why.message?.map ("snapshot YAML error: " ++ ·)

/-- What the errors say that the failure rests on, the nearest first. -/
def causes : Failure → List (Option String)
  | config e => e.message? :: e.causes
  | client e => [e.message?]
  | validation _ => []
  | noRoot => []
  | missingPolicy _ => []
  | noHome => []
  | io => [none]
  | snapshot why => [why.message?]

/-- What the failure and everything that it rests on say. -/
def messages (f : Failure) : List (Option String) := f.message? :: f.causes

end Failure
end OrgAlign
