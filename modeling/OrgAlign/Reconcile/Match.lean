import OrgAlign.Org.Tree
import OrgAlign.Text.Ascii

/-!
# From references to live records

A configuration refers to a unit by its full path or by its bare name, and to an account by its
e-mail address. A full path wins: only when no unit has the reference as its path, units with that
name are considered, at any depth. More than one candidate is never settled by taking the first.
-/

namespace OrgAlign.Reconcile

open Org

/-- How a reference was resolved. -/
inductive MatchStrategy
  | exactPath
  | nameOnly
deriving DecidableEq, Repr

/-- What a reference resolves to. -/
inductive OuMatch
  | found (ou : LiveOu) (strategy : MatchStrategy)
  | ambiguous (candidates : List LiveOu)
  | notFound
deriving DecidableEq, Repr

namespace OuMatch

/-- The unit, if the reference resolves to one. -/
def ou? : OuMatch → Option LiveOu
  | found ou _ => some ou
  | _ => none

/-- The only candidate, or all of them. -/
def ofCandidates (strategy : MatchStrategy) : List LiveOu → OuMatch
  | [] => notFound
  | [ou] => found ou strategy
  | candidates => ambiguous candidates

end OuMatch

/-- Resolves a reference to a unit. -/
def matchOu (reference : String) (ous : List LiveOu) : OuMatch :=
  match OuMatch.ofCandidates .exactPath (ous.filter (·.path == reference)) with
  | .notFound => OuMatch.ofCandidates .nameOnly (ous.filter (·.name == reference))
  | m => m

/-- The first account with an e-mail address. -/
def matchAccount? (email : String) (accounts : List LiveAccount) : Option LiveAccount :=
  accounts.find? fun a => Text.sameIgnoringCase a.email email

end OrgAlign.Reconcile
