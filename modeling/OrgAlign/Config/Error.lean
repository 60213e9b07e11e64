import OrgAlign.Config.Decode

/-!
# Configuration errors

Why a configuration cannot be loaded, edited or written. The wording of parsers and of the
operating system is not part of this library, so the message of an error that would quote them is
not known (`Error.message?`).
-/

namespace OrgAlign.Config

/-- A configuration error. -/
inductive Error
  | io (path : String)
  | fetch (path : String) (reason : Option String)
  | unreadable (format : Format) (path : String) (why : Unreadable)
  | unwritable (format : Format)
  | renameConflict (place source target : String)
deriving DecidableEq, Repr

/-- Why a text cannot be read, where that does not depend on a parser. -/
def Unreadable.message? : Unreadable → Option String
  | .malformed => none
  | .severalDocuments =>
    some "deserializing from YAML containing more than one document is not supported"

/-- The message of an error, unless it quotes a parser or the operating system. -/
def Error.message? : Error → Option String
  | .io _ => none
  | .fetch path reason =>
    reason.map fun r => "cannot fetch configuration file " ++ path ++ ": " ++ r
  | .unreadable _ path why => why.message?.map fun m => "failed to parse " ++ path ++ ": " ++ m
  | .unwritable _ => none
  | .renameConflict place source target =>
    some ("cannot rename `" ++ source ++ "` to `" ++ target ++ "` in " ++ place ++
      ": target already declared")

/-- What an error rests on, where that is an error of its own. -/
def Error.causes : Error → List (Option String)
  | .io _ => [none]
  | .unreadable _ _ why => [why.message?]
  | .unwritable _ => [none]
  | _ => []

end OrgAlign.Config
