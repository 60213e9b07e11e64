import OrgAlign.Number.FloatText
import OrgAlign.Text.Hex
import OrgAlign.Value

/-!
# Writing JSON text

Two layouts: everything on one line without blanks, or one entry a line indented by two. Keys that
are numbers or truth values are written as their text; a key that is nothing, a collection or not
finite has no JSON form, and neither has a value that holds one.
-/

namespace OrgAlign.Json

/-- Where line ends and blanks go. -/
structure Layout where
  /-- What starts an entry at a given depth. -/
  line : Nat → String
  /-- What stands between a key and its value. -/
  colon : String

/-- Everything on one line. -/
def compact : Layout := ⟨fun _ => "", ":"⟩

/-- One entry a line. -/
def pretty : Layout := ⟨fun depth => String.ofList ('\n' :: List.replicate (2 * depth) ' '), ": "⟩

/-- A character as it stands between quotes. -/
def escapeChar (c : Char) : List Char :=
  if c = '\x22' then ['\\', '\x22']
  else if c = '\\' then ['\\', '\\']
  else if c = '\x08' then ['\\', 'b']
  else if c = '\x0c' then ['\\', 'f']
  else if c = '\n' then ['\\', 'n']
  else if c = '\r' then ['\\', 'r']
  else if c = '\t' then ['\\', 't']
  else if c.toNat < 0x20 then '\\' :: 'u' :: Text.hex 4 c.toNat
  else [c]

/-- A text in quotes. -/
def quote (s : String) : String :=
  String.ofList ('\x22' :: s.toList.foldr (fun c rest => escapeChar c ++ rest) ['\x22'])

/-- The text of a truth value. -/
def boolText (b : Bool) : String := if b then "true" else "false"

/-- A mapping key in quotes, if it has a JSON form. -/
def key? : Value → Option String
  | .str s => some (quote s)
  | .bool b => some (quote (boolText b))
  | .int n => some (quote (toString n))
  | .float x => if x.isFinite then some (quote (x.text .json)) else none
  | _ => none

/-- Entries between brackets. -/
def enclose (layout : Layout) (depth : Nat) (first last : String) (parts : List String) : String :=
  let line := layout.line (depth + 1)
  first ++ line ++ String.intercalate ("," ++ line) parts ++ layout.line depth ++ last

mutual

/-- A value at a given depth. -/
def writeAt (layout : Layout) (depth : Nat) : Value → Option String
  | .null => some "null"
  | .bool b => some (boolText b)
  | .int n => some (toString n)
  | .float x => some (x.text .json)
  | .str s => some (quote s)
  | .seq [] => some "[]"
  | .map [] => some "\x7b\x7d"
  | .seq items => (writeItems layout (depth + 1) items).map (enclose layout depth "[" "]")
  | .map entries =>
    (writeEntries layout (depth + 1) entries).map (enclose layout depth "\x7b" "\x7d")

/-- The items of a sequence. -/
def writeItems (layout : Layout) (depth : Nat) : List Value → Option (List String)
  | [] => some []
  | v :: vs => do
    let first ← writeAt layout depth v
    let rest ← writeItems layout depth vs
    some (first :: rest)

/-- The entries of a mapping. -/
def writeEntries (layout : Layout) (depth : Nat) : List (Value × Value) → Option (List String)
  | [] => some []
  | (k, v) :: es => do
    let key ← key? k
    let value ← writeAt layout depth v
    let rest ← writeEntries layout depth es
    some ((key ++ layout.colon ++ value) :: rest)

end

/-- A value in a given layout, if every key in it has a JSON form. -/
def write? (layout : Layout) (v : Value) : Option String := writeAt layout 0 v

end OrgAlign.Json
