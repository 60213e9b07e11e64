import OrgAlign.Number.FloatText
import OrgAlign.Yaml.Chars
import OrgAlign.Yaml.Scalar
import OrgAlign.Yaml.Token

/-!
# Writing YAML

Values are written in block style, two columns to a level, sequences inside mappings without
indentation of their own. Text is written plain where that reads back as the same text, quoted
where it would be taken for something else, and as a literal block where it has several lines.
Lines are never wrapped.
-/

namespace OrgAlign.Yaml

/-! ### What a text admits -/

/-- What was found in a text that limits how it can be written. -/
structure Traits where
  /-- A character means something at its place in a block. -/
  indicator : Bool
  /-- A line end occurs. -/
  lineBreak : Bool
  /-- A character cannot be written as it is. -/
  special : Bool
  /-- A blank follows a line end. -/
  breakBlank : Bool
  /-- A line end follows a blank. -/
  blankBreak : Bool

/-- A character that makes a plain scalar mean something else: between blanks, or at the start. -/
def indicates (first afterGap beforeGap : Bool) (c : Char) : Bool :=
  if first then
    isIndicator c || ((c = '-' || c = '?' || c = ':') && beforeGap)
  else (c = ':' && beforeGap) || (c = '#' && afterGap)

/-- Looks a text through. `previous` is the character before, if there is one. -/
def traitsFrom (previous : Option Char) : List Char → Traits
  | [] => ⟨false, false, false, false, false⟩
  | c :: rest =>
    let t := traitsFrom (some c) rest
    let gap (o : Option Char) : Bool := o.all fun n => isBlank n || isBreak n
    { indicator := indicates previous.isNone (gap previous) (gap rest.head?) c || t.indicator
      lineBreak := isBreak c || t.lineBreak
      special := !isPrintable c || t.special
      breakBlank := (c = ' ' && previous.any isBreak) || t.breakBlank
      blankBreak := (isBreak c && previous == some ' ') || t.blankBreak }

/-- A blank or a line end. -/
def isEdge (c : Char) : Bool := c = ' ' || isBreak c

/-- The text can be written plain in a block. -/
def admitsPlain (cs : List Char) : Bool :=
  let t := traitsFrom none cs
  !(t.indicator || t.lineBreak || t.special || isDocumentMark (cs.take 3) ||
    cs.head?.any isEdge || cs.getLast?.any isEdge)

/-- The text can be written between single quotes. -/
def admitsSingle (cs : List Char) : Bool :=
  let t := traitsFrom none cs
  !(t.breakBlank || t.blankBreak || t.special)

/-- The text can be written as a literal block. -/
def admitsBlock (cs : List Char) : Bool :=
  let t := traitsFrom none cs
  cs ≠ [] && !(t.blankBreak || t.special || cs.getLast? == some ' ')

/-- The style in which a text is written. -/
def styleOf (cs : List Char) : Style :=
  if cs.contains '\n' then if admitsBlock cs then .literal else .doubleQuoted
  else if !isAmbiguous (String.ofList cs) && admitsPlain cs then .plain
  else if admitsSingle cs then .singleQuoted
  else .doubleQuoted

/-! ### Scalars -/

/-- Indentation. -/
def spaces (n : Nat) : List Char := List.replicate n ' '

/-- Text between single quotes: quotes are doubled, and after a line end comes indentation. -/
def singleFrom (indent : Nat) (broken : Bool) : List Char → List Char
  | [] => if broken then spaces indent else []
  | c :: rest =>
    if isBreak c then c :: singleFrom indent true rest
    else
      (if broken then spaces indent else []) ++
        (if c = '\x27' then ['\x27', '\x27'] else [c]) ++ singleFrom indent false rest

/-- The letter that escapes a character, if there is one. -/
def escapeLetter? (c : Char) : Option Char :=
  ([('\x00', '0'), ('\x07', 'a'), ('\x08', 'b'), ('\t', 't'), ('\n', 'n'), ('\x0b', 'v'),
    ('\x0c', 'f'), ('\r', 'r'), ('\x1b', 'e'), ('\x22', '\x22'), ('\\', '\\'), (nextLine, 'N'),
    (lineSeparator, 'L'), (paragraphSeparator, 'P')].find? (·.1 == c)).map Prod.snd

/-- A character between double quotes. -/
def doubleChar (c : Char) : List Char :=
  if isPrintable c && !isBreak c && c ≠ '\x22' && c ≠ '\\' then [c]
  else match escapeLetter? c with
    | some e => ['\\', e]
    | none =>
      let n := c.toNat
      if n ≤ 0xFF then '\\' :: 'x' :: Text.upperHex 2 n
      else if n ≤ 0xFFFF then '\\' :: 'u' :: Text.upperHex 4 n
      else '\\' :: 'U' :: Text.upperHex 8 n

/-- The header of a literal block: an indentation if the text starts with a blank or a line end,
and what becomes of the line ends at its end. -/
def literalHints (cs : List Char) : List Char :=
  let indentation := if cs.head?.any isEdge then ['2'] else []
  let chomp := match cs.reverse with
    | [] => ['-']
    | last :: others =>
      if !isBreak last then ['-'] else if others.head?.all isBreak then ['+'] else []
  indentation ++ chomp

/-- The lines of a literal block; empty lines stay without indentation. -/
def literalFrom (indent : Nat) (broken : Bool) : List Char → List Char
  | [] => []
  | c :: rest =>
    if isBreak c then c :: literalFrom indent true rest
    else (if broken then spaces indent else []) ++ c :: literalFrom indent false rest

/-- A text as a scalar; further lines of it are indented by `indent`. -/
def textScalar (indent : Nat) (s : String) : List Char :=
  let cs := s.toList
  match styleOf cs with
  | .singleQuoted => '\x27' :: singleFrom indent false cs ++ ['\x27']
  | .doubleQuoted => '\x22' :: cs.foldr (fun c rest => doubleChar c ++ rest) ['\x22']
  | .literal => '|' :: literalHints cs ++ '\n' :: literalFrom indent true cs
  | _ => cs

/-- A scalar or an empty collection; a collection with content is none. -/
def scalar? (indent : Nat) : Value → Option (List Char)
  | .null => some "null".toList
  | .bool b => some (if b then "true".toList else "false".toList)
  | .int n => some (toString n).toList
  | .float x => some (x.text .yaml).toList
  | .str s => some (textScalar indent s)
  | .seq [] => some ['[', ']']
  | .map [] => some ['\x7b', '\x7d']
  | _ => none

/-! ### Collections -/

/-- The longest key, in bytes, that needs no question mark. -/
def simpleKeyLimit : Nat := 128

/-- A key that stands before its colon on one line: a scalar without line ends that is not too
long, or an empty collection. -/
def isSimpleKey : Value → Bool
  | .str s => s.utf8ByteSize ≤ simpleKeyLimit && !s.toList.any isBreak
  | .seq (_ :: _) => false
  | .map (_ :: _) => false
  | _ => true

/-- Ends a line, unless the text before ended one. -/
def endLine (cs : List Char) : List Char :=
  if cs.getLast?.any isBreak then cs else cs ++ ['\n']

/-- Parts one below the other, each at column `indent`. -/
def stack (indent : Nat) : List (List Char) → List Char
  | [] => []
  | [part] => part
  | part :: parts => endLine part ++ spaces indent ++ stack indent parts

mutual

/-- A value whose first line starts where the writer stands, at column `indent`. -/
def inPlace (indent : Nat) : Value → List Char
  | .seq (v :: vs) => stack indent (itemsAt indent (v :: vs))
  | .map (e :: es) => stack indent (entriesAt indent (e :: es))
  | v => (scalar? indent v).getD []

/-- The items of a sequence at column `indent`, each after a dash. -/
def itemsAt (indent : Nat) : List Value → List (List Char)
  | [] => []
  | v :: vs => ('-' :: ' ' :: inPlace (indent + 2) v) :: itemsAt indent vs

/-- The entries of a mapping at column `indent`. After a simple key, collections with content start
on a line of their own; other keys are announced by a question mark. -/
def entriesAt (indent : Nat) : List (Value × Value) → List (List Char)
  | [] => []
  | (k, v) :: es =>
    let key := inPlace (indent + 2) k
    let entry :=
      if isSimpleKey k then
        key ++ ':' :: match v with
          | .seq (_ :: _) => '\n' :: spaces indent ++ inPlace indent v
          | .map (_ :: _) => '\n' :: spaces (indent + 2) ++ inPlace (indent + 2) v
          | _ => ' ' :: inPlace (indent + 2) v
      else
        endLine ('?' :: ' ' :: key) ++ spaces indent ++ ':' :: ' ' :: inPlace (indent + 2) v
    entry :: entriesAt indent es

end

/-- A value as a document. -/
def write (v : Value) : String := String.ofList (endLine (inPlace 0 v))

end OrgAlign.Yaml
