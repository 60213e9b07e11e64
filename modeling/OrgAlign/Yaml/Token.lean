import OrgAlign.Yaml.ScalarText
import OrgAlign.Yaml.Tag

/-!
# The tokens of YAML text

Block structure shows in the text only as indentation; tokens make it explicit. A place where a
mapping key may start is remembered (`PossibleKey`), and when the colon comes, the tokens that
open the mapping and the key are put in at that place.

`tokens` cuts a whole text. A text that cannot be cut yields the tokens before the fault without
the final `streamEnd`, so that no document after them can be complete.
-/

namespace OrgAlign.Yaml

/-- How a scalar is written. -/
inductive Style
  | plain
  | singleQuoted
  | doubleQuoted
  | literal
  | folded
deriving DecidableEq, Repr

/-- A token. -/
inductive Token
  | directive (d : Directive)
  | documentStart
  | documentEnd
  | blockSequence
  | blockMapping
  | blockEnd
  | flowSequence
  | flowSequenceEnd
  | flowMapping
  | flowMappingEnd
  | blockEntry
  | flowEntry
  | key
  | value
  | alias (name : String)
  | anchor (name : String)
  | tag (t : TagText)
  | scalar (style : Style) (text : String)
  | streamEnd
deriving DecidableEq, Repr

/-- A place where a key may have started. -/
structure PossibleKey where
  /-- A key has to start here: the text is at the block's own indentation. -/
  required : Bool
  /-- How many tokens come before it. -/
  number : Nat
  /-- Its place in the text. -/
  place : Cursor

/-- How long a key may be, in characters. -/
def keyLimit : Nat := 1024

/-- The state of cutting a text into tokens. -/
structure Scanner where
  /-- The place reached. -/
  cursor : Cursor
  /-- The tokens so far, last first. -/
  tokens : List Token
  /-- Columns of the open blocks, innermost first. -/
  indents : List Nat
  /-- Possible keys of the open flow collections, innermost first, and last the block's. -/
  keys : List (Option PossibleKey)
  /-- A key may start at the place reached. -/
  keyAllowed : Bool

namespace Scanner

/-- Before the first character. -/
def start (text : List Char) : Scanner := ⟨Cursor.start text, [], [], [none], true⟩

/-- Inside a flow collection. -/
def inFlow (s : Scanner) : Bool := 1 < s.keys.length

/-- The column of the innermost block. -/
def indent? (s : Scanner) : Option Nat := s.indents.head?

/-- The column from which text belongs to something inside the innermost block. -/
def margin (s : Scanner) : Nat :=
  match s.indent? with
  | some n => n + 1
  | none => 0

/-- Adds a token. -/
def emit (s : Scanner) (t : Token) : Scanner := { s with tokens := t :: s.tokens }

/-- Moves on to a place. -/
def goTo (s : Scanner) (c : Cursor) : Scanner := { s with cursor := c }

/-- Passes `n` characters. -/
def advance (s : Scanner) (n : Nat) : Scanner := s.goTo (s.cursor.advance n)

/-- Puts tokens in before all but the first `number` tokens. -/
def insertAt (s : Scanner) (number : Nat) (ts : List Token) : Scanner :=
  let later := s.tokens.length - number
  { s with tokens := s.tokens.take later ++ ts.reverse ++ s.tokens.drop later }

/-- Says whether a key may come next. -/
def allowKey (s : Scanner) (allowed : Bool) : Scanner := { s with keyAllowed := allowed }

/-! ### Possible keys -/

/-- Gives up the innermost possible key; a required one cannot be given up. -/
def dropKey (s : Scanner) : Option Scanner :=
  match s.keys with
  | some k :: keys => if k.required then none else some { s with keys := none :: keys }
  | _ => some s

/-- Remembers that a key may start here. -/
def saveKey (s : Scanner) : Option Scanner :=
  if s.keyAllowed then
    let required := !s.inFlow && s.indent? = some s.cursor.column
    s.dropKey.map fun s =>
      { s with keys := some ⟨required, s.tokens.length, s.cursor⟩ :: s.keys.drop 1 }
  else some s

/-- Gives up keys that started on an earlier line or too far back. -/
def dropStaleKeys (s : Scanner) : Option Scanner :=
  let check (key : Option PossibleKey) : Option (Option PossibleKey) :=
    match key with
    | none => some none
    | some k =>
      if k.place.line < s.cursor.line || k.place.offset + keyLimit < s.cursor.offset then
        if k.required then none else some none
      else some (some k)
  (s.keys.mapM check).map fun keys => { s with keys }

/-! ### Indentation -/

/-- Opens a block at a column, unless one is open there already; the token goes before all but the
first `number` tokens. -/
def openBlock (s : Scanner) (column number : Nat) (t : Token) : Scanner :=
  if s.inFlow || s.indent?.any (column ≤ ·) then s
  else { s.insertAt number [t] with indents := column :: s.indents }

/-- Closes the blocks right of a column; `none` closes all of them. -/
def closeBlocks (s : Scanner) (column : Option Nat) : Scanner :=
  if s.inFlow then s
  else
    let inside (n : Nat) : Bool := column.all (· < n)
    let closed := (s.indents.takeWhile inside).length
    { s with
      tokens := List.replicate closed .blockEnd ++ s.tokens
      indents := s.indents.dropWhile inside }

/-! ### Single tokens -/

/-- Closes all blocks before a directive or a document mark. -/
def atTopLevel (s : Scanner) : Option Scanner :=
  (s.closeBlocks none).dropKey.map (·.allowKey false)

/-- The end of the text. -/
def finish (s : Scanner) : Option Scanner :=
  s.atTopLevel.map (·.emit .streamEnd)

/-- A directive. -/
def directive (s : Scanner) : Option Scanner :=
  s.atTopLevel.bind fun s =>
    (directive? s.cursor).map fun (d, c) => (s.emit (.directive d)).goTo c

/-- The mark of a document's start or end. -/
def documentMark (s : Scanner) (t : Token) : Option Scanner :=
  s.atTopLevel.map fun s => (s.emit t).advance 3

/-- The start of a flow collection, which may itself be a key. -/
def openFlow (s : Scanner) (t : Token) : Option Scanner :=
  s.saveKey.map fun s =>
    (({ s with keys := none :: s.keys }.emit t).advance 1).allowKey true

/-- The end of a flow collection. -/
def closeFlow (s : Scanner) (t : Token) : Option Scanner :=
  s.dropKey.map fun s =>
    let keys := if s.inFlow then s.keys.drop 1 else s.keys
    (({ s with keys }.emit t).advance 1).allowKey false

/-- A comma in a flow collection. -/
def flowEntry (s : Scanner) : Option Scanner :=
  s.dropKey.map fun s => ((s.emit .flowEntry).advance 1).allowKey true

/-- A dash. -/
def blockEntry (s : Scanner) : Option Scanner :=
  if !s.inFlow && !s.keyAllowed then none
  else
    (s.openBlock s.cursor.column s.tokens.length .blockSequence).dropKey.map fun s =>
      ((s.emit .blockEntry).advance 1).allowKey true

/-- A question mark that announces a key. -/
def explicitKey (s : Scanner) : Option Scanner :=
  if !s.inFlow && !s.keyAllowed then none
  else
    (s.openBlock s.cursor.column s.tokens.length .blockMapping).dropKey.map fun s =>
      ((s.emit .key).advance 1).allowKey (!s.inFlow)

/-- A colon: it makes the innermost possible key a key, or announces a value without one. -/
def value (s : Scanner) : Option Scanner :=
  match s.keys with
  | some k :: keys =>
    let s := { s with keys := none :: keys }
    let s := (s.insertAt k.number [.key]).openBlock k.place.column k.number .blockMapping
    some (((s.emit .value).advance 1).allowKey false)
  | _ =>
    if !s.inFlow && !s.keyAllowed then none
    else
      let s := s.openBlock s.cursor.column s.tokens.length .blockMapping
      some (((s.emit .value).advance 1).allowKey (!s.inFlow))

/-- An anchor or alias. -/
def named (s : Scanner) (make : String → Token) : Option Scanner :=
  s.saveKey.bind fun s =>
    (anchorName? s.cursor).map fun (name, c) => ((s.emit (make name)).goTo c).allowKey false

/-- A tag. -/
def tag (s : Scanner) : Option Scanner :=
  s.saveKey.bind fun s =>
    (tagText? s.inFlow s.cursor).map fun (t, c) => ((s.emit (.tag t)).goTo c).allowKey false

/-- A block scalar. -/
def block (s : Scanner) (literal : Bool) : Option Scanner :=
  s.dropKey.bind fun s =>
    (blockScalar literal s.indent? s.cursor).map fun (text, c) =>
      let style := if literal then Style.literal else Style.folded
      ((s.emit (.scalar style (String.ofList text))).goTo c).allowKey true

/-- A quoted scalar. -/
def quoted (s : Scanner) (single : Bool) : Option Scanner :=
  s.saveKey.bind fun s =>
    (quotedScalar single s.cursor).map fun (text, c) =>
      let style := if single then Style.singleQuoted else Style.doubleQuoted
      ((s.emit (.scalar style (String.ofList text))).goTo c).allowKey false

/-- A plain scalar. When it ends on an earlier line, a key may come next. -/
def plain (s : Scanner) : Option Scanner :=
  s.saveKey.bind fun s =>
    (plainScalar s.inFlow s.margin s.cursor).map fun (text, broken, c) =>
      ((s.emit (.scalar .plain (String.ofList text))).goTo c).allowKey broken

/-! ### The next token -/

/-- A plain scalar may start with `ch` here. -/
def startsPlain (s : Scanner) (ch : Char) : Bool :=
  if ch = '-' then !s.cursor.blankAt 1
  else if ch = '?' ∨ ch = ':' then !s.inFlow && !s.cursor.gapAt 1
  else !(isBlank ch || isBreak ch || isIndicator ch)

/-- Reads the token that starts with `ch` at the place reached. -/
def token (s : Scanner) (ch : Char) : Option Scanner :=
  let c := s.cursor
  let spaced := c.gapAt 1
  if c.column = 0 ∧ ch = '%' then s.directive
  else if c.atDocumentMark then
    s.documentMark (if ch = '-' then .documentStart else .documentEnd)
  else if ch = '[' then s.openFlow .flowSequence
  else if ch = '\x7b' then s.openFlow .flowMapping
  else if ch = ']' then s.closeFlow .flowSequenceEnd
  else if ch = '\x7d' then s.closeFlow .flowMappingEnd
  else if ch = ',' then s.flowEntry
  else if ch = '-' ∧ spaced then s.blockEntry
  else if ch = '?' ∧ (s.inFlow ∨ spaced) then s.explicitKey
  else if ch = ':' ∧ (s.inFlow ∨ spaced) then s.value
  else if ch = '*' then s.named .alias
  else if ch = '&' then s.named .anchor
  else if ch = '!' then s.tag
  else if ch = '|' ∧ !s.inFlow then s.block true
  else if ch = '>' ∧ !s.inFlow then s.block false
  else if ch = '\x27' then s.quoted true
  else if ch = '\x22' then s.quoted false
  else if s.startsPlain ch then s.plain
  else none

/-- Passes blanks, comments and line ends. A tab may stand only where no key may start, or in a
flow collection; after a line end of a block a key may start. -/
def toNextToken : Nat → Scanner → Scanner
  | 0, s => s
  | fuel + 1, s =>
    let c := s.cursor
    let c := if c.offset = 0 && c.sees byteOrderMark then c.advance 1 else c
    let c := c.skip fun ch => ch = ' ' || (ch = '\t' && (s.inFlow || !s.keyAllowed))
    let c := if c.sees '#' then c.skip fun ch => !isBreak ch else c
    if c.breakAt 0 then
      toNextToken fuel ((s.goTo c.newline).allowKey (s.keyAllowed || !s.inFlow))
    else s.goTo c

/-- Reads the next token, and everything that has to be closed before it. At the end of the text
it reads the end. -/
def step (s : Scanner) : Option Scanner :=
  let s := toNextToken (s.cursor.rest.length + 1) s
  s.dropStaleKeys.bind fun s =>
    let s := s.closeBlocks (some s.cursor.column)
    match s.cursor.peek with
    | none => s.finish
    | some ch => s.token ch

/-- The tokens up to the end or a fault. Every step but the last takes a character. -/
def run : Nat → Scanner → List Token
  | 0, s => s.tokens.reverse
  | fuel + 1, s =>
    match s.step with
    | none => s.tokens.reverse
    | some next =>
      if next.tokens.head? = some .streamEnd then next.tokens.reverse else run fuel next

end Scanner

/-- The tokens of a text. A byte order mark at its start is not part of it. -/
def tokens (text : List Char) : List Token :=
  let text := if text.head? = some byteOrderMark then text.drop 1 else text
  if text.all isReadable then Scanner.run (text.length + 1) (.start text) else []

end OrgAlign.Yaml
