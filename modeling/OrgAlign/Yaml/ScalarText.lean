import OrgAlign.Text.Hex
import OrgAlign.Yaml.Cursor

/-!
# The text of YAML scalars

A scalar may run over several lines. Between the words of plain and quoted scalars the line ends
are folded: a single one becomes a space, further ones are kept (`Gap.text`). Block scalars keep
their lines or fold them, and what becomes of the line ends at the end is said in their header.

Every loop takes at least one character a round, so the length of the text bounds it.
-/

namespace OrgAlign.Yaml

/-! ### Gaps between words -/

/-- Blanks and line ends between two words. -/
structure Gap where
  /-- Blanks before the first line end. -/
  blanks : List Char
  /-- The first line end. -/
  first : List Char
  /-- Further line ends. -/
  further : List Char
  /-- There is a line end. -/
  broken : Bool

namespace Gap

/-- Nothing between two words. -/
def none : Gap := ⟨[], [], [], false⟩

/-- What a gap contributes to the scalar. -/
def text (g : Gap) : List Char :=
  if !g.broken then g.blanks
  else if g.first = ['\n'] then if g.further = [] then [' '] else g.further
  else g.first ++ g.further

/-- Takes the blanks and line ends ahead. In a plain scalar of a block, a tab may not stand where
indentation is due: left of `margin`. -/
def take (margin : Option Nat) : Nat → Gap → Cursor → Option (Gap × Cursor)
  | 0, g, c => some (g, c)
  | fuel + 1, g, c =>
    match c.peek with
    | Option.none => some (g, c)
    | some ch =>
      if isBlank ch then
        if g.broken then
          if ch = '\t' && margin.any (c.column < ·) then Option.none
          else take margin fuel g (c.advance 1)
        else take margin fuel { g with blanks := g.blanks ++ [ch] } (c.advance 1)
      else if isBreak ch then
        if g.broken then
          take margin fuel { g with further := g.further ++ c.lineBreak } c.newline
        else take margin fuel ⟨[], c.lineBreak, [], true⟩ c.newline
      else some (g, c)

end Gap

/-! ### Plain scalars -/

/-- The word ahead in a plain scalar. In flow collections a colon directly before a flow indicator
is refused. -/
def plainWord (flow : Bool) : List Char → Option (List Char)
  | [] => some []
  | ch :: rest =>
    let next := rest.head?
    let gapNext := next.all fun n => isBlank n || isBreak n
    if isBlank ch || isBreak ch then some []
    else if flow && ch = ':' && next.any (fun n => isFlowIndicator n || n = '?') then none
    else if (ch = ':' && gapNext) || (flow && isFlowIndicator ch) then some []
    else (plainWord flow rest).map (ch :: ·)

/-- The rest of a plain scalar whose text so far is `text` and after which `gap` was passed. The
answer also says whether a line end was passed after the last word. -/
def plainFrom (flow : Bool) (margin : Nat) :
    Nat → List Char → Gap → Cursor → Option (List Char × Bool × Cursor)
  | 0, text, gap, c => some (text, gap.broken, c)
  | fuel + 1, text, gap, c =>
    if c.atDocumentMark || c.sees '#' then some (text, gap.broken, c)
    else
      (plainWord flow c.rest).bind fun word =>
        let text := if word = [] then text else text ++ gap.text ++ word
        let gap := if word = [] then gap else Gap.none
        let c := c.advance word.length
        if !(c.blankAt 0 || c.breakAt 0) then some (text, gap.broken, c)
        else
          (gap.take (some margin) (c.rest.length + 1) c).bind fun (gap, c) =>
            if !flow && c.column < margin then some (text, gap.broken, c)
            else plainFrom flow margin fuel text gap c

/-- The plain scalar ahead: its text, whether it ends on an earlier line than the place after it,
and that place. -/
def plainScalar (flow : Bool) (margin : Nat) (c : Cursor) : Option (List Char × Bool × Cursor) :=
  plainFrom flow margin (c.rest.length + 1) [] Gap.none c

/-! ### Quoted scalars -/

/-- The character of a one-letter escape. -/
def shortEscape? (c : Char) : Option Char :=
  if c = '0' then some '\x00'
  else if c = 'a' then some '\x07'
  else if c = 'b' then some '\x08'
  else if c = 't' ∨ c = '\t' then some '\t'
  else if c = 'n' then some '\n'
  else if c = 'v' then some '\x0b'
  else if c = 'f' then some '\x0c'
  else if c = 'r' then some '\r'
  else if c = 'e' then some '\x1b'
  else if c = ' ' ∨ c = '\x22' ∨ c = '/' ∨ c = '\\' then some c
  else if c = 'N' then some nextLine
  else if c = '_' then some (Char.ofNat 0xA0)
  else if c = 'L' then some lineSeparator
  else if c = 'P' then some paragraphSeparator
  else none

/-- How many hexadecimal digits follow an escape letter. -/
def hexWidth? (c : Char) : Option Nat :=
  if c = 'x' then some 2 else if c = 'u' then some 4 else if c = 'U' then some 8 else none

/-- A code point that is a character. -/
def charOfCode? (n : Nat) : Option Char :=
  if n < 0xD800 ∨ (0xDFFF < n ∧ n ≤ 0x10FFFF) then some (Char.ofNat n) else none

/-- The escape ahead, after its backslash: the character and how many characters spell it. -/
def escape? : List Char → Option (Char × Nat)
  | [] => none
  | ch :: rest =>
    match hexWidth? ch with
    | some width =>
      if rest.length < width then none
      else (Text.hexNumber? (rest.take width)).bind fun n =>
        (charOfCode? n).map (·, width + 1)
    | none => (shortEscape? ch).map (·, 1)

/-- How the run of a quoted scalar between two gaps ended. -/
structure QuotedRun where
  /-- Its text. -/
  text : List Char
  /-- It ended with an escaped line end. -/
  continued : Bool
  /-- The place after it. -/
  after : Cursor

/-- The run ahead in a quoted scalar, up to a gap, an escaped line end or a closing quote. The
text so far is kept last first. -/
def quotedRun (single : Bool) : Nat → List Char → Cursor → Option QuotedRun
  | 0, text, c => some ⟨text.reverse, false, c⟩
  | fuel + 1, text, c =>
    match c.rest with
    | [] => some ⟨text.reverse, false, c⟩
    | ch :: rest =>
      if isBlank ch || isBreak ch then some ⟨text.reverse, false, c⟩
      else if single then
        if ch = '\x27' then
          if rest.head? = some '\x27' then quotedRun single fuel ('\x27' :: text) (c.advance 2)
          else some ⟨text.reverse, false, c⟩
        else quotedRun single fuel (ch :: text) (c.advance 1)
      else if ch = '\x22' then some ⟨text.reverse, false, c⟩
      else if ch = '\\' then
        if c.breakAt 1 then some ⟨text.reverse, true, (c.advance 1).newline⟩
        else (escape? rest).bind fun (e, n) =>
          quotedRun single fuel (e :: text) (c.advance (n + 1))
      else quotedRun single fuel (ch :: text) (c.advance 1)

/-- The rest of a quoted scalar whose text so far is `text`. -/
def quotedFrom (single : Bool) : Nat → List Char → Cursor → Option (List Char × Cursor)
  | 0, _, _ => none
  | fuel + 1, text, c =>
    if c.atDocumentMark || c.atEnd then none
    else
      (quotedRun single (c.rest.length + 1) [] c).bind fun run =>
        let text := text ++ run.text
        let c := run.after
        if c.sees (if single then '\x27' else '\x22') then some (text, c.advance 1)
        else
          let gap := { Gap.none with broken := run.continued }
          (gap.take none (c.rest.length + 1) c).bind fun (gap, c) =>
            quotedFrom single fuel (text ++ gap.text) c

/-- The quoted scalar ahead, opening quote included: its text and the place after it. -/
def quotedScalar (single : Bool) (c : Cursor) : Option (List Char × Cursor) :=
  quotedFrom single (c.rest.length + 1) [] (c.advance 1)

/-! ### Block scalars -/

/-- What becomes of the line ends at the end of a block scalar. -/
inductive Chomp
  | strip
  | clip
  | keep
deriving DecidableEq

/-- The header of a block scalar: what becomes of the last line ends, and the indentation if it is
given. The two may come in either order; an indentation of zero is refused. -/
def blockHeader? (c : Cursor) : Option (Chomp × Option Nat × Cursor) :=
  let chompOf (c : Cursor) : Chomp × Cursor :=
    if c.sees '+' then (.keep, c.advance 1)
    else if c.sees '-' then (.strip, c.advance 1)
    else (.clip, c)
  let digitOf (c : Cursor) : Option (Option Nat × Cursor) :=
    match c.peek.bind Text.digit? with
    | some 0 => none
    | some n => some (some n, c.advance 1)
    | none => some (none, c)
  if c.sees '+' || c.sees '-' then
    let (chomp, c) := chompOf c
    (digitOf c).map fun (digit, c) => (chomp, digit, c)
  else
    (digitOf c).map fun (digit, c) =>
      match digit with
      | some _ => let (chomp, c) := chompOf c; (chomp, digit, c)
      | none => (.clip, none, c)

/-- Passes empty lines and indentation. While the indentation is not known yet (`none`), the
deepest one met is kept in `deepest`; a tab may not stand for it. -/
def blockBreaks (indent : Option Nat) :
    Nat → Nat → List Char → Cursor → Option (List Char × Nat × Cursor)
  | 0, deepest, breaks, c => some (breaks, deepest, c)
  | fuel + 1, deepest, breaks, c =>
    let margin (column : Nat) : Bool := indent.all (column < ·)
    let spaces := (c.rest.takeWhile (· = ' ')).length
    let wanted := match indent with
      | none => spaces
      | some n => min spaces (n - c.column)
    let c := c.advance wanted
    let deepest := max deepest c.column
    if margin c.column && c.sees '\t' then none
    else if c.breakAt 0 then
      blockBreaks indent fuel deepest (breaks ++ c.lineBreak) c.newline
    else some (breaks, deepest, c)

/-- The text of a block scalar under construction. -/
structure Block where
  /-- Finished text. -/
  text : List Char
  /-- The line end after the last line. -/
  lineEnd : List Char
  /-- Line ends of empty lines after it. -/
  empties : List Char
  /-- The last line starts with a blank. -/
  indented : Bool

/-- Adds a line. When folding, a line end between two lines that do not start with a blank becomes
a space, or vanishes before empty lines. -/
def Block.push (b : Block) (literal : Bool) (line lineEnd : List Char) : Block :=
  let indented := line.head?.any isBlank
  let folds := !literal && b.lineEnd = ['\n'] && !b.indented && !indented
  let joint := if folds then if b.empties = [] then [' '] else [] else b.lineEnd
  ⟨b.text ++ joint ++ b.empties ++ line, lineEnd, [], indented⟩

/-- The lines of a block scalar indented by `indent`. -/
def blockLines (literal : Bool) (indent : Nat) : Nat → Block → Cursor → Option (Block × Cursor)
  | 0, b, c => some (b, c)
  | fuel + 1, b, c =>
    if c.column = indent && !c.atEnd then
      let (line, c) := c.span fun ch => !isBreak ch
      let b := b.push literal line c.lineBreak
      (blockBreaks (some indent) (c.rest.length + 1) 0 [] c.newline).bind fun (empties, _, c) =>
        blockLines literal indent fuel { b with empties } c
    else some (b, c)

/-- The block scalar ahead, its indicator included, inside a block indented by `outer`, or at the
top level: its text and the place after it. -/
def blockScalar (literal : Bool) (outer : Option Nat) (c : Cursor) :
    Option (List Char × Cursor) :=
  (blockHeader? (c.advance 1)).bind fun (chomp, digit, c) =>
    let c := c.skip isBlank
    let c := if c.sees '#' then c.skip fun ch => !isBreak ch else c
    if !c.lineEndAt 0 then none
    else
      let c := c.newline
      let given := digit.map fun n => n + outer.getD 0
      (blockBreaks given (c.rest.length + 1) 0 [] c).bind fun (empties, deepest, c) =>
        let least := match outer with
          | some n => n + 1
          | none => 1
        let indent := given.getD (max deepest least)
        (blockLines literal indent (c.rest.length + 1) ⟨[], [], empties, false⟩ c).map
          fun (b, c) =>
            let text := match chomp with
              | .strip => b.text
              | .clip => b.text ++ b.lineEnd
              | .keep => b.text ++ b.lineEnd ++ b.empties
            (text, c)

end OrgAlign.Yaml
