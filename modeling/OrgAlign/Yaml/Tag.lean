import OrgAlign.Text.Hex
import OrgAlign.Yaml.Cursor

/-!
# Anchors, tags and directives

The small notations of YAML that stand before a node or before a document. Each reader here starts
at the indicator and gives what it stands for together with the place after it.
-/

namespace OrgAlign.Yaml

/-! ### Anchors and aliases -/

/-- A character that may directly follow an anchor's name. -/
def endsAnchor (c : Char) : Bool :=
  isBlank c || isBreak c || c = '?' || c = ':' || c = ',' || c = ']' || c = '\x7d' || c = '%' ||
    c = '@' || c = '\x60'

/-- The name of the anchor or alias ahead. -/
def anchorName? (c : Cursor) : Option (String × Cursor) :=
  let (name, c) := (c.advance 1).span isNameChar
  if name = [] || !c.peek.all endsAnchor then none else some (String.ofList name, c)

/-! ### Tags -/

/-- A character of a tag's suffix that stands for itself. -/
def isTagChar (verbatim : Bool) (c : Char) : Bool :=
  isNameChar c || ";/?:@&=+$.!~*'()".toList.contains c ||
    (verbatim && (c = ',' || c = '[' || c = ']'))

/-- The byte spelled by a percent sign and two hexadecimal digits. -/
def percentByte? : List Char → Option Nat
  | '%' :: a :: b :: _ => Text.hexNumber? [a, b]
  | _ => none

/-- How many bytes a character takes whose first byte is `b`, and the bits that `b` contributes. -/
def leadByte? (b : Nat) : Option (Nat × Nat) :=
  if b < 0x80 then some (1, b)
  else if 0xC0 ≤ b ∧ b < 0xE0 then some (2, b - 0xC0)
  else if 0xE0 ≤ b ∧ b < 0xF0 then some (3, b - 0xE0)
  else if 0xF0 ≤ b ∧ b < 0xF8 then some (4, b - 0xF0)
  else none

/-- The bits of `n` further bytes, each spelled with a percent sign. -/
def furtherBytes? : Nat → Nat → List Char → Option Nat
  | 0, value, _ => some value
  | n + 1, value, cs =>
    (percentByte? cs).bind fun b =>
      if 0x80 ≤ b ∧ b < 0xC0 then furtherBytes? n (value * 64 + (b - 0x80)) (cs.drop 3) else none

/-- The character spelled by the percent escapes ahead and the length of its spelling. -/
def percentChar? (cs : List Char) : Option (Char × Nat) :=
  (percentByte? cs).bind fun b =>
    (leadByte? b).bind fun (width, bits) =>
      (furtherBytes? (width - 1) bits (cs.drop 3)).map fun n => (Char.ofNat n, 3 * width)

/-- The suffix ahead; its characters so far are kept last first. -/
def tagSuffix (verbatim : Bool) : Nat → List Char → Cursor → Option (List Char × Cursor)
  | 0, text, c => some (text.reverse, c)
  | fuel + 1, text, c =>
    match c.peek with
    | none => some (text.reverse, c)
    | some ch =>
      if ch = '%' then
        (percentChar? c.rest).bind fun (e, n) => tagSuffix verbatim fuel (e :: text) (c.advance n)
      else if isTagChar verbatim ch then tagSuffix verbatim fuel (ch :: text) (c.advance 1)
      else some (text.reverse, c)

/-- The suffix ahead, after characters of it that were already read. -/
def suffixAfter (verbatim : Bool) (read : List Char) (c : Cursor) : Option (List Char × Cursor) :=
  tagSuffix verbatim (c.rest.length + 1) read.reverse c

/-- The handle ahead: an exclamation mark, a name and perhaps another exclamation mark. -/
def tagHandle (c : Cursor) : List Char × Cursor :=
  let (name, c) := (c.advance 1).span isNameChar
  if c.sees '!' then ('!' :: name ++ ['!'], c.advance 1) else ('!' :: name, c)

/-- A tag as written: the handle that stands for a beginning, and the rest. -/
structure TagText where
  /-- The handle; empty when the suffix is the whole tag. -/
  handle : String
  /-- What follows the handle. -/
  suffix : String
deriving DecidableEq, Repr

/-- What a tag is made of when its first part was read as a handle. -/
def tagAfterHandle (handle : List Char) (c : Cursor) : Option (TagText × Cursor) :=
  if 1 < handle.length && handle.getLast? = some '!' then
    (suffixAfter false [] c).bind fun (suffix, c) =>
      if suffix = [] then none
      else some (⟨String.ofList handle, String.ofList suffix⟩, c)
  else
    (suffixAfter false (handle.drop 1) c).map fun (suffix, c) =>
      (if suffix = [] then ⟨"", "!"⟩ else ⟨"!", String.ofList suffix⟩, c)

/-- The tag ahead. A blank or a line end has to follow, or a comma in flow collections. -/
def tagText? (flow : Bool) (c : Cursor) : Option (TagText × Cursor) :=
  let read :=
    if c.seesAt 1 '<' then
      (suffixAfter true [] (c.advance 2)).bind fun (suffix, c) =>
        if suffix ≠ [] && c.sees '>' then some (⟨"", String.ofList suffix⟩, c.advance 1) else none
    else
      let (handle, c) := tagHandle c
      tagAfterHandle handle c
  read.bind fun (tag, c) => if c.gapAt 0 || (flow && c.sees ',') then some (tag, c) else none

/-! ### Directives -/

/-- A line before a document that is about the document. -/
inductive Directive
  | version (major minor : Nat)
  | tag (handle beginning : String)
deriving DecidableEq, Repr

/-- A part of a version number has at most this many digits. -/
def versionDigits : Nat := 9

/-- One part of a version number. -/
def versionPart? (c : Cursor) : Option (Nat × Cursor) :=
  let (digits, c) := c.span Char.isDigit
  if digits = [] || versionDigits < digits.length then none
  else (Text.number? 10 Text.digit? digits).map (·, c)

/-- The version after the directive's name. -/
def versionDirective? (c : Cursor) : Option (Directive × Cursor) :=
  (versionPart? (c.skip isBlank)).bind fun (major, c) =>
    if c.sees '.' then
      (versionPart? (c.advance 1)).map fun (minor, c) => (.version major minor, c)
    else none

/-- The handle and the beginning it stands for, after the directive's name. -/
def tagDirective? (c : Cursor) : Option (Directive × Cursor) :=
  let c := c.skip isBlank
  if !c.sees '!' then none
  else
    let (handle, c) := tagHandle c
    if handle.getLast? ≠ some '!' || !c.blankAt 0 then none
    else
      (suffixAfter true [] (c.skip isBlank)).bind fun (beginning, c) =>
        if beginning = [] || !c.gapAt 0 then none
        else some (.tag (String.ofList handle) (String.ofList beginning), c)

/-- The directive ahead, with its line end. -/
def directive? (c : Cursor) : Option (Directive × Cursor) :=
  let (name, c) := (c.advance 1).span isNameChar
  if name = [] || !c.gapAt 0 then none
  else
    let read :=
      if name = "YAML".toList then versionDirective? c
      else if name = "TAG".toList then tagDirective? c
      else none
    read.bind fun (directive, c) =>
      let c := c.skip isBlank
      let c := if c.sees '#' then c.skip fun ch => !isBreak ch else c
      if c.lineEndAt 0 then some (directive, c.newline) else none

end OrgAlign.Yaml
