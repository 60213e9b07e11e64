import OrgAlign.Yaml.Chars

/-!
# A place in YAML text

Indentation is structure in YAML, so reading keeps track of the line and the column next to the
text still to come. Columns count characters.
-/

namespace OrgAlign.Yaml

/-- A place in a text. -/
structure Cursor where
  /-- The text still to come. -/
  rest : List Char
  /-- Line ends passed so far. -/
  line : Nat
  /-- Characters passed on this line. -/
  column : Nat
  /-- Characters passed altogether. -/
  offset : Nat

namespace Cursor

/-- The start of a text. -/
def start (text : List Char) : Cursor := ⟨text, 0, 0, 0⟩

/-- The next character. -/
def peek (c : Cursor) : Option Char := c.rest.head?

/-- The next character is `ch`. -/
def sees (c : Cursor) (ch : Char) : Bool := c.rest.head? == some ch

/-- The character `k` places on is `ch`. -/
def seesAt (c : Cursor) (k : Nat) (ch : Char) : Bool := c.rest[k]? == some ch

/-- The text is over. -/
def atEnd (c : Cursor) : Bool := c.rest.isEmpty

/-- The character `k` places on is a blank. -/
def blankAt (c : Cursor) (k : Nat) : Bool := (c.rest[k]?).any isBlank

/-- The character `k` places on ends a line. -/
def breakAt (c : Cursor) (k : Nat) : Bool := (c.rest[k]?).any isBreak

/-- The line or the text ends `k` places on. -/
def lineEndAt (c : Cursor) (k : Nat) : Bool := (c.rest[k]?).all isBreak

/-- A blank or an end stands `k` places on. -/
def gapAt (c : Cursor) (k : Nat) : Bool := (c.rest[k]?).all fun ch => isBlank ch || isBreak ch

/-- Passes `n` characters of the same line. -/
def advance (c : Cursor) (n : Nat) : Cursor :=
  ⟨c.rest.drop n, c.line, c.column + n, c.offset + n⟩

/-- The characters ahead that satisfy `p`, and the place after them. -/
def span (c : Cursor) (p : Char → Bool) : List Char × Cursor :=
  let taken := c.rest.takeWhile p
  (taken, c.advance taken.length)

/-- Passes the characters ahead that satisfy `p`. -/
def skip (c : Cursor) (p : Char → Bool) : Cursor := (c.span p).2

/-- Passes a line end. A carriage return and a line feed make one. -/
def newline (c : Cursor) : Cursor :=
  match c.rest with
  | '\r' :: '\n' :: rest => ⟨rest, c.line + 1, 0, c.offset + 2⟩
  | _ :: rest => ⟨rest, c.line + 1, 0, c.offset + 1⟩
  | [] => c

/-- The line end ahead as it counts in a scalar: a line feed, save for the two separators. -/
def lineBreak (c : Cursor) : List Char :=
  match c.rest with
  | ch :: _ => if ch = lineSeparator ∨ ch = paragraphSeparator then [ch] else ['\n']
  | [] => []

/-- A document mark stands here. -/
def atDocumentMark (c : Cursor) : Bool :=
  c.column = 0 && isDocumentMark (c.rest.take 3) && c.gapAt 3

end Cursor
end OrgAlign.Yaml
