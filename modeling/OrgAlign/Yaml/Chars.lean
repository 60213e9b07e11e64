/-!
# Character classes of YAML

Blanks separate words, breaks end lines, and only printable characters may stand in a document at
all. What may stand in a document (`isReadable`) and what is written as it is (`isPrintable`)
differ: a tab or a next-line character can be read, yet is always escaped when written.
-/

namespace OrgAlign.Yaml

/-- The byte order mark. -/
def byteOrderMark : Char := Char.ofNat 0xFEFF

/-- Next line. -/
def nextLine : Char := Char.ofNat 0x85

/-- Line separator. -/
def lineSeparator : Char := Char.ofNat 0x2028

/-- Paragraph separator. -/
def paragraphSeparator : Char := Char.ofNat 0x2029

/-- Space or tab. -/
def isBlank (c : Char) : Bool := c = ' ' || c = '\t'

/-- A character that ends a line. -/
def isBreak (c : Char) : Bool :=
  c = '\r' || c = '\n' || c = nextLine || c = lineSeparator || c = paragraphSeparator

/-- A character of anchor names, tag handles and directive names. -/
def isNameChar (c : Char) : Bool := c.isAlphanum || c = '_' || c = '-'

/-- A character that may stand in a document. -/
def isReadable (c : Char) : Bool :=
  let n := c.toNat
  n = 0x09 || n = 0x0A || n = 0x0D || (0x20 ≤ n && n ≤ 0x7E) || n = 0x85 ||
    (0xA0 ≤ n && n ≤ 0xD7FF) || (0xE000 ≤ n && n ≤ 0xFFFD) || 0x10000 ≤ n

/-- A character that is written as it is. -/
def isPrintable (c : Char) : Bool :=
  let n := c.toNat
  n = 0x0A || (0x20 ≤ n && n ≤ 0x7E) || (0xA0 ≤ n && n ≤ 0xD7FF) ||
    (0xE000 ≤ n && n ≤ 0xFFFD && n ≠ 0xFEFF) || 0x10000 ≤ n

/-- A character that means something inside flow collections. -/
def isFlowIndicator (c : Char) : Bool :=
  c = ',' || c = '[' || c = ']' || c = '\x7b' || c = '\x7d'

/-- A character that no plain scalar starts with, whatever follows it. -/
def isIndicator (c : Char) : Bool :=
  isFlowIndicator c || c = '#' || c = '&' || c = '*' || c = '!' || c = '|' || c = '>' ||
    c = '\x27' || c = '\x22' || c = '%' || c = '@' || c = '\x60'

/-- Two texts of three characters mark the ends of a document when they stand alone at the start of
a line. -/
def isDocumentMark (cs : List Char) : Bool :=
  cs = ['-', '-', '-'] || cs = ['.', '.', '.']

end OrgAlign.Yaml
