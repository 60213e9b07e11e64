import OrgAlign.Json.Number

/-!
# The tokens of JSON text

Text is cut into marks, quoted texts and words in one pass over its characters. A word is a run of
characters that are neither blank nor a mark nor a quote; it has to be a literal or a number. Two
words can never stand side by side in a document, so nothing is lost by taking the longest one.
-/

namespace OrgAlign.Json

/-- A token. -/
inductive Token
  | mark (c : Char)
  | text (s : String)
  | word (v : Value)
deriving Repr

/-- The blank characters. -/
def isBlank (c : Char) : Bool := c = ' ' || c = '\n' || c = '\t' || c = '\r'

/-- The characters that are tokens by themselves. -/
def isMark (c : Char) : Bool :=
  c = '[' || c = ']' || c = '\x7b' || c = '\x7d' || c = ',' || c = ':'

/-! ### Escapes -/

/-- The character of a one-letter escape. -/
def shortEscape? (c : Char) : Option Char :=
  if c = '\x22' ∨ c = '\\' ∨ c = '/' then some c
  else if c = 'b' then some '\x08'
  else if c = 'f' then some '\x0c'
  else if c = 'n' then some '\n'
  else if c = 'r' then some '\r'
  else if c = 't' then some '\t'
  else none

/-- The first half of a surrogate pair. -/
def isHighSurrogate (n : Nat) : Bool := 0xD800 ≤ n && n < 0xDC00

/-- The second half of a surrogate pair. -/
def isLowSurrogate (n : Nat) : Bool := 0xDC00 ≤ n && n < 0xE000

/-- The character that a surrogate pair stands for. -/
def pairedChar (high low : Nat) : Char :=
  Char.ofNat (0x10000 + (high - 0xD800) * 0x400 + (low - 0xDC00))

/-- The text between two quotes with its escapes resolved. Control characters have to be escaped
and surrogates have to come in pairs. -/
def unescape : List Char → Option (List Char)
  | [] => some []
  | '\\' :: 'u' :: a :: b :: c :: d :: rest =>
    match Text.hexNumber? [a, b, c, d] with
    | none => none
    | some n =>
      if isLowSurrogate n then none
      else if isHighSurrogate n then
        match rest with
        | '\\' :: 'u' :: a :: b :: c :: d :: rest =>
          match Text.hexNumber? [a, b, c, d] with
          | none => none
          | some m =>
            if isLowSurrogate m then (unescape rest).map (pairedChar n m :: ·) else none
        | _ => none
      else (unescape rest).map (Char.ofNat n :: ·)
  | '\\' :: c :: rest => (shortEscape? c).bind fun e => (unescape rest).map (e :: ·)
  | c :: rest => if c.toNat < 0x20 ∨ c = '\\' then none else (unescape rest).map (c :: ·)

/-! ### Words -/

/-- The value of a word. -/
def word? (cs : List Char) : Option Value :=
  if cs = "null".toList then some .null
  else if cs = "true".toList then some (.bool true)
  else if cs = "false".toList then some (.bool false)
  else number? cs

/-! ### Cutting -/

/-- Where the cut stands. Characters already taken are kept last first. -/
inductive Cut
  | between
  | inWord (taken : List Char)
  | inText (taken : List Char) (escaped : Bool)

/-- The tokens found so far, last first, and where the cut stands. -/
structure Lexer where
  /-- Finished tokens, last first. -/
  tokens : List Token
  /-- The token being read. -/
  cut : Cut

namespace Lexer

/-- Finishes a word. -/
def closeWord (l : Lexer) : Option Lexer :=
  match l.cut with
  | .inWord taken => (word? taken.reverse).map fun v => ⟨.word v :: l.tokens, .between⟩
  | _ => some l

/-- A character outside quoted text, no word being open. -/
def outside (l : Lexer) (c : Char) : Lexer :=
  if isBlank c then l
  else if isMark c then { l with tokens := .mark c :: l.tokens }
  else if c = '\x22' then { l with cut := .inText [] false }
  else { l with cut := .inWord [c] }

/-- Takes one character. -/
def step (l : Lexer) (c : Char) : Option Lexer :=
  match l.cut with
  | .between => some (l.outside c)
  | .inWord taken =>
    if isBlank c || isMark c || c = '\x22' then l.closeWord.map (·.outside c)
    else some { l with cut := .inWord (c :: taken) }
  | .inText taken escaped =>
    if escaped then some { l with cut := .inText (c :: taken) false }
    else if c = '\\' then some { l with cut := .inText (c :: taken) true }
    else if c = '\x22' then
      (unescape taken.reverse).map fun s => ⟨.text (String.ofList s) :: l.tokens, .between⟩
    else some { l with cut := .inText (c :: taken) false }

end Lexer

/-- The tokens of a text. -/
def tokens? (cs : List Char) : Option (List Token) :=
  match (cs.foldlM Lexer.step ⟨[], .between⟩ : Option Lexer).bind Lexer.closeWord with
  | some ⟨tokens, .between⟩ => some tokens.reverse
  | _ => none

end OrgAlign.Json
