import OrgAlign.Json.Token

/-!
# Reading JSON text

`Json.read?` gives the value that a text spells. The tokens are taken one by one into a stack of
the collections still open, so the reader needs no bound on the text, only on the nesting.
Repeated keys are kept: which of them matter is for the reader of the value to say.
-/

namespace OrgAlign.Json

/-- How deep collections may be nested. -/
def nestingLimit : Nat := 127

/-- A collection still open; what it holds is kept last first. -/
inductive Open
  | list (items : List Value)
  | record (entries : List (Value × Value))
  | field (entries : List (Value × Value)) (key : String)

/-- What may come next. -/
inductive Expected
  | value
  | valueOrEnd
  | commaOrEnd
  | key
  | keyOrEnd
  | colon
  | nothing
deriving DecidableEq

/-- The collections still open, innermost first, what may come next, and the finished value. -/
structure Reader where
  /-- Innermost first. -/
  opened : List Open
  /-- What the next token may be. -/
  expected : Expected
  /-- The value, once it is complete. -/
  result : Option Value

namespace Reader

/-- Puts a finished value where it belongs. -/
def put (r : Reader) (v : Value) : Option Reader :=
  match r.opened with
  | [] => some ⟨[], .nothing, some v⟩
  | .list items :: outer => some ⟨.list (v :: items) :: outer, .commaOrEnd, none⟩
  | .field entries key :: outer =>
    some ⟨.record ((.str key, v) :: entries) :: outer, .commaOrEnd, none⟩
  | .record _ :: _ => none

/-- Opens a collection. -/
def begin (r : Reader) (o : Open) (expected : Expected) : Option Reader :=
  if r.opened.length < nestingLimit then some ⟨o :: r.opened, expected, none⟩ else none

/-- Closes the innermost collection. -/
def finish (r : Reader) (c : Char) : Option Reader :=
  match r.opened with
  | .list items :: outer =>
    if c = ']' then put { r with opened := outer } (.seq items.reverse) else none
  | .record entries :: outer =>
    if c = '\x7d' then put { r with opened := outer } (.map entries.reverse) else none
  | _ => none

/-- A value may come next. -/
def wantsValue (r : Reader) : Bool := r.expected = .value || r.expected = .valueOrEnd

/-- The innermost collection may end here. -/
def mayFinish (r : Reader) : Bool :=
  r.expected = .valueOrEnd || r.expected = .commaOrEnd || r.expected = .keyOrEnd

/-- Takes a mark. -/
def mark (r : Reader) (c : Char) : Option Reader :=
  if c = '[' then if r.wantsValue then r.begin (.list []) .valueOrEnd else none
  else if c = '\x7b' then if r.wantsValue then r.begin (.record []) .keyOrEnd else none
  else if c = ',' then
    match r.expected, r.opened with
    | .commaOrEnd, .list _ :: _ => some { r with expected := .value }
    | .commaOrEnd, .record _ :: _ => some { r with expected := .key }
    | _, _ => none
  else if c = ':' then if r.expected = .colon then some { r with expected := .value } else none
  else if r.mayFinish then r.finish c else none

/-- Takes a quoted text, as a key or as a value. -/
def text (r : Reader) (s : String) : Option Reader :=
  match r.expected, r.opened with
  | .key, .record entries :: outer => some ⟨.field entries s :: outer, .colon, none⟩
  | .keyOrEnd, .record entries :: outer => some ⟨.field entries s :: outer, .colon, none⟩
  | _, _ => if r.wantsValue then r.put (.str s) else none

/-- Takes one token. -/
def step (r : Reader) : Token → Option Reader
  | .mark c => r.mark c
  | .text s => r.text s
  | .word v => if r.wantsValue then r.put v else none

end Reader

/-- The value that a text spells. -/
def read? (text : String) : Option Value :=
  (tokens? text.toList).bind fun tokens =>
    (tokens.foldlM Reader.step ⟨[], .value, none⟩ : Option Reader).bind Reader.result

end OrgAlign.Json
