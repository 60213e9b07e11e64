import OrgAlign.Yaml.Token

/-!
# The events of a YAML document

Events are the document's structure in reading order: scalars, aliases, and the starts and ends of
collections, with their tags written out. `Event.ofTokens?` reads the first document of a stream
and leaves the tokens after it.

The reader is a machine with a stack of states, one event a step. Where a node is left out, it
reads an empty plain scalar.
-/

namespace OrgAlign.Yaml

/-- What stands before a node: an anchor and a tag. -/
structure Marks where
  /-- The anchor's name. -/
  anchor : Option String
  /-- The tag, its handle replaced by what it stands for. -/
  tag : Option String
deriving DecidableEq, Repr

/-- No anchor and no tag. -/
def Marks.none : Marks := ⟨Option.none, Option.none⟩

/-- An event. -/
inductive Event
  | documentStart
  | documentEnd
  | alias (name : String)
  | scalar (marks : Marks) (style : Style) (text : String)
  | sequenceStart (marks : Marks)
  | sequenceEnd
  | mappingStart (marks : Marks)
  | mappingEnd
deriving DecidableEq, Repr

/-- What the machine does next. -/
inductive Stage
  | documentStart
  | documentContent
  | documentEnd
  | blockNode
  | blockItem
  | indentlessItem
  | blockKey
  | blockValue
  | flowItem (first : Bool)
  | pairKey
  | pairValue
  | pairEnd
  | flowKey (first : Bool)
  | flowValue (omitted : Bool)
deriving DecidableEq, Repr

/-- The machine: tokens to come, the current stage, the stages to return to, and the tag handles
declared for the document. -/
structure Machine where
  /-- Tokens to come. -/
  tokens : List Token
  /-- What to do next. -/
  stage : Stage
  /-- Where to return to, innermost first. -/
  back : List Stage
  /-- Declared handles with what they stand for. -/
  handles : List (String × String)

namespace Machine

/-- A step's answer: an event and the machine after it. -/
abbrev Step := Option (Event × Machine)

/-- The next token is `t`. -/
def sees (m : Machine) (t : Token) : Bool := m.tokens.head? == some t

/-- The next token is one of `ts`. A stream that broke off shows no token at all. -/
def seesAny (m : Machine) (ts : List Token) : Bool := m.tokens.head?.any ts.contains

/-- Passes a token. -/
def pass (m : Machine) : Machine := { m with tokens := m.tokens.drop 1 }

/-- Goes on with another stage. -/
def goTo (m : Machine) (s : Stage) : Machine := { m with stage := s }

/-- Remembers a stage to return to. -/
def remember (m : Machine) (s : Stage) : Machine := { m with back := s :: m.back }

/-- Returns to the stage remembered last. -/
def return? (m : Machine) : Option Machine :=
  match m.back with
  | s :: back => some { m with stage := s, back }
  | [] => none

/-- Reads a node that was left out and goes on with a stage. -/
def omitted (m : Machine) (s : Stage) : Step :=
  if m.tokens = [] then none else some (.scalar .none .plain "", m.goTo s)

/-- Ends a collection whose last token is still to be passed. -/
def close (m : Machine) (e : Event) : Step :=
  m.return?.map fun m => (e, m.pass)

/-! ### Nodes -/

/-- What the standard handles stand for. -/
def standardHandles : List (String × String) := [("!", "!"), ("!!", "tag:yaml.org,2002:")]

/-- A tag with its handle replaced. -/
def resolveTag (m : Machine) (t : TagText) : Option String :=
  if t.handle = "" then some t.suffix
  else ((m.handles ++ standardHandles).find? (·.1 == t.handle)).map fun h => h.2 ++ t.suffix

/-- The anchor and the tag ahead, in either order. -/
def marks (m : Machine) : Option (Marks × Machine) :=
  match m.tokens with
  | .anchor a :: .tag t :: rest =>
    (m.resolveTag t).map fun t => (⟨some a, some t⟩, { m with tokens := rest })
  | .tag t :: .anchor a :: rest =>
    (m.resolveTag t).map fun t => (⟨some a, some t⟩, { m with tokens := rest })
  | .anchor a :: rest => some (⟨some a, none⟩, { m with tokens := rest })
  | .tag t :: rest => (m.resolveTag t).map fun t => (⟨none, some t⟩, { m with tokens := rest })
  | _ => some (.none, m)

/-- A scalar; the tag that only says "not plain" is dropped. -/
def scalarEvent (marks : Marks) (style : Style) (text : String) : Event :=
  .scalar (if marks.tag = some "!" then { marks with tag := none } else marks) style text

/-- The node ahead. Block collections are admitted by `block`, and a sequence without indentation
of its own by `indentless`. -/
def node (m : Machine) (block indentless : Bool) : Step :=
  match m.tokens with
  | .alias name :: _ => m.return?.map fun m => (.alias name, m.pass)
  | _ =>
    m.marks.bind fun (marks, m) =>
      match m.tokens with
      | .blockEntry :: _ =>
        if indentless then some (.sequenceStart marks, m.goTo .indentlessItem)
        else omittedAfter marks m
      | .scalar style text :: _ =>
        m.return?.map fun m => (scalarEvent marks style text, m.pass)
      | .flowSequence :: _ => some (.sequenceStart marks, m.pass.goTo (.flowItem true))
      | .flowMapping :: _ => some (.mappingStart marks, m.pass.goTo (.flowKey true))
      | .blockSequence :: _ =>
        if block then some (.sequenceStart marks, m.pass.goTo .blockItem)
        else omittedAfter marks m
      | .blockMapping :: _ =>
        if block then some (.mappingStart marks, m.pass.goTo .blockKey)
        else omittedAfter marks m
      | [] => none
      | _ => omittedAfter marks m
where
  /-- After an anchor or a tag the node itself may be left out. -/
  omittedAfter (marks : Marks) (m : Machine) : Step :=
    if marks = .none then none else m.return?.map fun m => (.scalar marks .plain "", m)

/-- The node ahead unless one of `ends` stands there; goes on with `next` either way. -/
def nodeUnless (m : Machine) (ends : List Token) (next : Stage) (block indentless : Bool) : Step :=
  if m.seesAny ends then m.omitted next else (m.remember next).node block indentless

/-! ### Documents -/

/-- The versions of the format that can be read. -/
def readableVersion (major minor : Nat) : Bool := major = 1 && (minor = 1 || minor = 2)

/-- Passes the directives ahead: at most one version, and no handle declared twice. -/
def directives : List Token → Bool → List (String × String) →
    Option (List (String × String) × List Token)
  | .directive (.version major minor) :: rest, seen, handles =>
    if seen || !readableVersion major minor then none else directives rest true handles
  | .directive (.tag handle beginning) :: rest, seen, handles =>
    if handles.any (·.1 == handle) then none
    else directives rest seen (handles ++ [(handle, beginning)])
  | tokens, _, handles => some (handles, tokens)

/-- A directive or a document mark is ahead, or the end. -/
def atBoundary (m : Machine) : Bool :=
  match m.tokens with
  | .directive _ :: _ | .documentStart :: _ | .documentEnd :: _ | .streamEnd :: _ => true
  | _ => false

/-- The start of the first document, which may go without a mark. -/
def documentStart (m : Machine) : Step :=
  match m.tokens with
  | [] => none
  | .directive _ :: _ | .documentStart :: _ =>
    (directives m.tokens false []).bind fun (handles, tokens) =>
      if tokens.head? = some .documentStart then
        some (.documentStart,
          ⟨tokens.drop 1, .documentContent, .documentEnd :: m.back, handles⟩)
      else none
  | .streamEnd :: _ => none
  | _ => some (.documentStart, (m.remember .documentEnd).goTo .blockNode)

/-- One step. -/
def step (m : Machine) : Step :=
  match m.stage with
  | .documentStart => m.documentStart
  | .documentContent =>
    if m.atBoundary then m.return?.bind fun m => m.omitted m.stage else m.node true false
  | .documentEnd => if m.tokens = [] then none else some (.documentEnd, m)
  | .blockNode => m.node true false
  | .blockItem =>
    if m.sees .blockEntry then
      m.pass.nodeUnless [.blockEntry, .blockEnd] .blockItem true false
    else if m.sees .blockEnd then m.close .sequenceEnd
    else none
  | .indentlessItem =>
    if m.sees .blockEntry then
      m.pass.nodeUnless [.blockEntry, .key, .value, .blockEnd] .indentlessItem true false
    else if m.tokens = [] then none
    else m.return?.map fun m => (.sequenceEnd, m)
  | .blockKey =>
    if m.sees .key then m.pass.nodeUnless [.key, .value, .blockEnd] .blockValue true true
    else if m.sees .blockEnd then m.close .mappingEnd
    else none
  | .blockValue =>
    if m.sees .value then m.pass.nodeUnless [.key, .value, .blockEnd] .blockKey true true
    else m.omitted .blockKey
  | .flowItem first =>
    if m.sees .flowSequenceEnd then m.close .sequenceEnd
    else if !first && !m.sees .flowEntry then none
    else
      let m := if first then m else m.pass
      if m.sees .key then some (.mappingStart .none, m.pass.goTo .pairKey)
      else if m.sees .flowSequenceEnd then m.close .sequenceEnd
      else (m.remember (.flowItem false)).node false false
  | .pairKey =>
    if m.seesAny [.value, .flowEntry, .flowSequenceEnd] then m.pass.omitted .pairValue
    else (m.remember .pairValue).node false false
  | .pairValue =>
    if m.sees .value then m.pass.nodeUnless [.flowEntry, .flowSequenceEnd] .pairEnd false false
    else m.omitted .pairEnd
  | .pairEnd => some (.mappingEnd, m.goTo (.flowItem false))
  | .flowKey first =>
    if m.sees .flowMappingEnd then m.close .mappingEnd
    else if !first && !m.sees .flowEntry then none
    else
      let m := if first then m else m.pass
      if m.sees .key then
        m.pass.nodeUnless [.value, .flowEntry, .flowMappingEnd] (.flowValue false) false false
      else if m.sees .flowMappingEnd then m.close .mappingEnd
      else (m.remember (.flowValue true)).node false false
  | .flowValue omitted =>
    if omitted then m.omitted (.flowKey false)
    else if m.sees .value then
      m.pass.nodeUnless [.flowEntry, .flowMappingEnd] (.flowKey false) false false
    else m.omitted (.flowKey false)

/-- Runs up to the end of the document; the events so far are kept last first. -/
def run : Nat → List Event → Machine → Option (List Event × List Token)
  | 0, _, _ => none
  | fuel + 1, events, m =>
    m.step.bind fun (e, m) =>
      if e = .documentEnd then some ((e :: events).reverse, m.tokens)
      else run fuel (e :: events) m

end Machine

/-- No step but those that open or close a document or leave a node out keeps all tokens, and
those come at most three to a token. -/
def stepBound (tokens : List Token) : Nat := 4 * tokens.length + 8

/-- The events of the first document and the tokens after it. -/
def Event.ofTokens? (tokens : List Token) : Option (List Event × List Token) :=
  Machine.run (stepBound tokens) [] ⟨tokens, .documentStart, [], []⟩

end OrgAlign.Yaml
