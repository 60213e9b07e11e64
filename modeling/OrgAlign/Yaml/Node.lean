import OrgAlign.Yaml.Event

/-!
# YAML documents as trees

A document is a tree whose leaves are scalars and references to anchored nodes. References stay
references: a node may even contain itself, and only what a reader asks for is followed.

Anchors are numbered in order of appearance by how many names are known at that moment, and a
reference means the node that took its number last. So a name given twice shares a number with
the next new name.
-/

namespace OrgAlign.Yaml

/-- A node. -/
inductive Node
  | scalar (tag : Option String) (style : Style) (text : String)
  | seq (tag : Option String) (items : List Node)
  | map (tag : Option String) (entries : List (Node × Node))
  | reference (number : Nat)
deriving Repr, Inhabited

/-- A document: its root and the anchored nodes by number. -/
structure Document where
  /-- The root node. -/
  root : Node
  /-- Anchored nodes by number. -/
  anchored : List (Nat × Node)
  /-- How many nodes, references and ends of collections it has. -/
  size : Nat
deriving Repr

/-- A collection still open. What it holds is kept last first. -/
inductive Pending
  | seq (tag : Option String) (items : List Node)
  | map (tag : Option String) (entries : List (Node × Node))
  | field (tag : Option String) (entries : List (Node × Node)) (key : Node)

/-- A tree under construction. -/
structure Builder where
  /-- Collections still open, innermost first, each with its serial number if it is anchored. -/
  opened : List (Option Nat × Pending)
  /-- The numbers of anchor names. -/
  names : List (String × Nat)
  /-- Which node holds a number: serial numbers, the latest holder first. -/
  holders : List (Nat × Nat)
  /-- Finished anchored nodes by serial number. -/
  finished : List (Nat × Node)
  /-- The root, once it is complete. -/
  root : Option Node

namespace Builder

/-- Before the first event. -/
def start : Builder := ⟨[], [], [], [], none⟩

/-- Numbers an anchor, if there is one, and gives its node a serial number. -/
def register (b : Builder) (anchor : Option String) : Option Nat × Builder :=
  match anchor with
  | none => (none, b)
  | some name =>
    let number := b.names.length
    let serial := b.holders.length
    let names := (name, number) :: b.names.filter (·.1 ≠ name)
    (some serial, { b with names, holders := (number, serial) :: b.holders })

/-- Puts a finished node where it belongs. -/
def put (b : Builder) (serial : Option Nat) (n : Node) : Builder :=
  let b := match serial with
    | some s => { b with finished := (s, n) :: b.finished }
    | none => b
  match b.opened with
  | [] => { b with root := some n }
  | (s, .seq tag items) :: outer => { b with opened := (s, .seq tag (n :: items)) :: outer }
  | (s, .map tag entries) :: outer => { b with opened := (s, .field tag entries n) :: outer }
  | (s, .field tag entries key) :: outer =>
    { b with opened := (s, .map tag ((key, n) :: entries)) :: outer }

/-- Opens a collection. -/
def begin (b : Builder) (marks : Marks) (p : Pending) : Builder :=
  let (serial, b) := b.register marks.anchor
  { b with opened := (serial, p) :: b.opened }

/-- Takes an event. A reference to an unknown name cannot be taken. -/
def step (b : Builder) : Event → Option Builder
  | .documentStart => some b
  | .documentEnd => some b
  | .alias name => (b.names.find? (·.1 == name)).map fun e => b.put none (.reference e.2)
  | .scalar marks style text =>
    let (serial, b) := b.register marks.anchor
    some (b.put serial (.scalar marks.tag style text))
  | .sequenceStart marks => some (b.begin marks (.seq marks.tag []))
  | .mappingStart marks => some (b.begin marks (.map marks.tag []))
  | .sequenceEnd =>
    match b.opened with
    | (serial, .seq tag items) :: outer =>
      some ({ b with opened := outer }.put serial (.seq tag items.reverse))
    | _ => none
  | .mappingEnd =>
    match b.opened with
    | (serial, .map tag entries) :: outer =>
      some ({ b with opened := outer }.put serial (.map tag entries.reverse))
    | _ => none

/-- The anchored nodes by number: each number's latest holder. -/
def anchored (b : Builder) : List (Nat × Node) :=
  b.holders.filterMap fun (number, serial) =>
    (b.finished.find? (·.1 == serial)).map fun e => (number, e.2)

end Builder

/-- The document that events describe. -/
def Document.ofEvents? (events : List Event) : Option Document :=
  (events.foldlM Builder.step .start : Option Builder).bind fun b =>
    b.root.map fun root => ⟨root, b.anchored, events.length - 2⟩

/-- The document without content. -/
def Document.blank : Document := ⟨.scalar none .plain "", [], 1⟩

/-- The first document of a text, and whether anything comes after it. -/
def document? (text : String) : Option (Document × Bool) :=
  let tokens := tokens text.toList
  if tokens = [.streamEnd] then some (.blank, false)
  else
    (Event.ofTokens? tokens).bind fun (events, rest) =>
      (Document.ofEvents? events).map fun d =>
        (d, rest.dropWhile (· = .documentEnd) ≠ [.streamEnd])

end OrgAlign.Yaml
