import OrgAlign.Source
import OrgAlign.Yaml.Node
import OrgAlign.Yaml.Scalar

/-!
# Reading YAML documents

A `Located` node is a node together with what is needed to follow references from it. Typed
reading asks a scalar for what is wanted: any scalar is text, and a plain one may also be a truth
value, an integer or nothing. Plain values (`Located.value?`) are read by the spelling and the tag
of each scalar.

References may be followed only so often in one value, so that a short document cannot stand for
an enormous one, and collections may be nested only so deep.
-/

namespace OrgAlign.Yaml

/-- How deep collections may be nested. -/
def nestingLimit : Nat := 128

/-- How often references may be followed, for each part of the document. -/
def referenceFactor : Nat := 100

/-- A node in its document. -/
structure Located where
  /-- The node. -/
  node : Node
  /-- The document's anchored nodes. -/
  anchored : List (Nat × Node)
  /-- How many more levels of nesting are admitted. -/
  levels : Nat
  /-- How often references may be followed in one value. -/
  budget : Nat

/-- A document's root. -/
def Document.located (d : Document) : Located :=
  ⟨d.root, d.anchored, nestingLimit, referenceFactor * d.size⟩

/-- The node that a number stands for. -/
def lookup (anchored : List (Nat × Node)) (number : Nat) : Option Node :=
  (anchored.find? (·.1 == number)).map Prod.snd

/-! ### Tags -/

/-- Tags that the format itself defines. -/
def coreTag (name : String) : String := "tag:yaml.org,2002:" ++ name

/-- The name of an application's own tag. -/
def ownTag? (tag : Option String) : Option String :=
  tag.bind fun t => match t.toList with
    | '!' :: rest => some (String.ofList rest)
    | _ => none

/-- What a scalar means when its kind is not asked for. A tag of the format forces its kind; an
application's own tag has no plain value. -/
def scalarValue? (tag : Option String) (style : Style) (text : String) : Option Value :=
  match tag with
  | none => if style = .plain then plainValue? text else some (.str text)
  | some t =>
    if (ownTag? tag).isSome then none
    else if t = coreTag "bool" then (bool? text).map .bool
    else if t = coreTag "int" then (integer? text.toList).bind integerValue?
    else if t = coreTag "float" then (float? text.toList).map .float
    else if t = coreTag "null" then if isNullWord text then some .null else none
    else some (.str text)

/-! ### Plain values -/

/-- A value under construction, given how often references may be followed and telling how often
they still may. -/
abbrev Budgeted (α : Type) := Nat → Option (α × Nat)

/-- Reads items one after the other. -/
def collect {α β : Type} (read : α → Budgeted β) : List α → Budgeted (List β)
  | [], budget => some ([], budget)
  | a :: as, budget =>
    (read a budget).bind fun (b, budget) =>
      (collect read as budget).map fun (bs, budget) => (b :: bs, budget)

/-- Reads a key and a value. -/
def entryWith {α β : Type} (read : α → Budgeted β) (e : α × α) : Budgeted (β × β) := fun budget =>
  (read e.1 budget).bind fun (k, budget) =>
    (read e.2 budget).map fun (v, budget) => ((k, v), budget)

/-- The node meant by a node that may be a reference. -/
def follow (anchored : List (Nat × Node)) : Node → Budgeted Node
  | .reference _, 0 => none
  | .reference number, budget + 1 => (lookup anchored number).map (·, budget)
  | n, budget => some (n, budget)

/-- The value of a node whose parts are read by `read`; without it, collections are too deep. -/
def valueWith (anchored : List (Nat × Node)) (read : Option (Node → Budgeted Value)) (n : Node) :
    Budgeted Value := fun budget =>
  (follow anchored n budget).bind fun (n, budget) =>
    match n, read with
    | .scalar tag style text, _ => (scalarValue? tag style text).map (·, budget)
    | .seq tag items, some read =>
      if (ownTag? tag).isSome then none
      else (collect read items budget).map fun (vs, budget) => (.seq vs, budget)
    | .map tag entries, some read =>
      if (ownTag? tag).isSome then none
      else (collect (entryWith read) entries budget).map fun (es, budget) => (.map es, budget)
    | _, _ => none

/-- The value of a node, nested at most so deep. -/
def valueAt (anchored : List (Nat × Node)) : Nat → Node → Budgeted Value
  | 0 => valueWith anchored none
  | levels + 1 => valueWith anchored (some (valueAt anchored levels))

/-! ### Typed reading -/

namespace Located

/-- Another node of the same document, one level further in. -/
def inner (l : Located) (n : Node) : Located := { l with node := n, levels := l.levels - 1 }

/-- The node itself, a reference being followed. -/
def here (l : Located) : Node :=
  match l.node with
  | .reference number => (lookup l.anchored number).getD l.node
  | n => n

/-- Any scalar is text. -/
def text? (l : Located) : Option String :=
  match l.here with
  | .scalar _ _ text => some text
  | _ => none

/-- The text of a plain scalar, or of a literal one tagged with the kind asked for. -/
def unquoted? (l : Located) (kind : String) : Option String :=
  match l.here with
  | .scalar tag style text =>
    if style = .plain ∨ (style = .literal ∧ tag = some (coreTag kind)) then some text else none
  | _ => none

/-- An empty plain scalar stands for an empty collection. -/
def isBlank (l : Located) : Bool :=
  match l.here with
  | .scalar _ style text => style = .plain && text = ""
  | _ => false

/-- A plain scalar that says so stands for a value left out. -/
def isAbsent? (l : Located) : Option Bool :=
  match l.here with
  | .scalar none .plain text => some (text = "" || isNullWord text)
  | .scalar (some tag) .plain text =>
    if tag = coreTag "null" then if isNullWord text then some true else none else some false
  | _ => some false

/-- The items of a sequence. -/
def items? (l : Located) : Option (List Located) :=
  match l.here with
  | .seq _ items => if l.levels = 0 then none else some (items.map l.inner)
  | _ => if l.isBlank then some [] else none

/-- The entries of a mapping. -/
def entries? (l : Located) : Option (List (Located × Located)) :=
  match l.here with
  | .map _ entries =>
    if l.levels = 0 then none else some (entries.map fun e => (l.inner e.1, l.inner e.2))
  | _ => if l.isBlank then some [] else none

/-- An alternative is named by a scalar, or by an application's own tag on nothing. -/
def choice? (l : Located) : Option Label :=
  match l.here with
  | .scalar tag style text =>
    match ownTag? tag with
    | none => some (.name text)
    | some name =>
      if style = .plain ∧ (text = "" ∨ isNullWord text) then some (.name name) else none
  | _ => none

/-- The node as a plain value. -/
def value? (l : Located) : Option Value :=
  (valueAt l.anchored l.levels l.node l.budget).map Prod.fst

end Located

instance : Source Located where
  text? := Located.text?
  flag? l := (l.unquoted? "bool").bind bool?
  integer? l := ((l.unquoted? "int").bind fun s => integer? s.toList).bind fun n =>
    if -integerBound ≤ n ∧ n < integerBound then some n else none
  isAbsent? := Located.isAbsent?
  items? := Located.items?
  entries? := Located.entries?
  label? l := l.text?.map .name
  choice? := Located.choice?
  value? := Located.value?

end OrgAlign.Yaml
