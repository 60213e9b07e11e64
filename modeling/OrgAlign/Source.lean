import OrgAlign.Value

/-!
# Typed reading

The records of a configuration are read from two kinds of document: plain `Value`s, which say of
every scalar what it is, and YAML nodes, where a scalar's kind follows from what is asked of it.
A `Source` is what both offer to a reader, so that each record has one reader.

Reading fails without a reason: why a document does not fit is a matter of its parser's wording.
-/

namespace OrgAlign

/-- The largest signed 64-bit integer, plus one. -/
def integerBound : Int := Int.pow 2 63

/-- A key of a record: a field's name, or its position. -/
inductive Label
  | name (s : String)
  | position (n : Nat)
deriving DecidableEq, Repr

namespace Label

/-- The key as a document value. -/
def value : Label → Value
  | name s => .str s
  | position n => .int n

/-- The alternative that a label stands for, among alternatives listed with their names. -/
def pick {α : Type} (alternatives : List (String × α)) : Label → Option α
  | name s => (alternatives.find? (·.1 == s)).map Prod.snd
  | position n => alternatives[n]?.map Prod.snd

end Label

/-- What a document offers to a typed reader. -/
class Source (δ : Type) where
  /-- The document as text. -/
  text? : δ → Option String
  /-- The document as a truth value. -/
  flag? : δ → Option Bool
  /-- The document as a signed 64-bit integer. -/
  integer? : δ → Option Int
  /-- Whether the document stands for a value left out, unless it is neither that nor a value. -/
  isAbsent? : δ → Option Bool
  /-- The document as a list. -/
  items? : δ → Option (List δ)
  /-- The document as a mapping. -/
  entries? : δ → Option (List (δ × δ))
  /-- The document as a key of a record. -/
  label? : δ → Option Label
  /-- The document as the name, or the position, of one of several alternatives. -/
  choice? : δ → Option Label
  /-- The document as a plain value. -/
  value? : δ → Option Value

namespace Source

variable {δ α : Type} [Source δ]

/-- A list of values that are read alike. -/
def list? (read : δ → Option α) (d : δ) : Option (List α) :=
  (items? d).bind fun items => items.mapM read

/-- A list of texts. -/
def texts? (d : δ) : Option (List String) := list? text? d

/-- A value that may be left out. -/
def optional (read : δ → Option α) (d : δ) : Option (Option α) :=
  (isAbsent? d).bind fun absent => if absent then some none else (read d).map some

/-- The fields of a record, in document order. -/
def fields? (d : δ) : Option (List (Label × δ)) :=
  (entries? d).bind fun es => es.mapM fun e => (label? e.1).map (·, e.2)

end Source

/-! ### Fields of a record -/

/-- The fields of a record, in document order. -/
abbrev Fields (δ : Type) := List (Label × δ)

namespace Fields

variable {δ α : Type}

/-- The documents given for one field. -/
def all (fields : Fields δ) (name : String) : List δ :=
  (fields.filter (·.1 = .name name)).map Prod.snd

/-- A field that may be missing; given twice, it cannot be read. -/
def read? (fields : Fields δ) (name : String) (read : δ → Option α) : Option (Option α) :=
  match fields.all name with
  | [] => some none
  | [d] => (read d).map some
  | _ => none

/-- A field that must be there once. -/
def required (fields : Fields δ) (name : String) (read : δ → Option α) : Option α :=
  (fields.read? name read).bind id

/-- A field with a value of its own when it is missing. -/
def withDefault (fields : Fields δ) (name : String) (default : α) (read : δ → Option α) :
    Option α :=
  (fields.read? name read).map (·.getD default)

/-- A field that may be missing or stand for nothing. -/
def optional [Source δ] (fields : Fields δ) (name : String) (read : δ → Option α) :
    Option (Option α) :=
  fields.withDefault name none (Source.optional read)

/-- Everything but the named fields, as plain values in document order. The keys and the mappings
below them must be free of clashes. -/
def others [Source δ] (fields : Fields δ) (names : List String) : Option (List (Value × Value)) :=
  let rest := fields.filter fun f => !names.any fun n => f.1 = .name n
  (rest.mapM fun f => (Source.value? f.2).map (f.1.value, ·)).bind fun entries =>
    if (Value.map entries).distinctKeys then some entries else none

end Fields

/-! ### Plain values -/

namespace Value

/-- A text value. -/
def text? : Value → Option String
  | str s => some s
  | _ => none

/-- An integer that fits sixty-four signed bits. -/
def integer? : Value → Option Int
  | int n => if -integerBound ≤ n ∧ n < integerBound then some n else none
  | _ => none

/-- A field name, or a position given as a number. -/
def label? : Value → Option Label
  | str s => some (.name s)
  | int n => if 0 ≤ n then some (.position n.toNat) else none
  | _ => none

/-- An alternative is named by a text, or by the only key of a mapping that holds nothing. -/
def choice? : Value → Option Label
  | str s => some (.name s)
  | map [(key, null)] => key.label?
  | _ => none

end Value

instance : Source Value where
  text? := Value.text?
  flag? | .bool b => some b | _ => none
  integer? := Value.integer?
  isAbsent? | .null => some true | _ => some false
  items? | .seq items => some items | _ => none
  entries? | .map entries => some entries | _ => none
  label? := Value.label?
  choice? := Value.choice?
  value? := some

end OrgAlign
