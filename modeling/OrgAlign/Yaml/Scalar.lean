import OrgAlign.Text.Hex
import OrgAlign.Value

/-!
# What a plain scalar means

A plain scalar is nothing, a truth value, an integer, a double or text, the first of these whose
spelling it has. Integers may be written in base two, eight, ten or sixteen; several digits that
start with a zero are text. An integer beyond sixty-four bits has no value as long as it fits one
hundred and twenty-eight bits, and is a double beyond that.
-/

namespace OrgAlign.Yaml

/-! ### Nothing and truth values -/

/-- A word for nothing. -/
def isNullWord (s : String) : Bool := s = "null" || s = "Null" || s = "NULL" || s = "~"

/-- A word for a truth value. -/
def bool? (s : String) : Option Bool :=
  if s = "true" ∨ s = "True" ∨ s = "TRUE" then some true
  else if s = "false" ∨ s = "False" ∨ s = "FALSE" then some false
  else none

/-! ### Integers -/

/-- Several digits of which the first is a zero, with or without a sign. -/
def isZeroLed (cs : List Char) : Bool :=
  let digits := match cs with
    | '+' :: rest => rest
    | '-' :: rest => rest
    | rest => rest
  1 < digits.length && digits.head? = some '0' && digits.all Char.isDigit

/-- The digits of one base. -/
def digitIn? (base : Nat) (c : Char) : Option Nat :=
  (Text.hexDigit? c).bind fun d => if d < base then some d else none

/-- A run of digits in one base, at least one. -/
def natural? (base : Nat) (cs : List Char) : Option Nat :=
  if cs = [] then none else Text.number? base (digitIn? base) cs

/-- The base that a numeral announces, and its digits. -/
def basedDigits? : List Char → Option (Nat × List Char)
  | '0' :: 'x' :: digits => some (16, digits)
  | '0' :: 'o' :: digits => some (8, digits)
  | '0' :: 'b' :: digits => some (2, digits)
  | _ => none

/-- A magnitude: digits in an announced base, or decimal digits not led by a zero. -/
def magnitude? (cs : List Char) : Option Nat :=
  match basedDigits? cs with
  | some (base, digits) => natural? base digits
  | none => if isZeroLed cs then none else natural? 10 cs

/-- An integer as written, of any size: a sign, or none, and a magnitude. -/
def integer? (cs : List Char) : Option Int :=
  match cs with
  | '-' :: rest => (magnitude? rest).map fun n => -(n : Int)
  | '+' :: rest => (magnitude? rest).map fun n => (n : Int)
  | rest => (magnitude? rest).map fun n => (n : Int)

/-- It fits `bits` bits: unsigned if it is written without a minus sign, signed otherwise. -/
def fits (bits : Nat) (n : Int) : Bool := -(Int.pow 2 (bits - 1)) ≤ n && n < Int.pow 2 bits

/-- How many bits an integer may have. -/
def integerBits : Nat := 64

/-- From this many bits on, an integer is read as a double. -/
def wideBits : Nat := 128

/-! ### Doubles -/

/-- The digits of a decimal fraction as a number and the power of ten of the last one. There is at
least one digit, before or after the point. -/
def decimal? (cs : List Char) : Option (Nat × Int) :=
  let whole := cs.takeWhile Char.isDigit
  let rest := cs.dropWhile Char.isDigit
  let (fraction, tail) := match rest with
    | '.' :: after => (after.takeWhile Char.isDigit, after.dropWhile Char.isDigit)
    | other => ([], other)
  if whole = [] ∧ fraction = [] then none
  else
    (Text.number? 10 Text.digit? (whole ++ fraction)).bind fun n =>
      let power : Int := -(fraction.length : Int)
      match tail with
      | [] => some (n, power)
      | e :: exponent =>
        if e = 'e' ∨ e = 'E' then
          let (negative, digits) := match exponent with
            | '-' :: ds => (true, ds)
            | '+' :: ds => (false, ds)
            | ds => (false, ds)
          (natural? 10 digits).map fun x => (n, if negative then power - x else power + x)
        else none

/-- A number with a sign or without, as a double. -/
def signedDecimal? (cs : List Char) : Option Binary64 :=
  let (negative, body) := match cs with
    | '-' :: rest => (true, rest)
    | '+' :: rest => (false, rest)
    | rest => (false, rest)
  (decimal? body).map fun (n, power) => Binary64.ofDecimal negative n power

/-- A double. Infinities and not-a-number have words of their own; a number beyond the doubles is
none. -/
def float? (cs : List Char) : Option Binary64 :=
  let unsigned := match cs with
    | '+' :: '+' :: _ => none
    | '+' :: '-' :: _ => none
    | '+' :: rest => some rest
    | rest => some rest
  unsigned.bind fun body =>
    if [".inf", ".Inf", ".INF"].contains (String.ofList body) then some (.infinity false)
    else if ["-.inf", "-.Inf", "-.INF"].contains (String.ofList cs) then some (.infinity true)
    else if [".nan", ".NaN", ".NAN"].contains (String.ofList cs) then some .nan
    else (signedDecimal? body).bind fun x => if x.isFinite then some x else none

/-! ### Scalars -/

/-- The value of an integer, if it can be kept as one. -/
def integerValue? (n : Int) : Option Value :=
  if fits integerBits n then some (.int n) else none

/-- What a plain scalar means. A wide integer has no value. -/
def plainValue? (s : String) : Option Value :=
  let cs := s.toList
  let asFloat : Value :=
    if isZeroLed cs then .str s
    else match float? cs with
      | some x => .float x
      | none => .str s
  if s = "" ∨ isNullWord s then some .null
  else match bool? s with
    | some b => some (.bool b)
    | none =>
      match integer? cs with
      | some n => if fits wideBits n then integerValue? n else some asFloat
      | none => some asFloat

/-- The plain text would be read as something else than text, or as several digits that start with
a zero. -/
def isAmbiguous (s : String) : Bool :=
  let cs := s.toList
  s = "" || isNullWord s || (bool? s).isSome || (integer? cs).any (fits wideBits) ||
    (float? cs).isSome || isZeroLed cs

example : plainValue? "0o17" = some (.int 15) := by decide +kernel
example : plainValue? "007" = some (.str "007") := by decide +kernel

end OrgAlign.Yaml
