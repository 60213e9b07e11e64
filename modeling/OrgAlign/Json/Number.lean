import OrgAlign.Text.Hex
import OrgAlign.Value

/-!
# Numbers in JSON text

An integer that fits sixty-four bits, signed or not, stays an integer; every other number becomes
a double. Its significand is made of the leading digits that fit sixty-four bits and is then
scaled by a power of ten, with one rounding for the significand and one for the scaling. A number
whose magnitude is beyond the doubles cannot be read.
-/

namespace OrgAlign.Json

/-- The largest significand, as an unsigned 64-bit integer. -/
def significandLimit : Nat := Nat.pow 2 64 - 1

/-- The largest power of ten that is itself a double. -/
def largestPower : Nat := 308

/-- A numeral taken apart. -/
structure Numeral where
  /-- It starts with a minus sign. -/
  negative : Bool
  /-- The digits before the point. -/
  whole : List Char
  /-- The digits after the point, if there is a point. -/
  fraction : Option (List Char)
  /-- The sign of the exponent, true for minus, and its digits, if there is an exponent. -/
  exponent : Option (Bool × List Char)

/-- Takes the exponent's sign and digits apart. -/
def exponentOf? (cs : List Char) : Option (Bool × List Char) :=
  let (negative, digits) := match cs with
    | '-' :: rest => (true, rest)
    | '+' :: rest => (false, rest)
    | rest => (false, rest)
  if digits ≠ [] ∧ digits.all Char.isDigit then some (negative, digits) else none

/-- Takes a numeral apart: no leading zeros, digits on both sides of the point and in the
exponent. -/
def Numeral.ofChars? (cs : List Char) : Option Numeral :=
  let (negative, body) := match cs with
    | '-' :: rest => (true, rest)
    | rest => (false, rest)
  let whole := body.takeWhile Char.isDigit
  let afterWhole := body.dropWhile Char.isDigit
  let (fraction, tail) := match afterWhole with
    | '.' :: rest => (some (rest.takeWhile Char.isDigit), rest.dropWhile Char.isDigit)
    | rest => (none, rest)
  if whole = [] ∨ (whole.head? = some '0' ∧ whole.length ≠ 1) ∨ fraction = some [] then none
  else match tail with
    | [] => some ⟨negative, whole, fraction, none⟩
    | e :: rest =>
      if e = 'e' ∨ e = 'E' then
        (exponentOf? rest).map fun x => ⟨negative, whole, fraction, some x⟩
      else none

/-- A significand under construction. -/
structure Significand where
  /-- The digits taken so far. -/
  value : Nat
  /-- The power of ten it stands for. -/
  power : Int
  /-- A digit did not fit: the rest only counts. -/
  full : Bool

/-- Takes one more digit, if it still fits. -/
def Significand.push (s : Significand) (inFraction : Bool) (digit : Nat) : Significand :=
  let next := s.value * 10 + digit
  if !s.full && next ≤ significandLimit then
    ⟨next, if inFraction then s.power - 1 else s.power, false⟩
  else ⟨s.value, if inFraction then s.power else s.power + 1, true⟩

/-- The significand of a numeral and its power of ten, the written exponent apart. Digits after
the point get a chance of their own to fit. -/
def Numeral.significand (n : Numeral) : Significand :=
  let digits (cs : List Char) : List Nat := cs.filterMap Text.digit?
  let start : Significand := ⟨0, 0, false⟩
  let whole := (digits n.whole).foldl (fun s d => s.push false d) start
  (digits (n.fraction.getD [])).foldl (fun s d => s.push true d) { whole with full := false }

/-- A power of ten as a double. -/
def powerOfTen (k : Nat) : Binary64 := Binary64.ofDecimal false 1 k

/-- `significand * 10 ^ power`, dividing by the largest power of ten as often as it takes, at most
`fuel` times. -/
def scale : Nat → Binary64 → Int → Option Binary64
  | fuel, x, power =>
    if power.natAbs ≤ largestPower then
      if 0 ≤ power then
        let product := x.mul (powerOfTen power.toNat)
        if product.isFinite then some product else none
      else some (x.div (powerOfTen (-power).toNat))
    else if x.isZero then some x
    else if 0 ≤ power then none
    else match fuel with
      | 0 => some (.zero false)
      | fuel + 1 => scale fuel (x.div (powerOfTen largestPower)) (power + largestPower)

/-- The largest exponent that is still added to the significand's. -/
def exponentLimit : Nat := Nat.pow 2 31 - 1

/-- The double that a numeral stands for, its sign apart. -/
def Numeral.magnitude? (n : Numeral) : Option Binary64 :=
  let s := n.significand
  let start := Binary64.ofRatio false s.value 1
  match n.exponent with
  | none => scale 4 start s.power
  | some (negative, digits) =>
    let e := (Text.number? 10 Text.digit? digits).getD 0
    if exponentLimit < e then
      if s.value = 0 ∨ negative then some (.zero false) else none
    else scale 4 start (if negative then s.power - e else s.power + e)

/-- The integer that a numeral stands for, if it is written as one and fits. Negative zero is not
an integer. -/
def Numeral.integer? (n : Numeral) : Option Int :=
  match n.fraction, n.exponent, Text.number? 10 Text.digit? n.whole with
  | none, none, some m =>
    if n.negative then if 0 < m ∧ m ≤ Nat.pow 2 63 then some (-(m : Int)) else none
    else if m ≤ significandLimit then some m else none
  | _, _, _ => none

/-- The value of a numeral. -/
def number? (cs : List Char) : Option Value :=
  (Numeral.ofChars? cs).bind fun n =>
    match n.integer? with
    | some i => some (.int i)
    | none => n.magnitude?.map fun x => .float (if n.negative then x.neg else x)

end OrgAlign.Json
