import OrgAlign.Number.Binary64

/-!
# The shortest decimal that reads back

`Binary64.shortest` gives the decimal with the fewest digits that rounds to a given double, and of
those with equally many digits the one nearest to it. The reals that round to `m * 2 ^ e` form an
interval around it, ends included exactly when `m` is even; for one, two, … seventeen digits the
two neighbours of the value on that decimal grid are tried against the interval. If any point of a
grid lies in the interval, so does one of those two neighbours.
-/

namespace OrgAlign

/-- A decimal number `digits * 10 ^ exponent`. -/
structure Decimal where
  /-- The digits, as a number. -/
  digits : Nat
  /-- The power of ten of the last digit. -/
  exponent : Int
deriving DecidableEq, Repr, Inhabited

namespace Decimal

/-- Drops zeros at the end of `digits`, at most `fuel` of them. -/
def dropZeros : Nat → Decimal → Decimal
  | 0, d => d
  | fuel + 1, d =>
    if d.digits ≠ 0 ∧ d.digits % 10 = 0 then dropZeros fuel ⟨d.digits / 10, d.exponent + 1⟩
    else d

end Decimal

namespace Binary64

/-- The interval of reals that round to one double, over a common denominator. -/
structure Interval where
  /-- Lower end. -/
  low : Nat
  /-- The double itself. -/
  mid : Nat
  /-- Upper end. -/
  high : Nat
  /-- What the three are divided by. -/
  den : Nat
  /-- The ends belong to the interval. -/
  closed : Bool

/-- The reals that round to a finite positive double. Below a power of two the neighbour is half
as far away as above it. -/
def interval (x : Binary64) : Interval :=
  let e := x.exponent - 2
  let scale := Nat.pow 2 e.toNat
  let m := 4 * x.significand
  let narrow := x.fraction = 0 && 1 < x.biased
  { low := (m - (if narrow then 1 else 2)) * scale
    mid := m * scale
    high := (m + 2) * scale
    den := Nat.pow 2 (-e).toNat
    closed := x.significand % 2 = 0 }

/-- `c * 10 ^ k` lies in the interval. -/
def Interval.holds (i : Interval) (c : Nat) (k : Int) : Bool :=
  let p := c * i.den * Nat.pow 10 k.toNat
  let q := Nat.pow 10 (-k).toNat
  if i.closed then i.low * q ≤ p ∧ p ≤ i.high * q else i.low * q < p ∧ p < i.high * q

/-- The better of the value's two neighbours on the grid of multiples of `10 ^ k`, if one of them
lies in the interval. Of two at the same distance the even one is taken. -/
def Interval.nearest? (i : Interval) (k : Int) : Option Nat :=
  let num := i.mid * Nat.pow 10 (-k).toNat
  let den := i.den * Nat.pow 10 k.toNat
  let below := num / den
  let above := below + 1
  match i.holds below k, i.holds above k with
  | true, true => some (roundHalfEven num den)
  | true, false => some below
  | false, true => some above
  | false, false => none

/-- The power of ten of the value's leading digit. -/
def Interval.lead (i : Interval) : Int :=
  let guess := floorLog i.mid i.den * 30103 / 100000
  let reaches (k : Int) : Bool := i.den * Nat.pow 10 k.toNat ≤ i.mid * Nat.pow 10 (-k).toNat
  if !reaches guess then guess - 1 else if reaches (guess + 1) then guess + 1 else guess

/-- The decimal with the fewest digits that rounds to a finite double's magnitude. -/
def shortest (x : Binary64) : Decimal :=
  if x.isZero then ⟨0, 0⟩
  else
    let i := x.interval
    let lead := i.lead
    let grids := (List.range 17).map fun (n : Nat) => lead - (n : Int)
    match grids.findSome? fun k => (i.nearest? k).map fun c => (⟨c, k⟩ : Decimal) with
    | some d => d.dropZeros 20
    | none => ⟨0, 0⟩

example : (ofRatio false 1 10).shortest = ⟨1, -1⟩ := by decide +kernel
example : (⟨1⟩ : Binary64).shortest = ⟨5, -324⟩ := by decide +kernel

end Binary64
end OrgAlign
