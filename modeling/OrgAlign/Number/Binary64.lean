/-!
# Binary64 numbers by exact arithmetic

A double is kept as its bit pattern. Everything that a configuration file asks of one is decided
in `Nat` arithmetic: `ofRatio` rounds a quotient to the nearest double, a half going to the even
significand, and `significand` and `exponent` read a finite double back as `m * 2 ^ e`. No machine
arithmetic is involved, so each result is determined by these definitions alone.
-/

namespace OrgAlign

/-- A double, as its sixty-four bits. -/
structure Binary64 where
  /-- Sign, eleven bits of exponent, fifty-two bits of fraction. -/
  bits : UInt64
deriving DecidableEq, Repr, Inhabited

namespace Binary64

/-- The fraction's width in bits. -/
def fractionWidth : Nat := 52

/-- The exponent of the smallest positive double. -/
def minExponent : Int := -1074

/-- The biased exponent of infinities and NaNs. -/
def topExponent : Nat := 2047

/-- The sign bit is set. -/
def isNegative (x : Binary64) : Bool := Nat.pow 2 63 ≤ x.bits.toNat

/-- The bits below the sign. -/
def magnitudeBits (x : Binary64) : Nat := x.bits.toNat % Nat.pow 2 63

/-- The biased exponent. -/
def biased (x : Binary64) : Nat := x.magnitudeBits / Nat.pow 2 fractionWidth

/-- The stored fraction. -/
def fraction (x : Binary64) : Nat := x.magnitudeBits % Nat.pow 2 fractionWidth

/-- Neither an infinity nor a NaN. -/
def isFinite (x : Binary64) : Bool := x.biased < topExponent

/-- Not a number. -/
def isNaN (x : Binary64) : Bool := x.biased = topExponent && x.fraction ≠ 0

/-- A zero of either sign. -/
def isZero (x : Binary64) : Bool := x.magnitudeBits = 0

/-- A finite double is `± significand * 2 ^ exponent`. -/
def significand (x : Binary64) : Nat :=
  if x.biased = 0 then x.fraction else Nat.pow 2 fractionWidth + x.fraction

/-- The power of two that goes with `significand`. -/
def exponent (x : Binary64) : Int :=
  minExponent + ((max x.biased 1 : Nat) : Int) - 1

/-- The double with these bits below the sign. -/
def ofMagnitude (negative : Bool) (magnitude : Nat) : Binary64 :=
  ⟨((if negative then Nat.pow 2 63 else 0) + magnitude).toUInt64⟩

/-- An infinity. -/
def infinity (negative : Bool) : Binary64 :=
  ofMagnitude negative (topExponent * Nat.pow 2 fractionWidth)

/-- The quiet NaN. -/
def nan : Binary64 := ofMagnitude false (topExponent * Nat.pow 2 fractionWidth + Nat.pow 2 51)

/-- A zero. -/
def zero (negative : Bool) : Binary64 := ofMagnitude negative 0

/-- `num / den` rounded to an integer, a half going to the even neighbour. -/
def roundHalfEven (num den : Nat) : Nat :=
  let quotient := num / den
  let twice := 2 * (num % den)
  if twice < den then quotient
  else if den < twice then quotient + 1
  else quotient + quotient % 2

/-- The largest `k` with `2 ^ k ≤ num / den`, for positive arguments. -/
def floorLog (num den : Nat) : Int :=
  let guess : Int := (num.log2 : Int) - (den.log2 : Int)
  if den * Nat.pow 2 guess.toNat ≤ num * Nat.pow 2 (-guess).toNat then guess else guess - 1

/-- The double nearest to `± num / den`; beyond the largest one, an infinity. The rounded
significand is added to the exponent's bits, so that a carry out of it moves to the next binade
and from the last binade to infinity. -/
def ofRatio (negative : Bool) (num den : Nat) : Binary64 :=
  if num = 0 then zero negative
  else
    let e := max (floorLog num den - fractionWidth) minExponent
    let rounded := roundHalfEven (num * Nat.pow 2 (-e).toNat) (den * Nat.pow 2 e.toNat)
    let magnitude := (e - minExponent).toNat * Nat.pow 2 fractionWidth + rounded
    if topExponent * Nat.pow 2 fractionWidth ≤ magnitude then infinity negative
    else ofMagnitude negative magnitude

/-- The largest decimal exponent of a leading digit that still needs arithmetic: anything from
`10 ^ 310` on is infinite. -/
def decimalCeiling : Int := 310

/-- The smallest such exponent: anything below `10 ^ (-330)` rounds to zero. -/
def decimalFloor : Int := -330

/-- The double nearest to `± digits * 10 ^ exponent`. Exponents far out of range are decided
without computing the power. -/
def ofDecimal (negative : Bool) (digits : Nat) (exponent : Int) : Binary64 :=
  if digits = 0 then zero negative
  else
    let lead : Int := exponent + ((Nat.toDigits 10 digits).length : Int)
    if decimalCeiling < lead then infinity negative
    else if lead < decimalFloor then zero negative
    else ofRatio negative (digits * Nat.pow 10 exponent.toNat)
      (Nat.pow 10 (-exponent).toNat)

/-- The product of two finite doubles, rounded once. -/
def mul (x y : Binary64) : Binary64 :=
  let e := x.exponent + y.exponent
  ofRatio (x.isNegative ≠ y.isNegative)
    (x.significand * y.significand * Nat.pow 2 e.toNat) (Nat.pow 2 (-e).toNat)

/-- The quotient of two finite doubles, the second not zero, rounded once. -/
def div (x y : Binary64) : Binary64 :=
  let e := x.exponent - y.exponent
  ofRatio (x.isNegative ≠ y.isNegative)
    (x.significand * Nat.pow 2 e.toNat) (y.significand * Nat.pow 2 (-e).toNat)

/-- The double with the opposite sign. -/
def neg (x : Binary64) : Binary64 := ofMagnitude (!x.isNegative) x.magnitudeBits

/-- The same number: zeros of both signs agree, and so do all NaNs. -/
def sameNumber (x y : Binary64) : Bool :=
  x = y || (x.isZero && y.isZero) || (x.isNaN && y.isNaN)

example : ofRatio false 1 1 = ⟨0x3FF0000000000000⟩ := by decide
example : ofRatio true 1 3 = ⟨0xBFD5555555555555⟩ := by decide
example : ofDecimal false 5 (-324) = ⟨1⟩ := by decide +kernel

end Binary64
end OrgAlign
