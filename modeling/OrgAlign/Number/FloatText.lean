import OrgAlign.Number.Shortest

/-!
# The text of a double

A finite double is written with its shortest digits: positionally while the leading digit stands
between the fifth place after the point and the sixteenth place before it, with an exponent
otherwise. What differs between formats is one `FloatStyle`.
-/

namespace OrgAlign

/-- What one format decides about the text of a double. -/
structure FloatStyle where
  /-- A positive exponent carries a plus sign. -/
  signedExponent : Bool
  /-- Positive infinity. -/
  infinity : String
  /-- Negative infinity. -/
  negativeInfinity : String
  /-- Not a number. -/
  nan : String

namespace FloatStyle

/-- JSON writes exponents as `1e+21` and has no spelling for what is not finite. -/
def json : FloatStyle := ⟨true, "null", "null", "null"⟩

/-- YAML writes exponents as `1e21`. -/
def yaml : FloatStyle := ⟨false, ".inf", "-.inf", ".nan"⟩

end FloatStyle

namespace Decimal

/-- The least number of places before the point that is still written positionally. -/
def leastPlaces : Int := -4

/-- The greatest such number. -/
def mostPlaces : Int := 16

/-- The digits with a point after the first of several, as an exponent form needs them. -/
def pointed : List Char → List Char
  | [] => []
  | [d] => [d]
  | d :: rest => d :: '.' :: rest

/-- The text of `d`: `places` digits stand before the point. -/
def text (style : FloatStyle) (d : Decimal) : List Char :=
  let digits := Nat.toDigits 10 d.digits
  let places : Int := (digits.length : Int) + d.exponent
  if 0 ≤ d.exponent ∧ places ≤ mostPlaces then
    digits ++ List.replicate d.exponent.toNat '0' ++ ['.', '0']
  else if 0 < places ∧ places ≤ mostPlaces then
    digits.take places.toNat ++ '.' :: digits.drop places.toNat
  else if leastPlaces ≤ places ∧ places ≤ 0 then
    '0' :: '.' :: (List.replicate (-places).toNat '0' ++ digits)
  else
    let sign := if places - 1 < 0 then ['-'] else if style.signedExponent then ['+'] else []
    pointed digits ++ 'e' :: (sign ++ Nat.toDigits 10 (places - 1).natAbs)

end Decimal

/-- The text of a double in a given style. -/
def Binary64.text (style : FloatStyle) (x : Binary64) : String :=
  if x.isNaN then style.nan
  else if !x.isFinite then if x.isNegative then style.negativeInfinity else style.infinity
  else
    let magnitude := if x.isZero then ['0', '.', '0'] else x.shortest.text style
    String.ofList (if x.isNegative then '-' :: magnitude else magnitude)

end OrgAlign
