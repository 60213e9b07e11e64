/-!
# Hexadecimal digits

Escapes in JSON and YAML and the text of a digest all spell numbers in base sixteen.
-/

namespace OrgAlign.Text

/-- The value of a hexadecimal digit of either case. -/
def hexDigit? (c : Char) : Option Nat :=
  if '0' ≤ c ∧ c ≤ '9' then some (c.toNat - '0'.toNat)
  else if 'a' ≤ c ∧ c ≤ 'f' then some (c.toNat - 'a'.toNat + 10)
  else if 'A' ≤ c ∧ c ≤ 'F' then some (c.toNat - 'A'.toNat + 10)
  else none

/-- The value of a run of digits, each read by `digit?`, in a given base. -/
def number? (base : Nat) (digit? : Char → Option Nat) (cs : List Char) : Option Nat :=
  cs.foldl (fun acc c => acc.bind fun n => (digit? c).map (base * n + ·)) (some 0)

/-- The value of a run of hexadecimal digits. -/
def hexNumber? (cs : List Char) : Option Nat := number? 16 hexDigit? cs

/-- The value of a decimal digit. -/
def digit? (c : Char) : Option Nat :=
  if c.isDigit then some (c.toNat - '0'.toNat) else none

/-- `n` in base sixteen with lower-case digits, at least `width` of them. -/
def hex (width n : Nat) : List Char :=
  let digits := Nat.toDigits 16 n
  List.replicate (width - digits.length) '0' ++ digits

/-- `hex` with upper-case digits. -/
def upperHex (width n : Nat) : List Char := (hex width n).map Char.toUpper

end OrgAlign.Text
