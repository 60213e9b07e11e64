import OrgAlign.Text.Blank
import OrgAlign.Text.Hex

/-!
# Points in time

A timestamp is a day, a second of that day and a fraction, always in Coordinated Universal Time.
A leap second keeps the second before it and a fraction of a second or more.

Reading is generous: white space may stand between the parts, a blank may stand for the `T`, parts
may have fewer digits, and any offset below a day is accepted. Writing is exact: `Z` at the end,
and nothing, three, six or nine digits of fraction, whatever is needed.
-/

namespace OrgAlign

/-- A point in time. -/
structure Timestamp where
  /-- Days since the first of January 1970. -/
  day : Int
  /-- Seconds since midnight. -/
  second : Nat
  /-- Nanoseconds; a whole second and more within a leap second. -/
  nano : Nat
deriving DecidableEq, Repr, Inhabited

namespace Timestamp

/-! ### The calendar -/

/-- A day of the calendar. -/
structure Date where
  /-- The year; year zero precedes year one. -/
  year : Int
  /-- The month, from one. -/
  month : Nat
  /-- The day of the month, from one. -/
  day : Nat
deriving DecidableEq, Repr

/-- A leap year. -/
def isLeap (year : Int) : Bool := year % 4 = 0 && (year % 100 ≠ 0 || year % 400 = 0)

/-- How many days a month has. -/
def monthLength (year : Int) (month : Nat) : Nat :=
  if month = 2 then if isLeap year then 29 else 28
  else if [4, 6, 9, 11].contains month then 30 else 31

/-- Days in four hundred years. -/
def eraDays : Int := 146097

/-- Days from the first of March of year zero to the first of January 1970. -/
def epochOffset : Int := 719468

/-- The day number of a date. Years start in March, so that a leap day is a year's last day. -/
def dayNumber (d : Date) : Int :=
  let y := if d.month ≤ 2 then d.year - 1 else d.year
  let era := y / 400
  let yearOfEra := y % 400
  let dayOfYear : Int := (153 * ((d.month + 9) % 12) + 2) / 5 + d.day - 1
  let dayOfEra := yearOfEra * 365 + yearOfEra / 4 - yearOfEra / 100 + dayOfYear
  era * eraDays + dayOfEra - epochOffset

/-- The date of a day number. -/
def dateOf (n : Int) : Date :=
  let z := n + epochOffset
  let era := z / eraDays
  let dayOfEra := z % eraDays
  let yearOfEra := (dayOfEra - dayOfEra / 1460 + dayOfEra / 36524 - dayOfEra / 146096) / 365
  let dayOfYear := dayOfEra - (365 * yearOfEra + yearOfEra / 4 - yearOfEra / 100)
  let shifted := (5 * dayOfYear + 2) / 153
  let day := dayOfYear - (153 * shifted + 2) / 5 + 1
  let month := if shifted < 10 then shifted + 3 else shifted - 9
  ⟨yearOfEra + era * 400 + (if month ≤ 2 then 1 else 0), month.toNat, day.toNat⟩

/-- Years that have dates. -/
def yearInRange (year : Int) : Bool := -262143 ≤ year && year ≤ 262142

/-- The date exists. -/
def Date.valid (d : Date) : Bool :=
  yearInRange d.year && 1 ≤ d.month && d.month ≤ 12 && 1 ≤ d.day &&
    d.day ≤ monthLength d.year d.month

/-! ### Reading -/

/-- What is left of a text after a part was read from it. -/
abbrev Part (α : Type) := Option (α × List Char)

/-- A number of at least one and at most `width` digits, white space before it. -/
def number? (width : Nat) (cs : List Char) : Part Nat :=
  let cs := Text.dropBlanks cs
  let digits := (cs.take width).takeWhile Char.isDigit
  if digits = [] then none
  else (Text.number? 10 Text.digit? digits).map (·, cs.drop digits.length)

/-- A year: four digits at most, or any number with a sign. -/
def year? (cs : List Char) : Part Int :=
  let unbounded (cs : List Char) : Part Nat :=
    if cs.head?.any Char.isDigit then number? cs.length cs else none
  match Text.dropBlanks cs with
  | '-' :: rest => (unbounded rest).map fun (n, rest) => (-(n : Int), rest)
  | '+' :: rest => (unbounded rest).map fun (n, rest) => ((n : Int), rest)
  | rest => (number? 4 rest).map fun (n, rest) => ((n : Int), rest)

/-- A mark, white space before it. -/
def mark? (c : Char) (cs : List Char) : Option (List Char) :=
  match Text.dropBlanks cs with
  | d :: rest => if c = d then some rest else none
  | [] => none

/-- A fraction of a second, if a point follows; digits after the ninth do not count. -/
def fraction? : List Char → Part Nat
  | '.' :: rest =>
    let digits := (rest.take 9).takeWhile Char.isDigit
    if digits = [] then none
    else
      (Text.number? 10 Text.digit? digits).map fun n =>
        (n * Nat.pow 10 (9 - digits.length), rest.dropWhile Char.isDigit)
  | cs => some (0, cs)

/-- The minus sign of typography. -/
def minusSign : Char := Char.ofNat 0x2212

/-- Two digits. -/
def twoDigits? (cs : List Char) : Part Nat :=
  match cs with
  | a :: b :: rest =>
    match Text.digit? a, Text.digit? b with
    | some a, some b => some (10 * a + b, rest)
    | _, _ => none
  | _ => none

/-- An offset from Coordinated Universal Time, in seconds. -/
def offset? (cs : List Char) : Option (Int × List Char) :=
  match cs with
  | [] => none
  | sign :: rest =>
    if sign = 'Z' ∨ sign = 'z' then some (0, rest)
    else if (cs.take 3).map Char.toLower = "utc".toList then some (0, cs.drop 3)
    else if sign = '+' ∨ sign = '-' ∨ sign = minusSign then do
      let (hours, rest) ← twoDigits? rest
      let rest := rest.dropWhile fun c => c = ':' || Text.isBlank c
      let (minutes, rest) ← twoDigits? rest
      let seconds : Int := 3600 * hours + 60 * minutes
      if minutes < 60 ∧ seconds < 86400 then
        some (if sign = '+' then seconds else -seconds, rest)
      else none
    else none

/-- The point in time with a date, a time of day and an offset. A sixtieth second is a leap
second. -/
def ofParts? (date : Date) (hour minute second nano : Nat) (offset : Int) : Option Timestamp :=
  if date.valid && hour < 24 && minute < 60 && second ≤ 60 then
    let (second, nano) := if second = 60 then (59, nano + 1000000000) else (second, nano)
    let total :=
      dayNumber date * 86400 + ((3600 * hour + 60 * minute + second : Nat) : Int) - offset
    let t : Timestamp := ⟨total / 86400, (total % 86400).toNat, nano⟩
    if yearInRange (dateOf t.day).year then some t else none
  else none

/-- Reads a timestamp. -/
def read? (text : String) : Option Timestamp := do
  let (year, cs) ← year? text.toList
  let cs ← mark? '-' cs
  let (month, cs) ← number? 2 cs
  let cs ← mark? '-' cs
  let (day, cs) ← number? 2 cs
  let cs ← match cs with
    | c :: rest => if c = 'T' ∨ c = 't' ∨ c = ' ' then some rest else none
    | [] => none
  let (hour, cs) ← number? 2 cs
  let cs ← mark? ':' cs
  let (minute, cs) ← number? 2 cs
  let cs ← mark? ':' cs
  let (second, cs) ← number? 2 cs
  let (nano, cs) ← fraction? cs
  let (offset, cs) ← offset? (Text.dropBlanks cs)
  if Text.dropBlanks cs = [] then ofParts? ⟨year, month, day⟩ hour minute second nano offset
  else none

/-! ### Writing -/

/-- A number with at least `width` digits. -/
def padded (width n : Nat) : List Char :=
  let digits := Nat.toDigits 10 n
  List.replicate (width - digits.length) '0' ++ digits

/-- A year; outside the four-digit years it has a sign. -/
def yearText (year : Int) : List Char :=
  if 0 ≤ year ∧ year ≤ 9999 then padded 4 year.toNat
  else (if year < 0 then '-' else '+') :: padded 4 year.natAbs

/-- A fraction of a second. -/
def fractionText (nano : Nat) : List Char :=
  if nano = 0 then []
  else if nano % 1000000 = 0 then '.' :: padded 3 (nano / 1000000)
  else if nano % 1000 = 0 then '.' :: padded 6 (nano / 1000)
  else '.' :: padded 9 nano

/-- The text of a timestamp. -/
def text (t : Timestamp) : String :=
  let d := dateOf t.day
  let second := t.second % 60 + t.nano / 1000000000
  String.ofList (yearText d.year ++ '-' :: padded 2 d.month ++ '-' :: padded 2 d.day ++
    'T' :: padded 2 (t.second / 3600) ++ ':' :: padded 2 (t.second / 60 % 60) ++
    ':' :: padded 2 second ++ fractionText (t.nano % 1000000000) ++ ['Z'])

end Timestamp
end OrgAlign
