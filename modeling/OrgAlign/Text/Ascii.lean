/-!
# Text without regard to ASCII case

E-mail addresses and file extensions are compared without regard to the case of the letters
`A`–`Z`; every other character counts as written. `lower` is the canonical form, and
`sameIgnoringCase` compares canonical forms, so it is an equivalence by construction.
-/

namespace OrgAlign.Text

/-- The text with `A`–`Z` replaced by `a`–`z`. -/
def lower (s : String) : String :=
  String.ofList (s.toList.map Char.toLower)

/-- Two texts agree up to the case of `A`–`Z`. -/
def sameIgnoringCase (a b : String) : Bool :=
  lower a == lower b

@[simp] theorem sameIgnoringCase_iff (a b : String) :
    sameIgnoringCase a b = true ↔ lower a = lower b := by
  simp [sameIgnoringCase]

/-! ### Cutting text at one character -/

/-- The pieces of `cs` between occurrences of `c`; always at least one piece. -/
def splitAt (c : Char) : List Char → List (List Char)
  | [] => [[]]
  | x :: rest =>
    if x = c then [] :: splitAt c rest
    else match splitAt c rest with
      | [] => [[x]]
      | piece :: pieces => (x :: piece) :: pieces

/-- The text before and after the last occurrence of `c`, if it occurs. -/
def splitLast (c : Char) : List Char → Option (List Char × List Char)
  | [] => none
  | x :: rest =>
    match splitLast c rest with
    | some (before, after) => some (x :: before, after)
    | none => if x = c then some ([], rest) else none

/-- `splitLast` on strings. -/
def cutLast (c : Char) (s : String) : Option (String × String) :=
  (splitLast c s.toList).map fun p => (String.ofList p.1, String.ofList p.2)

/-- What follows `head` in `cs`, if `cs` starts with it. -/
def dropHead : List Char → List Char → Option (List Char)
  | [], cs => some cs
  | _ :: _, [] => none
  | h :: head, c :: cs => if h = c then dropHead head cs else none

end OrgAlign.Text
