/-!
# Edits between two lists of lines

An edit script is a list of `Edit`s, each a run of lines of the old text next to the run of the
new text that takes its place. `Edit.script` finds a shortest one: lines that agree at both ends
are kept, and what is left is cut in two where a search from the front meets a search from the
back.
-/

namespace OrgAlign.Diff

/-- The lines of a text. -/
abbrev Lines := Array String

/-- What becomes of the lines of an edit. -/
inductive Kind
  | keep
  | delete
  | insert
  | replace
deriving DecidableEq, Repr

/-- A run of old lines and the run of new lines in its place. -/
structure Edit where
  /-- What becomes of the lines. -/
  kind : Kind
  /-- Where the old lines start. -/
  oldStart : Nat
  /-- How many there are. -/
  oldSize : Nat
  /-- Where the new lines start. -/
  newStart : Nat
  /-- How many there are. -/
  newSize : Nat
deriving DecidableEq, Repr

namespace Edit

/-- Lines that stay. -/
def keep (oldStart newStart size : Nat) : Edit := ⟨.keep, oldStart, size, newStart, size⟩

/-- Lines that go. -/
def delete (oldStart size newStart : Nat) : Edit := ⟨.delete, oldStart, size, newStart, 0⟩

/-- Lines that come. -/
def insert (oldStart newStart size : Nat) : Edit := ⟨.insert, oldStart, 0, newStart, size⟩

/-- The place after the old lines. -/
def oldEnd (e : Edit) : Nat := e.oldStart + e.oldSize

/-- The place after the new lines. -/
def newEnd (e : Edit) : Nat := e.newStart + e.newSize

/-- No line is touched. -/
def isEmpty (e : Edit) : Bool := e.oldSize = 0 && e.newSize = 0

end Edit

/-- A part of the old text and a part of the new text. -/
structure Window where
  /-- Where the old part starts. -/
  oldStart : Nat
  /-- The place after it. -/
  oldEnd : Nat
  /-- Where the new part starts. -/
  newStart : Nat
  /-- The place after it. -/
  newEnd : Nat

/-- How many of the next `limit` lines agree, from line `i` of the old text and line `j` of the
new one on. -/
def agreeing (old new : Lines) : Nat → Nat → Nat → Nat
  | 0, _, _ => 0
  | limit + 1, i, j => if old[i]? = new[j]? then agreeing old new limit (i + 1) (j + 1) + 1 else 0

/-- How many of the last `limit` lines agree, before line `i` of the old text and line `j` of the
new one. -/
def agreeingBack (old new : Lines) : Nat → Nat → Nat → Nat
  | 0, _, _ => 0
  | limit + 1, i, j =>
    if old[i - 1]? = new[j - 1]? then agreeingBack old new limit (i - 1) (j - 1) + 1 else 0

/-- How many lines agree at the front of a window. -/
def Window.front (w : Window) (old new : Lines) : Nat :=
  agreeing old new (min (w.oldEnd - w.oldStart) (w.newEnd - w.newStart)) w.oldStart w.newStart

/-- How many lines agree at the back of a window. -/
def Window.back (w : Window) (old new : Lines) : Nat :=
  agreeingBack old new (min (w.oldEnd - w.oldStart) (w.newEnd - w.newStart)) w.oldEnd w.newEnd

/-! ### Where two searches meet -/

/-- How far a search has come on each diagonal. -/
structure Frontier where
  /-- The distances, diagonal zero in the middle. -/
  distances : Array Nat
  /-- The index of diagonal zero. -/
  centre : Nat

namespace Frontier

/-- Before the first round. -/
def start (bound : Nat) : Frontier := ⟨Array.replicate (2 * bound + 2) 0, bound⟩

/-- The distance on a diagonal. -/
def get (f : Frontier) (k : Int) : Nat := (f.distances[(k + f.centre).toNat]?).getD 0

/-- Notes a distance. -/
def set (f : Frontier) (k : Int) (x : Nat) : Frontier :=
  { f with distances := f.distances.setIfInBounds (k + f.centre).toNat x }

/-- Where round `d` starts on diagonal `k`: one step on from the better neighbour. -/
def enter (f : Frontier) (d k : Int) : Nat :=
  if k = -d ∨ (k ≠ d ∧ f.get (k - 1) < f.get (k + 1)) then f.get (k + 1) else f.get (k - 1) + 1

end Frontier

/-- The diagonals of round `d`, from the highest one down. -/
def diagonals (d : Nat) : List Int :=
  (List.range (d + 1)).map fun (i : Nat) => (d : Int) - 2 * (i : Int)

/-- One round of the search from the front: either the meeting place, or the new frontier. -/
def forward (old new : Lines) (w : Window) (d : Nat) (backward : Frontier) :
    List Int → Frontier → Option (Nat × Nat) × Frontier
  | [], f => (none, f)
  | k :: ks, f =>
    let n := w.oldEnd - w.oldStart
    let m := w.newEnd - w.newStart
    let delta : Int := (n : Int) - m
    let x := f.enter d k
    let y := ((x : Int) - k).toNat
    let reached := x + (if x < n ∧ y < m then
      agreeing old new (min (n - x) (m - y)) (w.oldStart + x) (w.newStart + y) else 0)
    let f := f.set k reached
    if delta % 2 ≠ 0 ∧ ((k - delta).natAbs : Int) ≤ (d : Int) - 1 ∧
        n ≤ reached + backward.get (delta - k) then
      (some (x + w.oldStart, y + w.newStart), f)
    else forward old new w d backward ks f

/-- One round of the search from the back. -/
def backward (old new : Lines) (w : Window) (d : Nat) (forward : Frontier) :
    List Int → Frontier → Option (Nat × Nat) × Frontier
  | [], f => (none, f)
  | k :: ks, f =>
    let n := w.oldEnd - w.oldStart
    let m := w.newEnd - w.newStart
    let delta : Int := (n : Int) - m
    let x := f.enter d k
    let y := ((x : Int) - k).toNat
    let step := if x < n ∧ y < m then
      agreeingBack old new (min (n - x) (m - y)) (w.oldEnd - x) (w.newEnd - y) else 0
    let f := f.set k (x + step)
    if delta % 2 = 0 ∧ (k - delta).natAbs ≤ d ∧
        n ≤ x + step + forward.get (delta - k) then
      (some (n - (x + step) + w.oldStart, m - (y + step) + w.newStart), f)
    else backward old new w d forward ks f

/-- Rounds of both searches until they meet, at most `fuel` of them. -/
def meetFrom (old new : Lines) (w : Window) :
    Nat → Nat → Frontier → Frontier → Option (Nat × Nat)
  | 0, _, _, _ => none
  | fuel + 1, d, f, b =>
    match forward old new w d b (diagonals d) f with
    | (some place, _) => some place
    | (none, f) =>
      match backward old new w d f (diagonals d) b with
      | (some place, _) => some place
      | (none, b) => meetFrom old new w fuel (d + 1) f b

/-- The place where a window is cut in two. -/
def meet (old new : Lines) (w : Window) : Option (Nat × Nat) :=
  let bound := (w.oldEnd - w.oldStart + (w.newEnd - w.newStart) + 1) / 2 + 1
  meetFrom old new w bound 0 (.start (bound + 1)) (.start (bound + 1))

/-! ### Scripts -/

/-- The edits of a window; windows are cut in two at most `fuel` times in a row. -/
def editsWithin (old new : Lines) : Nat → Window → List Edit
  | 0, _ => []
  | fuel + 1, w =>
    let front := w.front old new
    let head := if front = 0 then [] else [Edit.keep w.oldStart w.newStart front]
    let w := { w with oldStart := w.oldStart + front, newStart := w.newStart + front }
    let back := w.back old new
    let w := { w with oldEnd := w.oldEnd - back, newEnd := w.newEnd - back }
    let tail := if back = 0 then [] else [Edit.keep w.oldEnd w.newEnd back]
    let n := w.oldEnd - w.oldStart
    let m := w.newEnd - w.newStart
    let middle :=
      if n = 0 ∧ m = 0 then []
      else if m = 0 then [Edit.delete w.oldStart n w.newStart]
      else if n = 0 then [Edit.insert w.oldStart w.newStart m]
      else match meet old new w with
        | some (x, y) =>
          editsWithin old new fuel { w with oldEnd := x, newEnd := y } ++
            editsWithin old new fuel { w with oldStart := x, newStart := y }
        | none => [Edit.delete w.oldStart n w.newStart, Edit.insert w.oldStart w.newStart m]
    head ++ middle ++ tail

/-- A shortest edit script. -/
def Edit.script (old new : Lines) : List Edit :=
  editsWithin old new (old.size + new.size + 1) ⟨0, old.size, 0, new.size⟩

end OrgAlign.Diff
