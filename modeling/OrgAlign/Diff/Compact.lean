import OrgAlign.Diff.Edit

/-!
# Compacting edit scripts

A script can often be said with fewer edits: an insertion slides over kept lines that equal its
own, and edits of one kind that meet become one. All deletions are slid up and down first, then
all insertions. In the end a deletion next to an insertion becomes a replacement, and kept runs
that meet become one.
-/

namespace OrgAlign.Diff

namespace Edit

/-- Moves an edit up by `n` lines. -/
def shiftUp (e : Edit) (n : Nat) : Edit :=
  { e with oldStart := e.oldStart - n, newStart := e.newStart - n }

/-- Moves an edit down by `n` lines. -/
def shiftDown (e : Edit) (n : Nat) : Edit :=
  { e with oldStart := e.oldStart + n, newStart := e.newStart + n }

/-- Adds `n` lines at the end of the runs that the edit's kind has. -/
def extend (e : Edit) (n : Nat) : Edit :=
  match e.kind with
  | .insert => { e with newSize := e.newSize + n }
  | .delete => { e with oldSize := e.oldSize + n }
  | _ => { e with oldSize := e.oldSize + n, newSize := e.newSize + n }

/-- Takes the last `n` lines off kept lines. -/
def dropBack (e : Edit) (n : Nat) : Edit :=
  { e with oldSize := e.oldSize - n, newSize := e.newSize - n }

/-- Takes the first `n` lines off kept lines. -/
def dropFront (e : Edit) (n : Nat) : Edit := (e.dropBack n).shiftDown n

end Edit

/-- An edit in its script: the edits before it, nearest first, and those after it. -/
structure Focus where
  /-- Nearest first. -/
  before : List Edit
  /-- The edit looked at. -/
  this : Edit
  /-- In order. -/
  after : List Edit

namespace Focus

/-- Slides an edit up as far as it goes. -/
def up (old new : Lines) : Nat → Focus → Focus
  | 0, f => f
  | fuel + 1, f =>
    match f.before with
    | [] => f
    | previous :: before =>
      if f.this.kind = previous.kind then
        let size := if f.this.kind = .insert then f.this.newSize else f.this.oldSize
        up old new fuel ⟨before, previous.extend size, f.after⟩
      else if previous.kind = .keep then
        let w : Window := ⟨previous.oldStart, previous.oldEnd, f.this.newStart, f.this.newEnd⟩
        let n := w.back old new
        if 0 < n then
          let after := match f.after with
            | next :: rest =>
              if next.kind = .keep then (next.shiftUp n).extend n :: rest
              else Edit.keep (previous.oldEnd - n) (f.this.newEnd - n) n :: f.after
            | [] => [Edit.keep (previous.oldEnd - n) (f.this.newEnd - n) n]
          let rest := previous.dropBack n
          up old new fuel ⟨if rest.isEmpty then before else rest :: before, f.this.shiftUp n, after⟩
        else if previous.isEmpty then up old new fuel { f with before }
        else f
      else up old new fuel ⟨before, f.this, previous :: f.after⟩

/-- Slides an edit down as far as it goes. -/
def down (old new : Lines) : Nat → Focus → Focus
  | 0, f => f
  | fuel + 1, f =>
    match f.after with
    | [] => f
    | next :: after =>
      if f.this.kind = next.kind then
        let size := if f.this.kind = .insert then next.newSize else next.oldSize
        down old new fuel ⟨f.before, f.this.extend size, after⟩
      else if next.kind = .keep then
        let w : Window := ⟨next.oldStart, next.oldEnd, f.this.newStart, f.this.newEnd⟩
        let n := w.front old new
        if 0 < n then
          let before := match f.before with
            | previous :: rest =>
              if previous.kind = .keep then previous.extend n :: rest
              else Edit.keep next.oldStart f.this.newStart n :: f.before
            | [] => [Edit.keep next.oldStart f.this.newStart n]
          let rest := next.dropFront n
          down old new fuel
            ⟨before, f.this.shiftDown n, if rest.isEmpty then after else rest :: after⟩
        else if next.isEmpty then down old new fuel { f with after }
        else f
      else down old new fuel ⟨next :: f.before, f.this, after⟩

end Focus

/-- Slides all edits of one kind. The edits already passed are kept last first; `reach` bounds how
far one edit slides. -/
def slide (old new : Lines) (kind : Kind) (reach : Nat) : Nat → List Edit → List Edit → List Edit
  | 0, passed, edits => passed.reverse ++ edits
  | _, passed, [] => passed.reverse
  | fuel + 1, passed, e :: edits =>
    if e.kind = kind then
      let f := (Focus.up old new reach ⟨passed, e, edits⟩).down old new reach
      slide old new kind reach fuel (f.this :: f.before) f.after
    else slide old new kind reach fuel (e :: passed) edits

/-- Slides all edits of one kind, with bounds that follow from the number of lines and edits. -/
def slideAll (old new : Lines) (kind : Kind) (edits : List Edit) : List Edit :=
  let reach := 2 * (old.size + new.size + edits.length + 1)
  slide old new kind reach (reach * reach) [] edits

/-! ### Joining edits -/

/-- Edits that wait to be joined with what follows. -/
structure Joiner where
  /-- Finished edits, last first. -/
  finished : List Edit
  /-- A run of kept lines. -/
  kept : Option Edit
  /-- A deletion. -/
  deleted : Option Edit
  /-- An insertion. -/
  inserted : Option Edit

namespace Joiner

/-- Nothing waits. -/
def start : Joiner := ⟨[], none, none, none⟩

/-- Finishes the kept lines. -/
def flushKept (j : Joiner) : Joiner :=
  match j.kept with
  | some e => { j with finished := e :: j.finished, kept := none }
  | none => j

/-- Finishes a deletion and an insertion, as one replacement if there are both. -/
def flushChange (j : Joiner) : Joiner :=
  let edits := match j.deleted, j.inserted with
    | some d, some i => [⟨.replace, d.oldStart, d.oldSize, i.newStart, i.newSize⟩]
    | some d, none => [d]
    | none, some i => [i]
    | none, none => []
  { j with finished := edits ++ j.finished, deleted := none, inserted := none }

/-- Joins an edit to one of its kind that waits. -/
def join (waiting : Option Edit) (e : Edit) (size : Nat) : Option Edit :=
  match waiting with
  | some w => some (w.extend size)
  | none => some e

/-- Takes an edit. -/
def push (j : Joiner) (e : Edit) : Joiner :=
  match e.kind with
  | .keep => let j := j.flushChange; { j with kept := join j.kept e e.oldSize }
  | .delete => let j := j.flushKept; { j with deleted := join j.deleted e e.oldSize }
  | .insert => let j := j.flushKept; { j with inserted := join j.inserted e e.newSize }
  | .replace => let j := j.flushKept.flushChange; { j with finished := e :: j.finished }

/-- All edits, in order. -/
def result (j : Joiner) : List Edit := j.flushKept.flushChange.finished.reverse

end Joiner

/-- A script said with as few edits as sliding and joining allow. -/
def compact (old new : Lines) (edits : List Edit) : List Edit :=
  let slid := slideAll old new .insert (slideAll old new .delete edits)
  (slid.foldl Joiner.push .start).result

end OrgAlign.Diff
