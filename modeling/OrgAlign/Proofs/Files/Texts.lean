import Mathlib.Logic.Function.Basic
import OrgAlign.Proofs.Files.Outside

/-!
# The texts of a disk

What the files of a disk say, place by place, is a function (`Disk.textAt?`). Folders leave no trace
in it, and whatever is done with files is an update at the places that their paths lead to. Main
statements:

* `textAt?_replaced`: a replaced file has its new text, and where its temporary file was written
  nothing is left;
* `textAt?_not_replaced`: a file that could not be replaced is as it was, and so is every other one,
  but for the temporary file.
-/

namespace OrgAlign.Files

open Function (update)

/-- The text of a node, if it is a file. -/
def Node.text? : Node → Option String
  | .folder => none
  | .file text => some text

namespace Disk

variable {d d' : Disk} {p : Place} {path text : String}

/-! ### One place -/

/-- The text of the file at a place. -/
def textAt? (d : Disk) (p : Place) : Option String := (d.at? p).bind Node.text?

theorem textAt?_eq_some_iff : d.textAt? p = some text ↔ d.at? p = some (.file text) := by
  unfold textAt?
  rcases d.at? p with _ | _ | text'
  · simp
  · simp [Node.text?]
  · simp [Node.text?]

/-- A folder has no text. -/
theorem textAt?_of_isFolder (h : d.isFolder p = true) : d.textAt? p = none := by
  have hfolder : d.at? p = some .folder := of_decide_eq_true h
  unfold textAt?
  rw [hfolder]
  rfl

theorem textAt?_set (hp : p ≠ []) (n : Node) :
    (d.set p n).textAt? = update d.textAt? p n.text? := by
  funext q
  rw [Function.update_apply]
  unfold textAt?
  rw [at?_set hp]
  split <;> rfl

theorem textAt?_erase (hp : p ≠ []) : (d.erase p).textAt? = update d.textAt? p none := by
  funext q
  rw [Function.update_apply]
  unfold textAt?
  rw [at?_erase hp]
  split <;> rfl

/-- A new folder adds no text. -/
theorem textAt?_set_folder (h : d.at? p = none) : (d.set p .folder).textAt? = d.textAt? := by
  rw [textAt?_set (ne_nil_of_at?_eq_none h), Function.update_eq_self_iff]
  unfold textAt?
  rw [h]
  rfl

/-- What is read is the text at the place that the path leads to. -/
theorem read?_eq (d : Disk) (path : String) : d.read? path = (d.locate? path).bind d.textAt? := by
  unfold read? node? textAt?
  rcases d.locate? path with _ | p
  · rfl
  · rw [Option.bind_some, Option.bind_some]
    rcases d.at? p with _ | _ | text <;> rfl

/-! ### Making way -/

theorem textAt?_makeWay {steps : List String} {made : Bool} (h : d.makeWay p steps = (made, d')) :
    d'.textAt? = d.textAt? := by
  refine makeWay_keeps (P := fun x => x.textAt? = d.textAt?) ?_ h rfl
  intro x p hnone hx
  exact (textAt?_set_folder hnone).trans hx

theorem textAt?_makeParent {made : Bool} (h : d.makeParent path = (made, d')) :
    d'.textAt? = d.textAt? := by
  unfold makeParent at h
  split at h
  · rw [← (Prod.mk.inj h).2]
  · exact textAt?_makeWay h

/-! ### Replacing a file -/

/-- **A replaced file has its new text**, at the place that its path leads to, and nothing is left
of the temporary file. -/
theorem textAt?_replaced (h : d.replace path text = (true, d')) :
    d'.textAt? =
      update (update d.textAt? (d.leads (temporary path)) none) (d.leads path) (some text) := by
  obtain ⟨way, p, q, hway, -, hp, hpfolder, hq, hqfolder, rfl⟩ := replace_eq_true h
  obtain ⟨hextends, -⟩ := makeParent_extends hway
  have hp' : p = d.leads (temporary path) := (locate?_eq_leads hp).trans (hextends.leads _)
  have hq' : q = d.leads path := (locate?_eq_leads hq).trans (hextends.leads _)
  have hpne : p ≠ [] := ne_nil_of_not_isFolder hpfolder
  rw [textAt?_set (ne_nil_of_not_isFolder hqfolder), textAt?_erase hpne, textAt?_set hpne,
    Function.update_idem, textAt?_makeParent hway, hp', hq']
  rfl

/-- The path of a replaced file leads to its place, and to no folder. -/
theorem locate?_replaced (h : d.replace path text = (true, d')) :
    d'.locate? path = some (d.leads path) ∧ d'.isFolder (d.leads path) = false := by
  obtain ⟨way, p, q, hway, -, -, hpfolder, hq, hqfolder, rfl⟩ := replace_eq_true h
  obtain ⟨hextends, -⟩ := makeParent_extends hway
  have hq' : q = d.leads path := (locate?_eq_leads hq).trans (hextends.leads _)
  have hsame := sameFolders_replaced hpfolder hqfolder text
  rw [← hq', locate?_congr hsame, hsame.isFolder]
  exact ⟨hq, hqfolder⟩

/-- What is done where a file cannot be replaced: way was made at most, or the temporary file was
written and is taken away again. -/
theorem replace_eq_false (h : d.replace path text = (false, d')) :
    ∃ made way, d.makeParent path = (made, way) ∧ (d' = way ∨ ∃ p, made = true ∧
      way.locate? (temporary path) = some p ∧ way.isFolder p = false ∧
      d' = (way.set p (.file text)).erase p) := by
  unfold replace at h
  split at h
  · rename_i way hway
    exact ⟨false, way, hway, .inl (Prod.mk.inj h).2.symm⟩
  · rename_i way hway
    refine ⟨true, way, hway, ?_⟩
    split at h
    · exact .inl (Prod.mk.inj h).2.symm
    · rename_i written hwritten
      split at h
      · cases h
      · obtain ⟨-, p, hp, hpfolder, rfl⟩ := write?_eq_some hwritten
        have hp' := (locate?_congr (sameFolders_set hpfolder text) (temporary path)).trans hp
        have hremove : (way.set p (.file text)).remove? (temporary path) =
            some ((way.set p (.file text)).erase p) := by
          simp [remove?, hp', read?_set hpfolder text hp']
        rw [hremove] at h
        exact .inr ⟨p, rfl, hp, hpfolder, (Prod.mk.inj h).2.symm⟩

/-- **A file that could not be replaced is as it was**, and so is every other one; only what was
where the temporary file is written may be gone. -/
theorem textAt?_not_replaced (h : d.replace path text = (false, d')) :
    d'.textAt? = d.textAt? ∨
      d'.textAt? = update d.textAt? (d.leads (temporary path)) none := by
  obtain ⟨made, way, hway, rfl | ⟨p, -, hp, hpfolder, rfl⟩⟩ := replace_eq_false h
  · exact .inl (textAt?_makeParent hway)
  · have hp' : p = d.leads (temporary path) :=
      (locate?_eq_leads hp).trans ((makeParent_extends hway).1.leads _)
    have hpne : p ≠ [] := ne_nil_of_not_isFolder hpfolder
    refine .inr ?_
    rw [textAt?_erase hpne, textAt?_set hpne, Function.update_idem, textAt?_makeParent hway, hp']

/-- Where a file could not be replaced, folders may have been made. -/
theorem not_replaced_extends (h : d.replace path text = (false, d')) : Extends d d' := by
  obtain ⟨made, way, hway, rfl | ⟨p, -, -, hpfolder, rfl⟩⟩ := replace_eq_false h
  · exact (makeParent_extends hway).1
  · have hset := sameFolders_set hpfolder text
    have herase := sameFolders_erase (d := way.set p (.file text)) (by rw [hset.isFolder, hpfolder])
    exact (makeParent_extends hway).1.trans (hset.trans herase).extends

end Disk
end OrgAlign.Files
