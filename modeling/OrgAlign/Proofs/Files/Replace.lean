import Mathlib.Data.List.Basic
import Mathlib.Tactic.Common
import OrgAlign.Files.Disk

/-!
# Replacing a file

A path leads where folders let it, so what happens to files never changes where a path leads. Main
statements:

* `at?_set`, `at?_erase`: what is where after a change at one place;
* `locate?_congr`: paths lead to the same places on disks with the same folders;
* `makeParent_again`: once way was made to a path, none has to be made again;
* `replace_eq_true`, `replace_spec`: what replacing a file does: it has its new text then, and it
  can be replaced again;
* `replace_succeeds_iff`: it takes place exactly where there is room for the file.
-/

namespace OrgAlign.Files.Disk

variable {d d' : Disk}

/-! ### One place -/

/-- What is where after a node was put at a place. -/
theorem at?_set {p : Place} (hp : p ≠ []) (n : Node) (q : Place) :
    (d.set p n).at? q = if q = p then some n else d.at? q := by
  unfold at?
  by_cases hq : q = []
  · subst hq
    rw [if_pos rfl, if_pos rfl, if_neg (Ne.symm hp)]
  rw [if_neg hq, if_neg hq]
  unfold set
  split
  · rename_i hthere
    have hfind : ∀ es : List (Place × Node),
        (es.map fun e => if e.1 == p then (p, n) else e).find? (·.1 == q) =
          if q = p then (if es.any (·.1 == p) then some (p, n) else none)
          else es.find? (·.1 == q) := by
      intro es
      induction es with
      | nil => simp
      | cons e es ih =>
        rw [List.map_cons, List.find?_cons, ih, List.any_cons, List.find?_cons]
        by_cases he : e.1 = p
        · by_cases hqp : q = p
          · simp [he, hqp]
          · simp [he, hqp, beq_false_of_ne (Ne.symm hqp)]
        · by_cases hqp : q = p
          · subst hqp
            have hne : (e.1 == q) = false := beq_false_of_ne he
            simp only [hne, Bool.false_eq_true, if_false, if_true, Bool.false_or]
          · simp [he, hqp]
    rw [hfind, hthere]
    split <;> rfl
  · rename_i hnone
    simp only [Bool.not_eq_true, List.any_eq_false, beq_iff_eq] at hnone
    rw [List.find?_append]
    split
    · rename_i heq
      subst heq
      have habsent : d.nodes.find? (·.1 == q) = none :=
        List.find?_eq_none.2 fun e he => by simpa using hnone e he
      simp [habsent]
    · rename_i hne
      simp [Ne.symm hne]

/-- What is where after the node at a place was taken away. -/
theorem at?_erase {p : Place} (hp : p ≠ []) (q : Place) :
    (d.erase p).at? q = if q = p then none else d.at? q := by
  unfold at? erase
  by_cases hq : q = []
  · subst hq
    rw [if_pos rfl, if_pos rfl, if_neg (Ne.symm hp)]
  rw [if_neg hq, if_neg hq, List.find?_filter]
  split
  · rename_i heq
    subst heq
    rw [List.find?_eq_none.2]
    · rfl
    · simp
  · rename_i hne
    congr 1
    refine congrArg (fun f => d.nodes.find? f) (funext fun e => ?_)
    by_cases he : e.1 = q
    · simp [he, hne]
    · simp [he]

/-- The top is a folder. -/
theorem ne_nil_of_not_isFolder {p : Place} (h : d.isFolder p = false) : p ≠ [] := by
  rintro rfl
  simp [isFolder, at?] at h

/-- Something is at the top. -/
theorem ne_nil_of_at?_eq_none {p : Place} (h : d.at? p = none) : p ≠ [] := by
  rintro rfl
  simp [at?] at h

/-- A file is no folder. -/
theorem not_isFolder_of_file {p : Place} {text : String} (h : d.at? p = some (.file text)) :
    d.isFolder p = false := by
  simp [isFolder, h]

/-- Putting a node somewhere leaves the current folder. -/
theorem current_set (d : Disk) (p : Place) (n : Node) : (d.set p n).current = d.current := by
  unfold set
  split <;> rfl

/-! ### The same folders -/

/-- Two disks have the same folders and the same current one. -/
structure SameFolders (d d' : Disk) : Prop where
  /-- The same places are folders. -/
  isFolder : d'.isFolder = d.isFolder
  /-- Relative paths start at the same place. -/
  current : d'.current = d.current

theorem SameFolders.trans {d'' : Disk} (h : SameFolders d d') (h' : SameFolders d' d'') :
    SameFolders d d'' := ⟨h'.isFolder.trans h.isFolder, h'.current.trans h.current⟩

/-- Writing a file where no folder is leaves the folders as they are. -/
theorem sameFolders_set {p : Place} (h : d.isFolder p = false) (text : String) :
    SameFolders d (d.set p (.file text)) := by
  refine ⟨funext fun q => ?_, current_set d p _⟩
  unfold isFolder
  rw [at?_set (ne_nil_of_not_isFolder h)]
  split
  · rename_i heq
    subst heq
    unfold isFolder at h
    rw [h]
    rfl
  · rfl

/-- Taking away what is no folder leaves the folders as they are. -/
theorem sameFolders_erase {p : Place} (h : d.isFolder p = false) : SameFolders d (d.erase p) := by
  refine ⟨funext fun q => ?_, rfl⟩
  unfold isFolder
  rw [at?_erase (ne_nil_of_not_isFolder h)]
  split
  · rename_i heq
    subst heq
    unfold isFolder at h
    rw [h]
    decide
  · rfl

/-- Steps lead to the same places. -/
theorem walk?_congr (h : SameFolders d d') (p : Place) (steps : List String) :
    d'.walk? p steps = d.walk? p steps := by
  induction steps generalizing p with
  | nil => rfl
  | cons step steps ih =>
    unfold walk?
    rw [h.isFolder, ih]

/-- Paths lead to the same places. -/
theorem locate?_congr (h : SameFolders d d') (path : String) :
    d'.locate? path = d.locate? path := by
  unfold locate? origin
  rw [h.current, walk?_congr h, h.isFolder]

/-! ### Where paths lead -/

/-- A path that leads somewhere is not empty, and its steps lead there. -/
theorem walk?_of_locate? {path : String} {p : Place} (h : d.locate? path = some p) :
    path ≠ "" ∧ d.walk? (d.origin path) (stepsOf path) = some p := by
  unfold locate? at h
  split at h
  · cases h
  · rename_i hempty
    obtain ⟨q, hwalk, hq⟩ := Option.bind_eq_some_iff.1 h
    split at hq
    · cases hq
    · cases hq
      exact ⟨by simpa using hempty, hwalk⟩

/-! ### Making way -/

/-- Making way, also where it fails, keeps what making a folder where nothing is keeps. -/
theorem makeWay_keeps {P : Disk → Prop}
    (hset : ∀ d p, d.at? p = none → P d → P (d.set p .folder)) {p : Place} {steps : List String}
    {made : Bool} (h : d.makeWay p steps = (made, d')) (hd : P d) : P d' := by
  induction steps generalizing d p with
  | nil =>
    unfold makeWay at h
    exact (Prod.mk.inj h).2 ▸ hd
  | cons step steps ih =>
    simp only [makeWay] at h
    split at h
    · split at h
      · exact ih h hd
      · rename_i hnone
        exact ih h (hset _ _ hnone hd)
    · exact (Prod.mk.inj h).2 ▸ hd

/-- Folders that were made on a way, up to a file or to the end, leave the others, and the current
one. -/
theorem makeWay_grows {p : Place} {steps : List String} {made : Bool}
    (h : d.makeWay p steps = (made, d')) :
    (∀ q, d.isFolder q = true → d'.isFolder q = true) ∧ d'.current = d.current := by
  refine makeWay_keeps (P := fun x => (∀ q, d.isFolder q = true → x.isFolder q = true) ∧
    x.current = d.current) ?_ h ⟨fun _ hq => hq, rfl⟩
  rintro x p hnone ⟨hgrows, hcurrent⟩
  refine ⟨fun q hq => ?_, (current_set x p _).trans hcurrent⟩
  unfold isFolder
  rw [at?_set (ne_nil_of_at?_eq_none hnone)]
  split
  · rfl
  · exact hgrows q hq

/-- Where way was made, the steps lead to a folder. -/
theorem walk?_of_makeWay {p : Place} {steps : List String} (h : d.makeWay p steps = (true, d')) :
    ∃ q, d'.walk? p steps = some q ∧ d'.isFolder q = true := by
  induction steps generalizing d p with
  | nil =>
    unfold makeWay at h
    rw [Prod.mk.injEq] at h
    obtain ⟨hfolder, rfl⟩ := h
    exact ⟨p, rfl, hfolder⟩
  | cons step steps ih =>
    obtain ⟨hgrows, -⟩ := makeWay_grows h
    simp only [makeWay] at h
    split at h
    · rename_i hstep
      simp only [Bool.and_eq_true] at hstep
      obtain ⟨q, hwalk, hq⟩ : ∃ q, d'.walk? (stepFrom p step) steps = some q ∧
          d'.isFolder q = true := by
        split at h
        · exact ih h
        · exact ih h
      refine ⟨q, ?_, hq⟩
      unfold walk?
      simp [hgrows p hstep.1, hstep.2, hwalk]
    · cases h

/-- Where steps lead to a folder, way has to be made from there on only. -/
theorem makeWay_append {p q : Place} {steps : List String} (hwalk : d.walk? p steps = some q)
    (hq : d.isFolder q = true) (more : List String) :
    d.makeWay p (steps ++ more) = d.makeWay q more := by
  induction steps generalizing p with
  | nil =>
    cases hwalk
    rfl
  | cons step steps ih =>
    unfold walk? at hwalk
    split at hwalk
    · rename_i hstep
      -- what the next step leads to is a folder
      have hnext : d.isFolder (stepFrom p step) = true := by
        cases steps with
        | nil =>
          cases hwalk
          exact hq
        | cons step' steps' =>
          unfold walk? at hwalk
          split at hwalk
          · rename_i hstep'
            exact (Bool.and_eq_true_iff.1 hstep').1
          · cases hwalk
      have hthere : d.at? (stepFrom p step) = some .folder := of_decide_eq_true hnext
      rw [List.cons_append, makeWay]
      simp only [hstep, if_true, hthere]
      exact ih hwalk
    · cases hwalk

/-- Where steps lead to a folder, no way has to be made. -/
theorem makeWay_of_walk? {p q : Place} {steps : List String} (hwalk : d.walk? p steps = some q)
    (hq : d.isFolder q = true) : d.makeWay p steps = (true, d) := by
  have happend := makeWay_append hwalk hq []
  rwa [List.append_nil, makeWay, hq] at happend

/-- Once way was made to what a path leads to, none has to be made again. -/
theorem makeParent_again {d'' : Disk} {path : String} (h : d.makeParent path = (true, d'))
    (hsame : SameFolders d' d'') : d''.makeParent path = (true, d'') := by
  unfold makeParent at h ⊢
  split at h
  · rfl
  · obtain ⟨q, hwalk, hq⟩ := walk?_of_makeWay h
    have horigin : d''.origin path = d.origin path := by
      unfold origin
      rw [hsame.current, (makeWay_grows h).2]
    rw [horigin]
    exact makeWay_of_walk? ((walk?_congr hsame _ _).trans hwalk) (by rw [hsame.isFolder, hq])

/-! ### Replacing -/

/-- What was written where. -/
theorem write?_eq_some {path text : String} (h : d.write? path text = some d') :
    endsInFolder path = false ∧ ∃ p, d.locate? path = some p ∧ d.isFolder p = false ∧
      d' = d.set p (.file text) := by
  unfold write? at h
  split at h
  · cases h
  · rename_i hends
    obtain ⟨p, hp, hset⟩ := Option.bind_eq_some_iff.1 h
    split at hset
    · cases hset
    · rename_i hfolder
      cases hset
      exact ⟨by simpa using hends, p, hp, by simpa using hfolder, rfl⟩

/-- A file can be written where a path leads to, unless a folder is there. -/
theorem write?_of_locate? {path : String} (hends : endsInFolder path = false) {p : Place}
    (hp : d.locate? path = some p) (hfolder : d.isFolder p = false) (text : String) :
    d.write? path text = some (d.set p (.file text)) := by
  simp [write?, hends, hp, hfolder]

/-- What was moved where. -/
theorem rename?_eq_some {source target : String} (h : d.rename? source target = some d') :
    ∃ p q text, d.locate? source = some p ∧ d.read? source = some text ∧
      d.locate? target = some q ∧ d.isFolder q = false ∧ d' = (d.erase p).set q (.file text) := by
  unfold rename? at h
  simp only [Option.bind_eq_bind, Option.bind_eq_some_iff] at h
  obtain ⟨p, hp, text, htext, q, hq, hset⟩ := h
  split at hset
  · cases hset
  · rename_i hfolder
    cases hset
    exact ⟨p, q, text, hp, htext, hq, by simpa using hfolder, rfl⟩

/-- A file can be moved to where a path leads to, unless a folder is there. -/
theorem rename?_of_locate? {source target : String} {p q : Place} {text : String}
    (hp : d.locate? source = some p) (htext : d.read? source = some text)
    (hq : d.locate? target = some q) (hfolder : d.isFolder q = false) :
    d.rename? source target = some ((d.erase p).set q (.file text)) := by
  simp [rename?, hp, htext, hq, hfolder]

/-- What is read is in a file at the place that the path leads to. -/
theorem read?_eq_some {path text : String} (h : d.read? path = some text) :
    ∃ p, d.locate? path = some p ∧ d.at? p = some (.file text) := by
  unfold read? node? at h
  split at h
  · rename_i hnode
    cases h
    exact Option.bind_eq_some_iff.1 hnode
  · cases h

/-- Something is at the end of a path iff something is at the place that it leads to. -/
theorem isThere_iff {path : String} :
    d.isThere path = true ↔ ∃ p, d.locate? path = some p ∧ (d.at? p).isSome = true := by
  unfold isThere node?
  rcases d.locate? path with _ | p <;> simp

/-- What was removed, and where. -/
theorem remove?_eq_some {path : String} (h : d.remove? path = some d') :
    ∃ p, d.locate? path = some p ∧ d.isFolder p = false ∧ d' = d.erase p := by
  unfold remove? at h
  simp only [Option.bind_eq_bind, Option.bind_eq_some_iff] at h
  obtain ⟨p, hp, text, htext, heq⟩ := h
  cases heq
  obtain ⟨q, hq, hfile⟩ := read?_eq_some htext
  obtain rfl : p = q := Option.some.inj (hp.symm.trans hq)
  exact ⟨p, hp, not_isFolder_of_file hfile, rfl⟩

/-- What was written is read. -/
theorem read?_set {path : String} {p : Place} (hfolder : d.isFolder p = false) (text : String)
    (hp : (d.set p (.file text)).locate? path = some p) :
    (d.set p (.file text)).read? path = some text := by
  unfold read? node?
  rw [hp, Option.bind_some, at?_set (ne_nil_of_not_isFolder hfolder), if_pos rfl]

/-- Where a file is read, something is. -/
theorem isThere_of_read? {path text : String} (h : d.read? path = some text) :
    d.isThere path = true := by
  unfold read? at h
  unfold isThere
  split at h
  · rename_i hnode
    rw [hnode]
    rfl
  · cases h

/-- There is room for a file: way can be made to it, and then there is a folder neither at its place
nor at that of the temporary file. -/
def HasRoom (d : Disk) (path : String) : Prop :=
  ∃ way p q, d.makeParent path = (true, way) ∧ endsInFolder (temporary path) = false ∧
    way.locate? (temporary path) = some p ∧ way.isFolder p = false ∧
    way.locate? path = some q ∧ way.isFolder q = false

/-- A file can be replaced where there is room for it, whatever its new text is. -/
theorem HasRoom.replace {path : String} (h : d.HasRoom path) (text : String) :
    (d.replace path text).1 = true := by
  obtain ⟨way, p, q, hway, hends, hp, hpfolder, hq, hqfolder⟩ := h
  have hset := sameFolders_set hpfolder text
  have hp' := (locate?_congr hset (temporary path)).trans hp
  have hq' := (locate?_congr hset path).trans hq
  have hqset : (way.set p (.file text)).isFolder q = false := by rw [hset.isFolder, hqfolder]
  have hmoved := rename?_of_locate? hp' (read?_set hpfolder text hp') hq' hqset
  simp only [Disk.replace, hway, write?_of_locate? hends hp hpfolder text, hmoved]

/-- A file was replaced: way was made to it, the text was written beside it and moved over it. -/
theorem replace_eq_true {path text : String} (h : d.replace path text = (true, d')) :
    ∃ way p q, d.makeParent path = (true, way) ∧ endsInFolder (temporary path) = false ∧
      way.locate? (temporary path) = some p ∧ way.isFolder p = false ∧
      way.locate? path = some q ∧ way.isFolder q = false ∧
      d' = ((way.set p (.file text)).erase p).set q (.file text) := by
  unfold replace at h
  split at h
  · cases h
  rename_i way hway
  split at h
  · cases h
  rename_i written hwritten
  split at h
  swap
  · cases h
  rename_i renamed hrenamed
  cases h
  obtain ⟨hends, p, hp, hpfolder, rfl⟩ := write?_eq_some hwritten
  obtain ⟨p', q, text', hp', htext', hq, hqfolder, rfl⟩ := rename?_eq_some hrenamed
  -- writing a file leaves the folders, so both paths lead to the same places as before
  have hset := sameFolders_set hpfolder text
  obtain rfl : p = p' := Option.some.inj (hp.symm.trans ((locate?_congr hset _).symm.trans hp'))
  obtain rfl : text = text' := by
    rw [read?_set hpfolder text hp'] at htext'
    exact Option.some.inj htext'
  refine ⟨way, p, q, hway, hends, hp, hpfolder, (locate?_congr hset path).symm.trans hq, ?_, rfl⟩
  rw [← hset.isFolder]
  exact hqfolder

/-- Moving a written file over another one leaves the folders as they are. -/
theorem sameFolders_replaced {p q : Place} (hp : d.isFolder p = false) (hq : d.isFolder q = false)
    (text : String) :
    SameFolders d (((d.set p (.file text)).erase p).set q (.file text)) := by
  have hset := sameFolders_set hp text
  have hpset : (d.set p (.file text)).isFolder p = false := by rw [hset.isFolder, hp]
  have herase := hset.trans (sameFolders_erase hpset)
  have hqerase : ((d.set p (.file text)).erase p).isFolder q = false := by
    rw [herase.isFolder, hq]
  exact herase.trans (sameFolders_set hqerase text)

/-- **A replaced file has its new text, and it can be replaced again.** -/
theorem replace_spec {path text : String} (h : d.replace path text = (true, d')) :
    d'.read? path = some text ∧ ∀ text', (d'.replace path text').1 = true := by
  obtain ⟨way, p, q, hway, hends, hp, hpfolder, hq, hqfolder, hd'⟩ := replace_eq_true h
  have hsame : SameFolders way d' := hd' ▸ sameFolders_replaced hpfolder hqfolder text
  have hq' : d'.locate? path = some q := (locate?_congr hsame path).trans hq
  have hqset : ((way.set p (.file text)).erase p).isFolder q = false := by
    have hset := sameFolders_set hpfolder text
    rw [(sameFolders_erase (by rw [hset.isFolder, hpfolder])).isFolder, hset.isFolder, hqfolder]
  refine ⟨?_, fun text' => ?_⟩
  · rw [hd'] at hq' ⊢
    exact read?_set hqset text hq'
  · refine HasRoom.replace ⟨d', p, q, makeParent_again hway hsame, hends, ?_, ?_, hq', ?_⟩ text'
    · exact (locate?_congr hsame _).trans hp
    · rw [hsame.isFolder, hpfolder]
    · rw [hsame.isFolder, hqfolder]

/-- A file is replaced exactly where there is room for it. -/
theorem replace_succeeds_iff {path text : String} :
    (d.replace path text).1 = true ↔ d.HasRoom path := by
  refine ⟨fun h => ?_, fun h => h.replace text⟩
  obtain ⟨way, p, q, hway, hends, hp, hpfolder, hq, hqfolder, -⟩ := replace_eq_true (Prod.ext h rfl)
  exact ⟨way, p, q, hway, hends, hp, hpfolder, hq, hqfolder⟩

end OrgAlign.Files.Disk
