import OrgAlign.Proofs.Config.KeyedMaps
import OrgAlign.Proofs.State.Published

/-!
# Configuration documents survive being rewritten

What is read from a document is written back as a value tree, with fields that say nothing left
out, and the tree is read again. Everything a record reader gives is *in form*: the fields it keeps
without a type of their own are none of those it knows, and their keys do not clash. What is in form
reads back from its tree. Main statements:

* `Fields.fields?_written`: the fields of a tree that a record is written to;
* `RootFile.inForm_of_read?`, `RootFile.read?_toValue`: reading gives what is in form, and what is
  in form reads back; so for options, entries, maps and sections;
* `rewritten_reads_back`: what was read from a document, written and read again, is the same.
-/

namespace OrgAlign

/-! ### Fields that are written -/

theorem Label.label?_value (l : Label) : Value.label? l.value = some l := by
  cases l with
  | name s => rfl
  | position n => simp [Label.value, Value.label?]

namespace Fields

/-- Fields as the entries of a mapping. -/
def entries (fields : Fields Value) : List (Value × Value) :=
  fields.map fun f => (f.1.value, f.2)

/-- The known fields of a record, those that are written. -/
def ofKnown (known : List (String × Option Value)) : Fields Value :=
  known.flatMap fun k => k.2.toList.map (.name k.1, ·)

/-- What a record with these fields of its own may keep beside them: fields with other keys, which
do not clash. -/
structure Leftover (names : List String) (extra : List (Value × Value)) : Prop where
  /-- Every key is a field's name or position, but none of the record's own names. -/
  others : ∀ e ∈ extra, ∃ l : Label, e.1 = l.value ∧ ∀ n ∈ names, l ≠ .name n
  /-- The keys, and the mappings below them, are free of clashes. -/
  distinct : (Value.map extra).distinctKeys = true

/-- A mapping has the fields that its entries were made of. -/
theorem fields?_entries (fields : Fields Value) :
    Source.fields? (Value.map fields.entries) = some fields := by
  change (fields.entries.mapM fun e => (Value.label? e.1).map (·, e.2)) = some fields
  induction fields with
  | nil => rfl
  | cons f fields ih =>
    unfold entries at ih ⊢
    rw [List.map_cons, List.mapM_cons, Label.label?_value, ih]
    rfl

theorem entries_append (a b : Fields Value) : entries (a ++ b) = a.entries ++ b.entries :=
  List.map_append

theorem all_append (a b : Fields Value) (name : String) :
    all (a ++ b) name = a.all name ++ b.all name := by
  unfold all
  rw [List.filter_append, List.map_append]

/-- No document is given for a name that no field has. -/
theorem all_eq_nil {fields : Fields Value} {name : String}
    (h : ∀ f ∈ fields, f.1 ≠ .name name) : fields.all name = [] := by
  unfold all
  rw [List.map_eq_nil_iff, List.filter_eq_nil_iff]
  intro f hf hname
  exact h f hf (of_decide_eq_true hname)

/-- Every written field has one of the known names. -/
theorem mem_ofKnown {known : List (String × Option Value)} {f : Label × Value}
    (h : f ∈ ofKnown known) : ∃ n ∈ known.map Prod.fst, f.1 = .name n := by
  obtain ⟨k, hk, hf⟩ := List.mem_flatMap.1 h
  obtain ⟨v, _, rfl⟩ := List.mem_map.1 hf
  exact ⟨k.1, List.mem_map_of_mem hk, rfl⟩

/-- For a known field stands what was written for it. -/
theorem all_ofKnown {known : List (String × Option Value)} (h : (known.map Prod.fst).Nodup)
    {k : String × Option Value} (hk : k ∈ known) : (ofKnown known).all k.1 = k.2.toList := by
  induction known with
  | nil => exact absurd hk List.not_mem_nil
  | cons j known ih =>
    have hnotin : j.1 ∉ known.map Prod.fst := (List.nodup_cons.1 h).1
    have hself : all (j.2.toList.map (Label.name j.1, ·)) j.1 = j.2.toList := by
      cases j.2 <;> simp [all]
    have hcons : ofKnown (j :: known) = j.2.toList.map (Label.name j.1, ·) ++ ofKnown known :=
      List.flatMap_cons
    rw [hcons, all_append]
    rcases List.mem_cons.1 hk with rfl | hk
    · rw [hself, all_eq_nil, List.append_nil]
      intro f hf hname
      obtain ⟨n, hn, hf⟩ := mem_ofKnown hf
      exact hnotin (Label.name.inj (hf.symm.trans hname) ▸ hn)
    · rw [ih (List.nodup_cons.1 h).2 hk, all_eq_nil, List.nil_append]
      intro f hf hname
      obtain ⟨v, _, rfl⟩ := List.mem_map.1 hf
      exact hnotin (List.mem_map.2 ⟨k, hk, (Label.name.inj hname).symm⟩)

/-- What is left beside the fields of a record is a leftover of it. -/
theorem leftover_of_others {δ : Type} [Source δ] {fields : Fields δ} {names : List String}
    {extra : List (Value × Value)} (h : fields.others names = some extra) :
    Leftover names extra := by
  unfold others at h
  obtain ⟨es, hes, h⟩ := Option.bind_eq_some_iff.1 h
  split at h
  case isFalse => cases h
  case isTrue hdistinct =>
    cases h
    refine ⟨fun e he => ?_, hdistinct⟩
    obtain ⟨f, hf, he⟩ := exists_of_mapM_eq_some hes he
    obtain ⟨v, _, rfl⟩ := Option.map_eq_some_iff.1 he
    have hkept := (List.mem_filter.1 hf).2
    simp only [Bool.not_eq_true', List.any_eq_false, decide_eq_true_eq] at hkept
    exact ⟨f.1, rfl, hkept⟩

/-- A leftover is made of fields with other names. -/
theorem Leftover.exists_fields {names : List String} {extra : List (Value × Value)}
    (h : ∀ e ∈ extra, ∃ l : Label, e.1 = l.value ∧ ∀ n ∈ names, l ≠ .name n) :
    ∃ rest : Fields Value, extra = rest.entries ∧ ∀ f ∈ rest, ∀ n ∈ names, f.1 ≠ .name n := by
  induction extra with
  | nil => exact ⟨[], rfl, fun f hf => absurd hf List.not_mem_nil⟩
  | cons e extra ih =>
    obtain ⟨⟨l, hl, hother⟩, hextra⟩ := List.forall_mem_cons.1 h
    obtain ⟨rest, rfl, hrest⟩ := ih hextra
    refine ⟨(l, e.2) :: rest, ?_, List.forall_mem_cons.2 ⟨hother, hrest⟩⟩
    exact congrArg (· :: rest.entries) (Prod.ext hl rfl)

/-- What is left beside the known fields are those with other names. -/
theorem others_append {known : List (String × Option Value)} {rest : Fields Value}
    (hrest : ∀ f ∈ rest, ∀ n ∈ known.map Prod.fst, f.1 ≠ .name n)
    (hdistinct : (Value.map rest.entries).distinctKeys = true) :
    others (ofKnown known ++ rest) (known.map Prod.fst) = some rest.entries := by
  have hknown : (ofKnown known).filter
      (fun f => !(known.map Prod.fst).any fun n => f.1 = .name n) = [] := by
    rw [List.filter_eq_nil_iff]
    intro f hf
    obtain ⟨n, hn, hname⟩ := mem_ofKnown hf
    simp only [Bool.not_eq_true', Bool.not_eq_false, List.any_eq_true, decide_eq_true_eq]
    exact ⟨n, hn, hname⟩
  have hkept : rest.filter (fun f => !(known.map Prod.fst).any fun n => f.1 = .name n) = rest := by
    rw [List.filter_eq_self]
    intro f hf
    simp only [Bool.not_eq_true', List.any_eq_false, decide_eq_true_eq]
    intro n hn
    exact hrest f hf n hn
  have hread : (rest.mapM fun f => (Source.value? f.2).map (f.1.value, ·)) =
      some rest.entries := by
    have hpure : (fun f : Label × Value => (Source.value? f.2).map (f.1.value, ·)) =
        fun f => pure (f.1.value, f.2) := rfl
    rw [hpure, List.mapM_pure]
    rfl
  unfold others
  simp only [List.filter_append, hknown, hkept, List.nil_append, hread, Option.bind_some,
    hdistinct, if_true]

/-- **The fields of a written record**: what was written for the known ones, and the leftover. -/
theorem fields?_written {known : List (String × Option Value)} {extra : List (Value × Value)}
    (hnodup : (known.map Prod.fst).Nodup) (hextra : Leftover (known.map Prod.fst) extra) :
    ∃ fields : Fields Value, Source.fields? (Value.map ((ofKnown known).entries ++ extra)) =
        some fields ∧
      (∀ k ∈ known, fields.all k.1 = k.2.toList) ∧
      fields.others (known.map Prod.fst) = some extra := by
  obtain ⟨hothers, hdistinct⟩ := hextra
  obtain ⟨rest, rfl, hrest⟩ := Leftover.exists_fields hothers
  refine ⟨ofKnown known ++ rest, ?_, ?_, others_append hrest hdistinct⟩
  · rw [← entries_append]
    exact fields?_entries _
  · intro k hk
    have hnone : rest.all k.1 = [] := by
      apply all_eq_nil
      intro f hf
      exact hrest f hf k.1 (List.mem_map_of_mem hk)
    rw [all_append, all_ofKnown hnodup hk, hnone, List.append_nil]

variable {fields : Fields Value} {name : String} {v? : Option Value} {α : Type}

/-- A field is read from what was written for it, or has its default. -/
theorem withDefault_of_toList (h : fields.all name = v?.toList) (default : α)
    (read : Value → Option α) :
    fields.withDefault name default read = v?.elim (some default) read := by
  cases v? with
  | none =>
    unfold withDefault read?
    rw [h]
    rfl
  | some v => exact withDefault_of_all h default read

end Fields

namespace Config

open Fields (Leftover ofKnown)

/-! ### Fields of one kind -/

/-- What is written for a list of texts. -/
def listed? (items : List String) : Option Value :=
  if items = [] then none else some (.texts items)

theorem field_eq (name : String) (v : Value) :
    field name v = (ofKnown [(name, some v)]).entries := rfl

theorem textsField_eq (name : String) (items : List String) :
    textsField name items = (ofKnown [(name, listed? items)]).entries := by
  unfold textsField listed?
  split <;> rfl

theorem textField?_eq (name : String) (item : Option String) :
    textField? name item = (ofKnown [(name, item.map .str)]).entries := by
  cases item <;> rfl

/-- The fields of a longer list, one list after the other. -/
theorem entries_ofKnown_cons (k j : String × Option Value) (known : List (String × Option Value)) :
    (ofKnown (k :: j :: known)).entries =
      (ofKnown [k]).entries ++ (ofKnown (j :: known)).entries := by
  have hcons : ofKnown (k :: j :: known) = ofKnown [k] ++ ofKnown (j :: known) := by
    rw [← List.singleton_append]
    exact List.flatMap_append
  rw [hcons, Fields.entries_append]

/-- A list of texts reads back. -/
theorem texts?_texts (items : List String) : Source.texts? (Value.texts items) = some items := by
  have htext : ∀ s : String, Source.text? (Value.str s) = some s := fun _ => rfl
  exact PublishedState.list?_map htext items

/-- A list of texts that may have been left out reads back. -/
theorem texts?_listed (items : List String) :
    (listed? items).elim (some []) Source.texts? = some items := by
  unfold listed?
  split
  · rename_i hnil
    rw [hnil]
    rfl
  · exact texts?_texts items

/-- A text that may have been left out reads back. -/
theorem optional_text (item : Option String) :
    (item.map Value.str).elim (some none) (Source.optional Source.text?) = some item := by
  cases item <;> rfl

/-- A role that may have been left out reads back. -/
theorem optional_role (role : Option LegacyRole) :
    ((role.map LegacyRole.name).map Value.str).elim (some none)
      (Source.optional LegacyRole.read?) = some role := by
  cases role with
  | none => rfl
  | some r => cases r <;> rfl

/-! ### Records -/

variable {δ : Type} [Source δ] {d : δ}

namespace GlobalOptions

/-- The options with what is written for each. -/
def known (g : GlobalOptions) : List (String × Option Value) :=
  [("ignored-ous", listed? g.ignoredOus), ("quarantine-policy", g.quarantine.map .str),
    ("baseline-policy", g.baseline.map .str), ("suspended-ou", g.suspended.map .str),
    ("scps", listed? g.scps)]

/-- The other options are none of the known ones, and do not clash. -/
def InForm (g : GlobalOptions) : Prop := Leftover (g.known.map Prod.fst) g.extra

theorem toValue_eq (g : GlobalOptions) :
    g.toValue = .map ((ofKnown g.known).entries ++ g.extra) := by
  unfold toValue known
  simp only [entries_ofKnown_cons, textsField_eq, textField?_eq, List.append_assoc]

/-- Options that were read are in form. -/
theorem inForm_of_read? {g : GlobalOptions} (h : GlobalOptions.read? d = some g) : g.InForm := by
  simp only [GlobalOptions.read?, Option.bind_eq_bind, Option.bind_eq_some_iff] at h
  obtain ⟨_, _, _, _, _, _, _, _, _, _, _, _, _, hextra, hg⟩ := h
  cases hg
  exact Fields.leftover_of_others hextra

/-- Options in form read back. -/
theorem read?_toValue {g : GlobalOptions} (h : g.InForm) :
    GlobalOptions.read? g.toValue = some g := by
  obtain ⟨fields, hfields, hall, hothers⟩ := Fields.fields?_written (by simp [known]) h
  rw [← toValue_eq] at hfields
  simp only [known, List.forall_mem_cons] at hall
  obtain ⟨hignored, hquarantine, hbaseline, hsuspended, hscps, -⟩ := hall
  unfold GlobalOptions.read? Fields.optional
  rw [hfields]
  simp only [Option.bind_eq_bind, Option.bind_some, Fields.withDefault_of_toList hignored,
    Fields.withDefault_of_toList hquarantine, Fields.withDefault_of_toList hbaseline,
    Fields.withDefault_of_toList hsuspended, Fields.withDefault_of_toList hscps, texts?_listed,
    optional_text]
  exact congrArg (Option.bind · _) hothers

end GlobalOptions

namespace OuEntry

/-- The fields of a unit's entry with what is written for each. -/
def known (o : OuEntry) : List (String × Option Value) := [("scps", listed? o.scps)]

/-- The other fields are none of the known ones, and do not clash. -/
def InForm (o : OuEntry) : Prop := Leftover (o.known.map Prod.fst) o.extra

theorem toValue_eq (o : OuEntry) : o.toValue = .map ((ofKnown o.known).entries ++ o.extra) := by
  unfold toValue known
  rw [textsField_eq]

/-- An entry that was read is in form. -/
theorem inForm_of_read? {o : OuEntry} (h : OuEntry.read? d = some o) : o.InForm := by
  simp only [OuEntry.read?, Option.bind_eq_bind, Option.bind_eq_some_iff] at h
  obtain ⟨_, _, _, _, _, hextra, ho⟩ := h
  cases ho
  exact Fields.leftover_of_others hextra

/-- An entry in form reads back. -/
theorem read?_toValue {o : OuEntry} (h : o.InForm) : OuEntry.read? o.toValue = some o := by
  obtain ⟨fields, hfields, hall, hothers⟩ := Fields.fields?_written (by simp [known]) h
  rw [← toValue_eq] at hfields
  simp only [known, List.forall_mem_cons] at hall
  obtain ⟨hscps, -⟩ := hall
  unfold OuEntry.read?
  rw [hfields]
  simp only [Option.bind_eq_bind, Option.bind_some, Fields.withDefault_of_toList hscps,
    texts?_listed]
  exact congrArg (Option.bind · _) hothers

end OuEntry

namespace AccountEntry

/-- The fields of an account's entry with what is written for each. -/
def known (a : AccountEntry) : List (String × Option Value) :=
  [("account-name", some (.str a.name)), ("email", some (.str a.email)), ("ou", some (.str a.ou)),
    ("ou-path", a.ouPath.map .str),
    ("landing-zone-account-type", (a.role.map LegacyRole.name).map .str),
    ("deleted", if a.deleted then some (.bool true) else none), ("scps", listed? a.scps)]

/-- The other fields are none of the known ones, and do not clash. -/
def InForm (a : AccountEntry) : Prop := Leftover (a.known.map Prod.fst) a.extra

theorem toValue_eq (a : AccountEntry) :
    a.toValue = .map ((ofKnown a.known).entries ++ a.extra) := by
  have hdeleted : (if a.deleted then field "deleted" (.bool true) else []) =
      (ofKnown [("deleted", if a.deleted then some (.bool true) else none)]).entries := by
    split <;> rfl
  unfold toValue known
  rw [hdeleted]
  simp only [entries_ofKnown_cons, field_eq, textsField_eq, textField?_eq, List.append_assoc]

/-- An entry that was read is in form. -/
theorem inForm_of_read? {a : AccountEntry} (h : AccountEntry.read? d = some a) : a.InForm := by
  simp only [AccountEntry.read?, Option.bind_eq_bind, Option.bind_eq_some_iff] at h
  obtain ⟨_, _, _, _, _, _, _, _, _, _, _, _, _, _, _, _, _, hextra, ha⟩ := h
  cases ha
  exact Fields.leftover_of_others hextra

/-- An entry in form reads back. -/
theorem read?_toValue {a : AccountEntry} (h : a.InForm) :
    AccountEntry.read? a.toValue = some a := by
  obtain ⟨fields, hfields, hall, hothers⟩ := Fields.fields?_written (by simp [known]) h
  rw [← toValue_eq] at hfields
  simp only [known, List.forall_mem_cons] at hall
  obtain ⟨hname, hemail, hou, hpath, hrole, hdeleted, hscps, -⟩ := hall
  have htext : ∀ s : String, Source.text? (Value.str s) = some s := fun _ => rfl
  have hflag : (if a.deleted then some (Value.bool true) else none).elim (some false)
      Source.flag? = some a.deleted := by
    cases a.deleted <;> rfl
  unfold AccountEntry.read? Fields.optional
  rw [hfields]
  simp only [Option.bind_eq_bind, Option.bind_some, Fields.required_of_all hname,
    Fields.required_of_all hemail, Fields.required_of_all hou, htext,
    Fields.withDefault_of_toList hpath, Fields.withDefault_of_toList hrole,
    Fields.withDefault_of_toList hdeleted, Fields.withDefault_of_toList hscps, texts?_listed,
    optional_text, optional_role, hflag]
  exact congrArg (Option.bind · _) hothers

end AccountEntry

/-! ### Maps and sections -/

variable {α : Type} {P : α → Prop}

/-- Where every entry that is read is in form, so are those of a map. -/
theorem inForm_of_readKeyed? {read : δ → Option α} (hread : ∀ d a, read d = some a → P a)
    {m : KeyedMap α} (h : readKeyed? read d = some m) : ∀ e ∈ m.entries, P e.2 := by
  obtain ⟨es, -, hspells⟩ := readKeyed?_eq_some_iff.1 h
  intro p hp
  obtain ⟨e, -, -, hvalue⟩ := forall₂_exists_left hspells hp
  exact hread e.2 p.2 hvalue

/-- A list of files reads back. -/
theorem loadFiles?_texts (files : List String) :
    loadFiles? (.record [(loadKey, .texts files)]) = some files :=
  texts?_texts files

/-- A map of mappings lists no files, not even under the key for them. -/
theorem loadFiles?_keyedValue {toValue : α → Value} (h : ∀ a, ∃ es, toValue a = .map es)
    (m : KeyedMap α) : loadFiles? (keyedValue toValue m) = none := by
  let fields : Fields Value := m.entries.map fun e => (.name e.1, toValue e.2)
  have hfields : Source.fields? (keyedValue toValue m) = some fields := by
    have hentries : keyedValue toValue m = .map fields.entries := by
      unfold keyedValue Value.record fields Fields.entries
      rw [List.map_map, List.map_map]
      rfl
    rw [hentries]
    exact Fields.fields?_entries fields
  unfold loadFiles?
  rw [hfields, Option.bind_eq_bind, Option.bind_some]
  split
  · rename_i f hone
    have hf : f ∈ fields := (List.mem_filter.1 (hone ▸ List.mem_singleton_self f)).1
    obtain ⟨e, _, rfl⟩ := List.mem_map.1 hf
    obtain ⟨es, hes⟩ := h e.2
    change Source.texts? (toValue e.2) = none
    rw [hes]
    rfl
  · rfl

namespace Section

/-- The entries of an inline section are in form. -/
def InForm (P : α → Prop) : Section α → Prop
  | .load _ => True
  | .inline m => ∀ e ∈ m.entries, P e.2

/-- A section that was read is in form. -/
theorem inForm_of_read? {read : Value → Option α} (hread : ∀ v a, read v = some a → P a)
    {v : Value} {s : Section α} (h : Section.read? read v = some s) : s.InForm P := by
  unfold Section.read? at h
  split at h
  · cases h
    exact trivial
  · obtain ⟨m, hm, rfl⟩ := Option.map_eq_some_iff.1 h
    exact inForm_of_readKeyed? hread hm

/-- A section in form reads back as the kind that it is. -/
theorem read?_toValue {read : Value → Option α} {toValue : α → Value}
    (hmap : ∀ a, ∃ es, toValue a = .map es) (hread : ∀ a, P a → read (toValue a) = some a)
    {s : Section α} (h : s.InForm P) : Section.read? read (s.toValue toValue) = some s := by
  unfold Section.read?
  cases s with
  | load files =>
    unfold Section.toValue
    rw [loadFiles?_texts]
  | inline m =>
    unfold Section.toValue
    rw [loadFiles?_keyedValue hmap, readKeyed?_keyedValue fun e he => hread e.2 (h e he)]
    rfl

end Section

/-! ### The root file -/

namespace RootFile

/-- What is written for a section. -/
def written? (toValue : α → Value) (s : Section α) : Option Value :=
  if s.isBlank then none else some (s.toValue toValue)

/-- The fields of the root file with what is written for each. -/
def known (r : RootFile) : List (String × Option Value) :=
  [(optionsKey, if r.options.isEmpty then none else some r.options.toValue),
    (ouSectionKey, written? OuEntry.toValue r.ous),
    (AccountSection.mandatory.key, written? AccountEntry.toValue r.mandatory),
    (AccountSection.workload.key, written? AccountEntry.toValue r.workload)]

/-- Options and entries are in form, and the other fields are none of the known ones. -/
structure InForm (r : RootFile) : Prop where
  /-- The options are in form. -/
  options : r.options.InForm
  /-- So are the units that are declared here, -/
  ous : r.ous.InForm OuEntry.InForm
  /-- the mandatory accounts -/
  mandatory : r.mandatory.InForm AccountEntry.InForm
  /-- and the workload accounts. -/
  workload : r.workload.InForm AccountEntry.InForm
  /-- The other fields are none of the known ones, and do not clash. -/
  extra : Leftover (r.known.map Prod.fst) r.extra

theorem sectionField_eq (name : String) (toValue : α → Value) (s : Section α) :
    sectionField name toValue s = (ofKnown [(name, written? toValue s)]).entries := by
  unfold sectionField written?
  split <;> rfl

theorem toValue_eq (r : RootFile) : r.toValue = .map ((ofKnown r.known).entries ++ r.extra) := by
  have hoptions : (if r.options.isEmpty then [] else field optionsKey r.options.toValue) =
      (ofKnown [(optionsKey,
        if r.options.isEmpty then none else some r.options.toValue)]).entries := by
    split <;> rfl
  unfold toValue known
  simp only [entries_ofKnown_cons, hoptions, sectionField_eq, List.append_assoc]

/-- A section that is missing stands for no entries, one that is there was read. -/
theorem section_inForm {fields : Fields δ} {name : String} {read : Value → Option α}
    (hread : ∀ v a, read v = some a → P a) {s : Section α}
    (h : fields.withDefault name default (fun d => (Source.value? d).bind (Section.read? read)) =
      some s) : s.InForm P := by
  unfold Fields.withDefault Fields.read? at h
  split at h
  · cases h
    exact fun e he => absurd he List.not_mem_nil
  · simp only [Option.map_map, Option.map_eq_some_iff, Option.bind_eq_some_iff] at h
    obtain ⟨_, ⟨v, _, hs⟩, rfl⟩ := h
    exact Section.inForm_of_read? hread hs
  · cases h

/-- Options that are missing are in form, and those that are there were read. -/
theorem options_inForm {fields : Fields δ} {name : String} {g : GlobalOptions}
    (h : fields.withDefault name {} GlobalOptions.read? = some g) : g.InForm := by
  unfold Fields.withDefault Fields.read? at h
  split at h
  · cases h
    exact ⟨fun e he => absurd he List.not_mem_nil, rfl⟩
  · simp only [Option.map_map, Option.map_eq_some_iff] at h
    obtain ⟨_, hg, rfl⟩ := h
    exact GlobalOptions.inForm_of_read? hg
  · cases h

/-- A root file that was read is in form. -/
theorem inForm_of_read? {r : RootFile} (h : RootFile.read? d = some r) : r.InForm := by
  simp only [RootFile.read?, Option.bind_eq_bind, Option.bind_eq_some_iff] at h
  obtain ⟨_, _, _, hoptions, _, hous, _, hmandatory, _, hworkload, _, hextra, hr⟩ := h
  cases hr
  exact ⟨options_inForm hoptions, section_inForm (fun _ _ => OuEntry.inForm_of_read?) hous,
    section_inForm (fun _ _ => AccountEntry.inForm_of_read?) hmandatory,
    section_inForm (fun _ _ => AccountEntry.inForm_of_read?) hworkload,
    Fields.leftover_of_others hextra⟩

/-- A section that may have been left out reads back. -/
theorem section_written {read : Value → Option α} {toValue : α → Value}
    (hmap : ∀ a, ∃ es, toValue a = .map es) (hread : ∀ a, P a → read (toValue a) = some a)
    {s : Section α} (h : s.InForm P) :
    (written? toValue s).elim (some default)
      (fun v => (Source.value? v).bind (Section.read? read)) = some s := by
  unfold written?
  split
  · rename_i hblank
    cases s with
    | load files => exact absurd hblank Bool.false_ne_true
    | inline m =>
      have hempty : m = .empty := KeyedMap.ext (List.isEmpty_iff.1 hblank)
      rw [hempty]
      rfl
  · exact Section.read?_toValue hmap hread h

/-- A root file in form reads back. -/
theorem read?_toValue {r : RootFile} (h : r.InForm) : RootFile.read? r.toValue = some r := by
  have hkeys : (r.known.map Prod.fst).Nodup := by
    simp [known, optionsKey, ouSectionKey, AccountSection.key]
  obtain ⟨fields, hfields, hall, hothers⟩ := Fields.fields?_written hkeys h.extra
  rw [← toValue_eq] at hfields
  simp only [known, List.forall_mem_cons] at hall
  obtain ⟨hoptions, hous, hmandatory, hworkload, -⟩ := hall
  have hset : (if r.options.isEmpty then none else some r.options.toValue).elim (some {})
      GlobalOptions.read? = some r.options := by
    split
    · rename_i hempty
      exact congrArg some (of_decide_eq_true hempty).symm
    · exact GlobalOptions.read?_toValue h.options
  have hou := section_written (fun o => ⟨_, OuEntry.toValue_eq o⟩)
    (fun _ => OuEntry.read?_toValue) h.ous
  have hmust := section_written (fun a => ⟨_, AccountEntry.toValue_eq a⟩)
    (fun _ => AccountEntry.read?_toValue) h.mandatory
  have hwork := section_written (fun a => ⟨_, AccountEntry.toValue_eq a⟩)
    (fun _ => AccountEntry.read?_toValue) h.workload
  unfold RootFile.read?
  rw [hfields]
  simp only [Option.bind_eq_bind, Option.bind_some, Fields.withDefault_of_toList hoptions,
    Fields.withDefault_of_toList hous, Fields.withDefault_of_toList hmandatory,
    Fields.withDefault_of_toList hworkload, hset, hou, hmust, hwork]
  exact congrArg (Option.bind · _) hothers

end RootFile

/-! ### Rewriting a document -/

/-- **What was read from a document reads back once it is written**: root files, maps of units and
maps of accounts, read from a document of either format and then from the tree written for them. -/
theorem rewritten_reads_back (d : δ) :
    (∀ r, RootFile.read? d = some r → RootFile.read? r.toValue = some r) ∧
    (∀ m, readKeyed? OuEntry.read? d = some m →
      readKeyed? OuEntry.read? (keyedValue OuEntry.toValue m) = some m) ∧
    (∀ m, readKeyed? AccountEntry.read? d = some m →
      readKeyed? AccountEntry.read? (keyedValue AccountEntry.toValue m) = some m) := by
  refine ⟨?_, ?_, ?_⟩
  · intro r h
    exact RootFile.read?_toValue (RootFile.inForm_of_read? h)
  · intro m h
    have hform := inForm_of_readKeyed? (fun _ _ => OuEntry.inForm_of_read?) h
    exact readKeyed?_keyedValue fun e he => OuEntry.read?_toValue (hform e he)
  · intro m h
    have hform := inForm_of_readKeyed? (fun _ _ => AccountEntry.inForm_of_read?) h
    exact readKeyed?_keyedValue fun e he => AccountEntry.read?_toValue (hform e he)

/-- Units: one under the key for lists of files, and one with fields of another tool. -/
def unitsDocument : Value :=
  .record [(loadKey, .record [("scps", .texts ["Deny"]), ("owner", .str "ops")]),
    ("Apps", .map [(.int 7, .record [("scps", .null)])])]

/-- A root file with such units, a list of files for one kind of account, and a field of another
tool before the options. -/
def rootDocument : Value :=
  .record [("tool", .record [("region", .null)]), (ouSectionKey, unitsDocument),
    (AccountSection.mandatory.key, .record [(loadKey, .texts ["accounts.yaml"])]),
    (optionsKey, .record [("suspended-ou", .null), ("quarantine-policy", .str "Hold")])]

/-- An account that is kept for the record only, with a role given as an alternative. -/
def accountsDocument : Value :=
  .record [("log", .record [("email", .str "log@corp"), ("deleted", .bool true),
    ("account-name", .str "Log"), ("ou", .str "Core"), ("tags", .record [("ou", .str "x")]),
    ("landing-zone-account-type", .record [("log-archive", .null)])])]

theorem rewritten_reads_back_documents :
    (∃ r, RootFile.read? rootDocument = some r ∧
      (r.mandatory.files, r.ous.files, r.ous.isBlank, r.extra.length) =
        (["accounts.yaml"], [], false, 1) ∧
      RootFile.read? r.toValue = some r) ∧
    (∃ m, readKeyed? OuEntry.read? unitsDocument = some m ∧ m.keys = [loadKey, "Apps"] ∧
      readKeyed? OuEntry.read? (keyedValue OuEntry.toValue m) = some m) ∧
    (∃ m, readKeyed? AccountEntry.read? accountsDocument = some m ∧ m.keys = ["log"] ∧
      readKeyed? AccountEntry.read? (keyedValue AccountEntry.toValue m) = some m) := by
  have hroot : (RootFile.read? rootDocument).map
      (fun r => (r.mandatory.files, r.ous.files, r.ous.isBlank, r.extra.length)) =
        some (["accounts.yaml"], [], false, 1) := by decide +kernel
  have hunits : (readKeyed? OuEntry.read? unitsDocument).map KeyedMap.keys =
      some [loadKey, "Apps"] := by decide +kernel
  have haccounts : (readKeyed? AccountEntry.read? accountsDocument).map KeyedMap.keys =
      some ["log"] := by decide +kernel
  obtain ⟨r, hr, hshape⟩ := Option.map_eq_some_iff.1 hroot
  obtain ⟨m, hm, hkeys⟩ := Option.map_eq_some_iff.1 hunits
  obtain ⟨a, ha, hkey⟩ := Option.map_eq_some_iff.1 haccounts
  refine ⟨⟨r, hr, hshape, ?_⟩, ⟨m, hm, hkeys, ?_⟩, ⟨a, ha, hkey, ?_⟩⟩
  · exact (rewritten_reads_back rootDocument).1 r hr
  · exact (rewritten_reads_back unitsDocument).2.1 m hm
  · exact (rewritten_reads_back accountsDocument).2.2 a ha

end Config
end OrgAlign
