import OrgAlign.Config.Decode
import OrgAlign.Config.Encode
import OrgAlign.Proofs.KeyedMap.Updates

/-!
# Maps in documents

A map is read from the entries of a document in their order, and nothing is put right on the way: a
key that is no text, a value that cannot be read or a key given twice makes the whole document
unreadable. So does anything that is no mapping. `null` is among that, in JSON and when it is
written out in YAML, as `~` or in a word; only a YAML document with nothing in it is the empty map.
Main statements:

* `readKeyed?_eq_some_iff`: a map is read iff its entries are spelled in the document, one by one;
* `readKeyed?_eq_none_iff`: nothing is read iff there are no entries or they are flawed;
* `readKeyed?_keyedValue`: a map that was written reads back;
* `replays_and_reads`: what any updates of a map come to, and when it reads and reads back.
-/

namespace OrgAlign.Config

variable {δ α : Type} [Source δ] {read : δ → Option α} {d : δ} {m : KeyedMap α}

/-! ### Entries of a document -/

/-- An entry of a document spells a key and its value. -/
def Spells (read : δ → Option α) (e : δ × δ) (p : String × α) : Prop :=
  Source.text? e.1 = some p.1 ∧ read e.2 = some p.2

/-- Entries of a document that make no map: a key is no text, a value cannot be read, or a key is
given twice. -/
def Flawed (read : δ → Option α) (es : List (δ × δ)) : Prop :=
  (∃ e ∈ es, Source.text? e.1 = none) ∨ (∃ e ∈ es, read e.2 = none) ∨
    ¬ (es.map fun e => Source.text? e.1).Nodup

/-- The key and the value that an entry spells. -/
def spelled? (read : δ → Option α) (e : δ × δ) : Option (String × α) :=
  (Source.text? e.1).bind fun key => (read e.2).bind fun a => some (key, a)

theorem spelled?_eq_some_iff {e : δ × δ} {p : String × α} :
    spelled? read e = some p ↔ Spells read e p := by
  obtain ⟨key, a⟩ := p
  unfold spelled? Spells
  cases Source.text? e.1 <;> cases read e.2 <;> simp

theorem spelled?_eq_none_iff {e : δ × δ} :
    spelled? read e = none ↔ Source.text? e.1 = none ∨ read e.2 = none := by
  unfold spelled?
  cases Source.text? e.1 <;> cases read e.2 <;> simp

/-- A map is read entry by entry. -/
theorem readKeyed?_eq (read : δ → Option α) (d : δ) : readKeyed? read d =
    ((Source.entries? d).bind fun es => es.mapM (spelled? read)).bind KeyedMap.ofEntries? := by
  unfold readKeyed?
  rw [Option.bind_assoc]
  rfl

/-- The keys of entries that spell pairs. -/
theorem map_text?_of_spells {es : List (δ × δ)} {pairs : List (String × α)}
    (h : List.Forall₂ (Spells read) es pairs) :
    (es.map fun e => Source.text? e.1) = (pairs.map Prod.fst).map some := by
  induction h with
  | nil => rfl
  | cons hep _ ih => rw [List.map_cons, List.map_cons, List.map_cons, hep.1, ih]

theorem ofEntries?_eq_some_iff {pairs : List (String × α)} :
    KeyedMap.ofEntries? pairs = some m ↔ pairs = m.entries := by
  unfold KeyedMap.ofEntries?
  constructor
  · intro h
    split at h
    · exact congrArg KeyedMap.entries (Option.some.inj h)
    · cases h
  · rintro rfl
    exact dif_pos m.nodup

theorem ofEntries?_eq_none_iff {pairs : List (String × α)} :
    KeyedMap.ofEntries? pairs = none ↔ ¬ (pairs.map Prod.fst).Nodup := by
  unfold KeyedMap.ofEntries?
  split <;> simp [*]

/-- Entries make no map iff they are flawed. -/
theorem mapM_ofEntries?_eq_none_iff {es : List (δ × δ)} :
    (es.mapM (spelled? read)).bind KeyedMap.ofEntries? = none ↔ Flawed read es := by
  unfold Flawed
  cases hpairs : es.mapM (spelled? read) with
  | none =>
    obtain ⟨e, he, hnone⟩ := mapM_eq_none.1 hpairs
    refine iff_of_true rfl ?_
    rcases spelled?_eq_none_iff.1 hnone with hkey | hvalue
    · exact .inl ⟨e, he, hkey⟩
    · exact .inr (.inl ⟨e, he, hvalue⟩)
  | some pairs =>
    have hspells : List.Forall₂ (Spells read) es pairs :=
      (mapM_eq_some.1 hpairs).imp fun _ _ => spelled?_eq_some_iff.1
    have hall : ∀ e ∈ es, Source.text? e.1 ≠ none ∧ read e.2 ≠ none := by
      intro e he
      obtain ⟨p, -, hkey, hvalue⟩ := forall₂_exists_right hspells he
      simp [hkey, hvalue]
    have hkeys : ¬ ∃ e ∈ es, Source.text? e.1 = none := fun ⟨e, he, hkey⟩ => (hall e he).1 hkey
    have hvalues : ¬ ∃ e ∈ es, read e.2 = none := fun ⟨e, he, hvalue⟩ => (hall e he).2 hvalue
    rw [Option.bind_some, ofEntries?_eq_none_iff, or_iff_right hkeys, or_iff_right hvalues,
      map_text?_of_spells hspells, List.nodup_map_iff fun _ _ => Option.some.inj]

/-! ### Reading a map -/

/-- **A map is read iff its entries are spelled in the document**, one by one and in order. -/
theorem readKeyed?_eq_some_iff : readKeyed? read d = some m ↔
    ∃ es, Source.entries? d = some es ∧ List.Forall₂ (Spells read) es m.entries := by
  rw [readKeyed?_eq, Option.bind_eq_some_iff]
  simp only [ofEntries?_eq_some_iff, Option.bind_eq_some_iff, mapM_eq_some, spelled?_eq_some_iff]
  constructor
  · rintro ⟨_, ⟨es, hes, hspells⟩, rfl⟩
    exact ⟨es, hes, hspells⟩
  · rintro ⟨es, hes, hspells⟩
    exact ⟨m.entries, ⟨es, hes, hspells⟩, rfl⟩

/-- **No map is read iff there are no entries, or they are flawed.** -/
theorem readKeyed?_eq_none_iff : readKeyed? read d = none ↔
    Source.entries? d = none ∨ ∃ es, Source.entries? d = some es ∧ Flawed read es := by
  rw [readKeyed?_eq, Option.bind_assoc]
  cases Source.entries? d with
  | none => exact iff_of_true rfl (.inl rfl)
  | some es =>
    rw [Option.bind_some, mapM_ofEntries?_eq_none_iff]
    simp

/-- A map whose values read back reads back, keys and order included. -/
theorem readKeyed?_keyedValue {read : Value → Option α} {toValue : α → Value} {m : KeyedMap α}
    (h : ∀ e ∈ m.entries, read (toValue e.2) = some e.2) :
    readKeyed? read (keyedValue toValue m) = some m := by
  refine readKeyed?_eq_some_iff.2 ⟨m.entries.map fun e => (.str e.1, toValue e.2), ?_, ?_⟩
  · unfold keyedValue Value.record
    rw [List.map_map]
    rfl
  · rw [List.forall₂_map_left_iff, List.forall₂_same]
    exact fun e he => ⟨rfl, h e he⟩

/-! ### Documents that are no mapping -/

/-- A plain value has entries iff it is a mapping. -/
theorem entries?_value_eq_some_iff {v : Value} {es : List (Value × Value)} :
    Source.entries? v = some es ↔ v = .map es := by
  cases v <;> simp [Source.entries?]

/-- The root of a YAML document has no entries iff it is neither a mapping nor blank. -/
theorem entries?_located_eq_none_iff {d : Yaml.Document} : Source.entries? d.located = none ↔
    d.located.isBlank = false ∧ ∀ tag es, d.located.here ≠ .map tag es := by
  change d.located.entries? = none ↔ _
  unfold Yaml.Located.entries?
  have hlevels : d.located.levels ≠ 0 := show Yaml.nestingLimit ≠ 0 by decide
  split
  · rename_i tag es hmap
    rw [if_neg hlevels]
    exact iff_of_false (Option.some_ne_none _) fun h => h.2 tag es hmap
  · rename_i hnot
    cases d.located.isBlank with
    | true => exact iff_of_false (Option.some_ne_none _) fun h => Bool.false_ne_true h.1.symm
    | false => exact iff_of_true rfl ⟨rfl, fun tag es hmap => hnot tag es hmap⟩

/-! ### Any updates of maps of any origin -/

/-- How a map comes about, and the pairs that it is made of: it is empty, pairs were put into it one
after the other, or it was read from a document. -/
inductive Made : List (String × α) → KeyedMap α → Prop
  | empty : Made [] KeyedMap.empty
  | ofList (pairs : List (String × α)) : Made pairs (KeyedMap.ofList pairs)
  | read {δ : Type} [Source δ] {read : δ → Option α} {d : δ} {m : KeyedMap α}
    (h : readKeyed? read d = some m) : Made m.entries m

/-- Whatever it comes from, it is the map that its pairs were put into. -/
theorem Made.eq_ofList {pairs : List (String × α)} (h : Made pairs m) :
    m = KeyedMap.ofList pairs := by
  cases h with
  | empty => rfl
  | ofList => rfl
  | read _ => exact (KeyedMap.ofList_entries m).symm

open KeyedMap (Update Renames Replays)

/-- **Maps are ordered finite maps, which are read and written entry by entry.**

After any updates, starting from pairs, a map is what storing the pairs and then the updates come
to: as a list of entries, in which no key is twice, as a finite map, and in the order of its keys. A
key is renamed iff it is there and the new one is free or the same. A map is read iff its entries
are spelled in the document in order, and reads back once it is written. Nothing is read of what is
no mapping, `null` included unless it is a blank YAML document, and of mappings with a flaw. -/
theorem replays_and_reads :
    (∀ (pairs : List (String × α)) (m : KeyedMap α) (us : List (Update α)), Made pairs m →
      Replays (pairs.map (fun p => .insert p.1 p.2) ++ us) (us.foldl (fun m u => u.apply m) m)) ∧
    (∀ (m : KeyedMap α) (old new : String),
      m.rename? old new = none ↔ ¬ Renames m.get? old new) ∧
    (∀ (δ : Type) [Source δ] (read : δ → Option α) (d : δ) (m : KeyedMap α),
      readKeyed? read d = some m ↔
        ∃ es, Source.entries? d = some es ∧ List.Forall₂ (Spells read) es m.entries) ∧
    (∀ (read : Value → Option α) (toValue : α → Value) (m : KeyedMap α),
      (∀ e ∈ m.entries, read (toValue e.2) = some e.2) →
        readKeyed? read (keyedValue toValue m) = some m) ∧
    (∀ (read : Value → Option α) (v : Value), readKeyed? read v = none ↔
      (∀ es, v ≠ .map es) ∨ ∃ es, v = .map es ∧ Flawed read es) ∧
    (∀ (read : Yaml.Located → Option α) (d : Yaml.Document), readKeyed? read d.located = none ↔
      (d.located.isBlank = false ∧ ∀ tag es, d.located.here ≠ .map tag es) ∨
        ∃ es, Source.entries? d.located = some es ∧ Flawed read es) := by
  refine ⟨?_, ?_, ?_, ?_, ?_, ?_⟩
  · intro pairs m us h
    rw [h.eq_ofList]
    exact KeyedMap.replays_ofList pairs us
  · exact fun m old new => KeyedMap.rename?_eq_none_iff
  · exact fun δ _ read d m => readKeyed?_eq_some_iff
  · exact fun read toValue m => readKeyed?_keyedValue
  · intro read v
    rw [readKeyed?_eq_none_iff, Option.eq_none_iff_forall_ne_some]
    simp only [ne_eq, entries?_value_eq_some_iff]
  · intro read d
    rw [readKeyed?_eq_none_iff, entries?_located_eq_none_iff]

/-- Three numbers under keys in no order. -/
def threeNumbers : Value := .record [("zeta", .int 1), ("alpha", .int 2), ("mid", .int 3)]

/-- A renaming that is refused and one that is not, a new value and one that is taken out, a key
that is free again, and a value that is changed. -/
def sixUpdates : List (Update Int) :=
  [.rename "zeta" "alpha", .rename "zeta" "omega", .insert "alpha" 7, .erase "mid",
    .insert "zeta" 4, .modify "omega" (· + 40)]

theorem replays_and_reads_threeNumbers :
    ∃ m m' : KeyedMap Int, readKeyed? Source.integer? threeNumbers = some m ∧
      m' = sixUpdates.foldl (fun m u => u.apply m) m ∧
      m'.entries = [("omega", 41), ("alpha", 7), ("zeta", 4)] ∧ m'.get? "mid" = none ∧
      readKeyed? Source.integer? (keyedValue .int m') = some m' ∧
      readKeyed? (Source.integer? : Value → Option Int) .null = none := by
  let m : KeyedMap Int := ⟨[("zeta", 1), ("alpha", 2), ("mid", 3)], by decide⟩
  let m' := sixUpdates.foldl (fun m u => u.apply m) m
  have hread : readKeyed? Source.integer? threeNumbers = some m := rfl
  obtain ⟨hreplays, -, -, hwritten, hrefused, -⟩ := @replays_and_reads Int
  have hm' := hreplays m.entries m sixUpdates (.read hread)
  have hentries : m'.entries = [("omega", 41), ("alpha", 7), ("zeta", 4)] := hm'.entries
  refine ⟨m, m', hread, rfl, hentries, ?_, ?_, ?_⟩
  · exact congrFun hm'.values "mid"
  · refine hwritten Source.integer? .int m' ?_
    rw [hentries]
    decide
  · exact (hrefused Source.integer? .null).2 (.inl fun _ => nofun)

/-- A written `null` is no empty map, in neither format; a blank document is one. -/
theorem null_is_no_map :
    (readJson "null" : Except Unreadable (KeyedMap Int)) = .error .malformed ∧
      (readYaml "~" : Except Unreadable (KeyedMap Int)) = .error .malformed ∧
      (readYaml "" : Except Unreadable (KeyedMap Int)) = .ok KeyedMap.empty := by
  refine ⟨?_, ?_, ?_⟩
  · rfl
  · rfl
  · rfl

end OrgAlign.Config
