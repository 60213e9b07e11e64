/-!
# Ordered mappings with text keys

Configuration sections are keyed dictionaries whose order is the order of declaration: findings
come out in it and files are written back in it. A `KeyedMap` is the list of its entries together
with the fact that no key occurs twice, so every map a caller holds has distinct keys.

Replacing a value and renaming a key keep the entry's position; a new key goes to the end.
-/

namespace OrgAlign

/-- Entries in declaration order, no key twice. -/
structure KeyedMap (α : Type) where
  /-- The entries, in declaration order. -/
  entries : List (String × α)
  /-- No key occurs twice. -/
  nodup : (entries.map Prod.fst).Nodup

namespace KeyedMap

variable {α β : Type}

theorem ext {m n : KeyedMap α} (h : m.entries = n.entries) : m = n := by
  cases m; cases n; cases h; rfl

instance [DecidableEq α] : DecidableEq (KeyedMap α) := fun m n =>
  decidable_of_iff (m.entries = n.entries) ⟨ext, fun h => h ▸ rfl⟩

instance [Repr α] : Repr (KeyedMap α) := ⟨fun m n => reprPrec m.entries n⟩

/-- The map without entries. -/
def empty : KeyedMap α := ⟨[], List.nodup_nil⟩

instance : Inhabited (KeyedMap α) := ⟨empty⟩

/-- The keys, in declaration order. -/
def keys (m : KeyedMap α) : List String := m.entries.map Prod.fst

/-- The values, in declaration order. -/
def values (m : KeyedMap α) : List α := m.entries.map Prod.snd

/-- How many entries there are. -/
def size (m : KeyedMap α) : Nat := m.entries.length

/-- There is no entry. -/
def isEmpty (m : KeyedMap α) : Bool := m.entries.isEmpty

/-- Some entry has this key. -/
def contains (m : KeyedMap α) (key : String) : Bool := m.keys.contains key

/-- The value stored under `key`. -/
def get? (m : KeyedMap α) (key : String) : Option α :=
  (m.entries.find? (·.1 == key)).map Prod.snd

@[simp] theorem contains_iff (m : KeyedMap α) (key : String) :
    m.contains key = true ↔ key ∈ m.keys := by
  simp [contains]

/-! ### Maps from entries -/

/-- The entries as a map, if no key occurs twice. -/
def ofEntries? (es : List (String × α)) : Option (KeyedMap α) :=
  if h : (es.map Prod.fst).Nodup then some ⟨es, h⟩ else none

/-! ### Changing values -/

/-- The same keys with every entry's value replaced by `f key value`. -/
def mapEntries (f : String → α → β) (m : KeyedMap α) : KeyedMap β :=
  ⟨m.entries.map fun e => (e.1, f e.1 e.2), by
    simpa [List.map_map, Function.comp_def] using m.nodup⟩

/-- The same keys with the value under `key`, if any, replaced by its image. -/
def modify (m : KeyedMap α) (key : String) (f : α → α) : KeyedMap α :=
  m.mapEntries fun k v => if k = key then f v else v

theorem keys_mapEntries (f : String → α → β) (m : KeyedMap α) :
    (m.mapEntries f).keys = m.keys := by
  simp [mapEntries, keys, List.map_map, Function.comp_def]

@[simp] theorem keys_modify (m : KeyedMap α) (key : String) (f : α → α) :
    (m.modify key f).keys = m.keys :=
  keys_mapEntries _ m

/-! ### Changing keys -/

/-- Stores `value` under `key`: in place if the key is there, at the end otherwise. -/
def insert (m : KeyedMap α) (key : String) (value : α) : KeyedMap α :=
  if h : key ∈ m.keys then m.modify key fun _ => value
  else ⟨m.entries ++ [(key, value)], by
    simp only [List.map_append, List.map_cons, List.map_nil]
    refine List.nodup_append.2 ⟨m.nodup, by simp, ?_⟩
    intro a ha b hb hab
    rw [List.mem_singleton] at hb
    exact h (hb ▸ hab ▸ ha)⟩

/-- The map built by storing the pairs one after the other. -/
def ofList (pairs : List (String × α)) : KeyedMap α :=
  pairs.foldl (fun m p => m.insert p.1 p.2) empty

/-- The map without the entry under `key`. -/
def erase (m : KeyedMap α) (key : String) : KeyedMap α :=
  ⟨m.entries.filter (·.1 ≠ key), m.nodup.sublist (List.Sublist.map _ List.filter_sublist)⟩

theorem nodup_map_rename {ks : List String} (hn : ks.Nodup) {old new : String}
    (hnew : new ∉ ks) : (ks.map fun k => if k = old then new else k).Nodup := by
  induction ks with
  | nil => simp
  | cons k ks ih =>
    have hk : k ∉ ks := (List.nodup_cons.1 hn).1
    have hks : ks.Nodup := (List.nodup_cons.1 hn).2
    have hnew' : new ∉ ks := fun h => hnew (List.mem_cons_of_mem _ h)
    have hne : new ≠ k := fun h => hnew (h ▸ List.mem_cons_self)
    refine List.nodup_cons.2 ⟨?_, ih hks hnew'⟩
    intro hmem
    obtain ⟨j, hj, hjk⟩ := List.mem_map.1 hmem
    by_cases h₁ : k = old <;> by_cases h₂ : j = old <;> simp_all

/-- The map with the key `old` replaced by `new` in place, provided `old` is there and `new` is
not. Renaming a key to itself succeeds exactly when the key is there. -/
def rename? (m : KeyedMap α) (old new : String) : Option (KeyedMap α) :=
  if old = new then if old ∈ m.keys then some m else none
  else if h : new ∈ m.keys then none
  else if old ∈ m.keys then
    some ⟨m.entries.map fun e => (if e.1 = old then new else e.1, e.2), by
      have := @nodup_map_rename _ m.nodup old new h
      simpa [keys, List.map_map, Function.comp_def] using this⟩
  else none

/-- `rename?`, keeping the map when the renaming is refused. -/
def rename (m : KeyedMap α) (old new : String) : KeyedMap α :=
  (m.rename? old new).getD m

end KeyedMap
end OrgAlign
