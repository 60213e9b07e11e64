import OrgAlign.Proofs.KeyedMap

/-!
# Sequences of updates

What a map is after any updates, said in three ways that know nothing of maps. As a mere list of
entries: each update works on the first entry with a key, and a list that is built so never has a
key twice. As a finite map: what is found under each key. As a list of keys: in which order they
are.
Main statements:

* `changeAt_eq_map`, `eraseAt_eq_filter`: where keys differ, the first entry with a key is the only
  one;
* `Update.entries_apply`, `Update.get?_apply`, `Update.keys_apply`: what one update does to each;
* `replays`: what any updates of the empty map come to.
-/

namespace OrgAlign.KeyedMap

variable {α : Type} {key : String}

/-! ### Plain lists of entries -/

namespace Listed

variable {es : List (String × α)}

/-- Where the first entry with a key is. -/
def position? (es : List (String × α)) (key : String) : Option Nat := es.findIdx? (·.1 == key)

/-- The entries, the first one that has a key being changed. -/
def changeAt (es : List (String × α)) (key : String) (f : String × α → String × α) :
    List (String × α) :=
  match position? es key with
  | some i => es.modify i f
  | none => es

/-- The entries without the first one that has a key. -/
def eraseAt (es : List (String × α)) (key : String) : List (String × α) :=
  match position? es key with
  | some i => es.eraseIdx i
  | none => es

/-- No entry is found for a key iff it is none of the keys. -/
theorem position?_eq_none_iff : position? es key = none ↔ key ∉ es.map Prod.fst := by
  unfold position?
  rw [List.findIdx?_eq_none_iff, List.mem_map]
  constructor
  · rintro hnone ⟨e, he, rfl⟩
    simpa using hnone e he
  · intro hnot e he
    rw [beq_eq_false_iff_ne]
    exact fun hkey => hnot ⟨e, he, hkey⟩

theorem isSome_position?_iff : (position? es key).isSome ↔ key ∈ es.map Prod.fst := by
  rw [← Option.ne_none_iff_isSome, ne_eq, position?_eq_none_iff, not_not]

theorem position?_cons (e : String × α) :
    position? (e :: es) key = if e.1 = key then some 0 else (position? es key).map (· + 1) := by
  unfold position?
  rw [List.findIdx?_cons]
  simp only [beq_iff_eq]

/-- Where keys differ, the entry with a key is the only one that is changed. -/
theorem changeAt_eq_map (h : (es.map Prod.fst).Nodup) (f : String × α → String × α) :
    changeAt es key f = es.map fun e => if e.1 = key then f e else e := by
  induction es with
  | nil => rfl
  | cons e es ih =>
    obtain ⟨he, hes⟩ := List.nodup_cons.1 h
    have ih := ih hes
    unfold changeAt at ih ⊢
    rw [position?_cons, List.map_cons]
    by_cases hkey : e.1 = key
    · have hrest : (es.map fun e => if e.1 = key then f e else e) = es := by
        refine (List.map_congr_left fun e' he' => if_neg fun hkey' => he ?_).trans (List.map_id es)
        exact List.mem_map.2 ⟨e', he', hkey'.trans hkey.symm⟩
      rw [if_pos hkey, if_pos hkey, hrest]
      rfl
    · rw [if_neg hkey, if_neg hkey, ← ih]
      cases position? es key <;> rfl

/-- Where keys differ, the entry with a key is the only one that is taken out. -/
theorem eraseAt_eq_filter (h : (es.map Prod.fst).Nodup) :
    eraseAt es key = es.filter (·.1 ≠ key) := by
  induction es with
  | nil => rfl
  | cons e es ih =>
    obtain ⟨he, hes⟩ := List.nodup_cons.1 h
    have ih := ih hes
    unfold eraseAt at ih ⊢
    rw [position?_cons]
    by_cases hkey : e.1 = key
    · have hrest : es.filter (·.1 ≠ key) = es := by
        refine List.filter_eq_self.2 fun e' he' => decide_eq_true fun hkey' => he ?_
        exact List.mem_map.2 ⟨e', he', hkey'.trans hkey.symm⟩
      rw [if_pos hkey, List.filter_cons_of_neg (by simpa using hkey), hrest]
      rfl
    · rw [if_neg hkey, List.filter_cons_of_pos (by simpa using hkey), ← ih]
      cases position? es key <;> rfl

end Listed

/-! ### Updates -/

/-- An update of a map. -/
inductive Update (α : Type)
  /-- Stores a value under a key. -/
  | insert (key : String) (value : α)
  /-- Takes out what is stored under a key. -/
  | erase (key : String)
  /-- Puts a new key in the place of an old one. -/
  | rename (old new : String)
  /-- Changes the value under a key. -/
  | modify (key : String) (f : α → α)
  /-- Changes all values, each one as its key says. -/
  | mapEntries (f : String → α → α)

/-- The key `old` can become `new`: it is there, and `new` is not, or is the same key. -/
def Renames (φ : String → Option α) (old new : String) : Prop :=
  (φ old).isSome ∧ (old = new ∨ φ new = none)

instance (φ : String → Option α) (old new : String) : Decidable (Renames φ old new) :=
  inferInstanceAs (Decidable (_ ∧ (_ ∨ _)))

namespace Update

open Listed

/-- The map after an update. -/
def apply : Update α → KeyedMap α → KeyedMap α
  | insert key a, m => m.insert key a
  | erase key, m => m.erase key
  | rename old new, m => m.rename old new
  | modify key f, m => m.modify key f
  | mapEntries f, m => m.mapEntries f

/-- The entries after an update, taken as a mere list. -/
def onEntries : Update α → List (String × α) → List (String × α)
  | insert key a, es =>
    if (position? es key).isSome then changeAt es key fun e => (e.1, a) else es ++ [(key, a)]
  | erase key, es => eraseAt es key
  | rename old new, es =>
    if old = new ∨ (position? es new).isSome then es else changeAt es old fun e => (new, e.2)
  | modify key f, es => changeAt es key fun e => (e.1, f e.2)
  | mapEntries f, es => es.map fun e => (e.1, f e.1 e.2)

/-- What is found under the keys after an update. -/
def onValues : Update α → (String → Option α) → String → Option α
  | insert key a, φ => Function.update φ key (some a)
  | erase key, φ => Function.update φ key none
  | rename old new, φ =>
    if Renames φ old new then Function.update (Function.update φ old none) new (φ old) else φ
  | modify key f, φ => Function.update φ key ((φ key).map f)
  | mapEntries f, φ => fun key => (φ key).map (f key)

/-- The keys in order after an update. -/
def onKeys : Update α → List String → List String
  | insert key _, keys => if key ∈ keys then keys else keys ++ [key]
  | erase key, keys => keys.filter (· ≠ key)
  | rename old new, keys =>
    if old ∈ keys ∧ new ∉ keys then keys.map fun key => if key = old then new else key else keys
  | modify _ _, keys => keys
  | mapEntries _, keys => keys

/-- **An update of a map is the update of the list of its entries.** -/
theorem entries_apply (u : Update α) (m : KeyedMap α) :
    (u.apply m).entries = u.onEntries m.entries := by
  have hnodup := m.nodup
  cases u with
  | insert key a =>
    simp only [apply, onEntries, isSome_position?_iff, changeAt_eq_map hnodup]
    rw [entries_insert]
    refine if_congr Iff.rfl (List.map_congr_left fun e _ => ?_) rfl
    split <;> rfl
  | erase key => exact (eraseAt_eq_filter hnodup).symm
  | rename old new =>
    simp only [apply, onEntries, isSome_position?_iff, changeAt_eq_map hnodup]
    by_cases hsame : old = new
    · rw [hsame, rename_self, if_pos (.inl rfl)]
    · simp only [hsame, false_or]
      rw [entries_rename]
      refine if_congr Iff.rfl rfl (List.map_congr_left fun e _ => ?_)
      split <;> rfl
  | modify key f =>
    simp only [apply, onEntries, changeAt_eq_map hnodup]
    refine List.map_congr_left fun e _ => ?_
    dsimp only
    split <;> rfl
  | mapEntries f => rfl

/-- The entries of a list stay apart in their keys. -/
theorem nodup_onEntries (u : Update α) {es : List (String × α)} (h : (es.map Prod.fst).Nodup) :
    ((u.onEntries es).map Prod.fst).Nodup := by
  have hentries := u.entries_apply ⟨es, h⟩
  exact hentries ▸ (u.apply ⟨es, h⟩).nodup

/-- An update acts on what is found under the keys. -/
theorem get?_apply (u : Update α) (m : KeyedMap α) : (u.apply m).get? = u.onValues m.get? := by
  cases u with
  | insert key a => exact get?_insert m key a
  | erase key => exact get?_erase m key
  | rename old new =>
    simp only [apply, onValues]
    by_cases hren : Renames m.get? old new
    · rw [if_pos hren]
      obtain ⟨-, rfl | hnew⟩ := hren
      · rw [rename_self, Function.update_idem, Function.update_eq_self]
      · exact get?_rename (get?_eq_none_iff.1 hnew)
    · rw [if_neg hren]
      exact congrArg get? (congrArg (Option.getD · m) (rename?_eq_none_iff.2 hren))
  | modify key f =>
    funext k
    simp only [apply, onValues]
    rw [get?_modify, Function.update_apply]
    by_cases hkey : k = key
    · rw [if_pos hkey, if_pos hkey, hkey]
    · rw [if_neg hkey, if_neg hkey]
  | mapEntries f => exact funext (get?_mapEntries f)

/-- An update acts on the order of the keys. -/
theorem keys_apply (u : Update α) (m : KeyedMap α) : (u.apply m).keys = u.onKeys m.keys := by
  cases u with
  | insert key a => exact keys_insert m key a
  | erase key => exact keys_erase m key
  | rename old new =>
    simp only [apply, onKeys]
    rw [keys_rename]
    by_cases hnew : new ∈ m.keys
    · rw [if_pos hnew, if_neg fun h => h.2 hnew]
    · rw [if_neg hnew]
      by_cases hold : old ∈ m.keys
      · rw [if_pos ⟨hold, hnew⟩]
      · rw [if_neg fun h => hold h.1]
        refine (List.map_congr_left fun key hkey => if_neg ?_).trans (List.map_id _)
        exact fun hsame => hold (hsame ▸ hkey)
  | modify key f => exact keys_modify m key f
  | mapEntries f => exact keys_mapEntries f m

end Update

/-! ### Any updates -/

/-- A map is what updates of the empty map come to. -/
structure Replays (us : List (Update α)) (m : KeyedMap α) : Prop where
  /-- Its entries are what the updates make of the empty list. -/
  entries : m.entries = us.foldl (fun es u => u.onEntries es) []
  /-- In that list no key occurs twice. -/
  distinct : ((us.foldl (fun es u => u.onEntries es) []).map Prod.fst).Nodup
  /-- What is found under the keys is what the updates make of nothing. -/
  values : m.get? = us.foldl (fun φ u => u.onValues φ) fun _ => none
  /-- Its keys are in the order that the updates give them. -/
  order : m.keys = us.foldl (fun keys u => u.onKeys keys) []

/-- **What any updates of the empty map come to.** -/
theorem replays (us : List (Update α)) : Replays us (us.foldl (fun m u => u.apply m) empty) := by
  constructor
  · exact (List.foldl_hom entries fun m u => (u.entries_apply m).symm).symm
  · have hstep : ∀ (es : List (String × α)) (u : Update α), (es.map Prod.fst).Nodup →
        ((u.onEntries es).map Prod.fst).Nodup := fun _ u h => u.nodup_onEntries h
    exact foldl_keeps (fun es => (es.map Prod.fst).Nodup) hstep us [] List.nodup_nil
  · exact (List.foldl_hom get? fun m u => (u.get?_apply m).symm).symm
  · exact (List.foldl_hom keys fun m u => (u.keys_apply m).symm).symm

/-- What any updates of a map come to that pairs were put into one after the other. -/
theorem replays_ofList (pairs : List (String × α)) (us : List (Update α)) :
    Replays (pairs.map (fun p => .insert p.1 p.2) ++ us)
      (us.foldl (fun m u => u.apply m) (ofList pairs)) := by
  have hstart : ofList pairs = (pairs.map fun p => Update.insert p.1 p.2).foldl
      (fun m u => u.apply m) empty := by
    rw [List.foldl_map]
    rfl
  rw [hstart, ← List.foldl_append]
  exact replays _

end OrgAlign.KeyedMap
