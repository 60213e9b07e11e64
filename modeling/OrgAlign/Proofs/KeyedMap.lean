import Mathlib.Data.List.Basic
import Mathlib.Data.List.Nodup
import Mathlib.Logic.Function.Basic
import Mathlib.Logic.Function.Iterate
import Mathlib.Tactic.Common
import OrgAlign.KeyedMap
import OrgAlign.Proofs.Walks

/-!
# Laws of keyed maps

A value is found under a key iff the pair is an entry, and changing values goes through every way of
building a map. Main statements:

* `get?_eq_some_iff`, `get?_eq_none_iff`: what is found under a key;
* `get?_mapEntries`, `get?_modify`: what is found after values were changed;
* `foldl_modify`: what changing values key by key comes to;
* `ofList_map`: changing values before or after entries are put into one map is the same;
* `entries_rename`, `keys_rename`: what renaming a key does, unless the new key is in use;
* `entries_ofList_map`: maps built from entries under other keys;
* `get?_insert`, `get?_erase`, `get?_rename`: what is found after a change is an update of what was
  found before.
-/

namespace OrgAlign.KeyedMap

variable {α β : Type} {m : KeyedMap α}

/-! ### Looking up -/

/-- A value is found under a key iff the pair is an entry. -/
theorem get?_eq_some_iff {key : String} {a : α} : m.get? key = some a ↔ (key, a) ∈ m.entries := by
  unfold get?
  rw [Option.map_eq_some_iff]
  constructor
  · rintro ⟨e, hfind, rfl⟩
    have hkey : e.1 = key := by simpa using List.find?_some hfind
    exact hkey ▸ List.mem_of_find?_eq_some hfind
  · intro hin
    exact ⟨(key, a), find?_of_nodup m.nodup hin, rfl⟩

/-- What something is found under is a key. -/
theorem mem_keys_of_get? {key : String} {a : α} (h : m.get? key = some a) : key ∈ m.keys :=
  List.mem_map.2 ⟨(key, a), get?_eq_some_iff.1 h, rfl⟩

/-- Nothing is found under a key iff it is no key of the map. -/
theorem get?_eq_none_iff {key : String} : m.get? key = none ↔ key ∉ m.keys := by
  unfold get? keys
  rw [Option.map_eq_none_iff, List.find?_eq_none, List.mem_map]
  constructor
  · rintro hnone ⟨e, he, rfl⟩
    exact hnone e he (beq_self_eq_true e.1)
  · rintro hnot e he hkey
    exact hnot ⟨e, he, by simpa using hkey⟩

/-- Something is found under a key iff it is a key of the map. -/
theorem isSome_get?_iff {key : String} : (m.get? key).isSome ↔ key ∈ m.keys := by
  rw [← Option.ne_none_iff_isSome, ne_eq, get?_eq_none_iff, not_not]

/-! ### Changing values -/

@[simp] theorem entries_mapEntries (f : String → α → β) (m : KeyedMap α) :
    (m.mapEntries f).entries = m.entries.map fun e => (e.1, f e.1 e.2) := rfl

/-- What is found after all values were changed. -/
theorem get?_mapEntries (f : String → α → β) (key : String) :
    (m.mapEntries f).get? key = (m.get? key).map (f key) := by
  refine Option.ext fun b => ?_
  rw [get?_eq_some_iff, Option.map_eq_some_iff]
  unfold mapEntries
  rw [List.mem_map]
  constructor
  · rintro ⟨⟨k, a⟩, hin, heq⟩
    cases heq
    exact ⟨a, get?_eq_some_iff.2 hin, rfl⟩
  · rintro ⟨a, ha, rfl⟩
    exact ⟨(key, a), get?_eq_some_iff.1 ha, rfl⟩

/-- What is found after one value was changed. -/
theorem get?_modify (key : String) (f : α → α) (k : String) :
    (m.modify key f).get? k = if k = key then (m.get? k).map f else m.get? k := by
  unfold modify
  rw [get?_mapEntries]
  split
  · rfl
  · exact Option.map_id_fun' ▸ rfl

/-- A change that makes no difference to the value under the key changes nothing. -/
theorem modify_eq_self {key : String} {f : α → α} (h : ∀ a, m.get? key = some a → f a = a) :
    m.modify key f = m := by
  refine KeyedMap.ext ?_
  unfold modify mapEntries
  refine (List.map_congr_left fun e he => ?_).trans (List.map_id _)
  change (e.1, if e.1 = key then f e.2 else e.2) = e
  split
  · rename_i hkey
    rw [h e.2 (get?_eq_some_iff.2 (hkey ▸ he))]
  · rfl

/-- Changing values key by key is to change each as often as its key is listed. -/
theorem foldl_modify (f : α → α) (keys : List String) (m : KeyedMap α) :
    keys.foldl (fun m key => m.modify key f) m = m.mapEntries fun key => f^[keys.count key] := by
  induction keys generalizing m with
  | nil => exact KeyedMap.ext (List.map_id _).symm
  | cons key keys ih =>
    rw [List.foldl_cons, ih]
    refine KeyedMap.ext ?_
    unfold modify
    rw [entries_mapEntries, entries_mapEntries, entries_mapEntries, List.map_map]
    refine List.map_congr_left fun e _ => ?_
    rw [Function.comp_apply, List.count_cons]
    by_cases hkey : e.1 = key
    · simp [hkey]
    · simp [hkey, Ne.symm hkey]

/-! ### Building maps -/

/-- Storing a value and changing all values, in either order. -/
theorem insert_mapEntries (f : String → α → β) (key : String) (a : α) :
    (m.insert key a).mapEntries f = (m.mapEntries f).insert key (f key a) := by
  have hkeys := keys_mapEntries f m
  refine KeyedMap.ext ?_
  by_cases hkey : key ∈ m.keys
  · have hkey' : key ∈ (m.mapEntries f).keys := hkeys ▸ hkey
    unfold insert modify
    rw [dif_pos hkey, dif_pos hkey']
    simp only [entries_mapEntries, List.map_map]
    refine List.map_congr_left fun e _ => ?_
    simp only [Function.comp_apply]
    split
    · rename_i heq
      rw [heq]
    · rfl
  · have hkey' : key ∉ (m.mapEntries f).keys := hkeys ▸ hkey
    unfold insert
    rw [dif_neg hkey, dif_neg hkey']
    simp only [entries_mapEntries, List.map_append, List.map_cons, List.map_nil]

/-- Changing values before or after entries are put into one map is the same. -/
theorem ofList_map (f : String → α → β) (es : List (String × α)) :
    ofList (es.map fun e => (e.1, f e.1 e.2)) = (ofList es).mapEntries f := by
  have hfold : ∀ (es : List (String × α)) (m : KeyedMap α),
      (es.map fun e => (e.1, f e.1 e.2)).foldl (fun m p => m.insert p.1 p.2) (m.mapEntries f) =
        (es.foldl (fun m p => m.insert p.1 p.2) m).mapEntries f := by
    intro es
    induction es with
    | nil => exact fun _ => rfl
    | cons e es ih =>
      intro m
      rw [List.map_cons, List.foldl_cons, List.foldl_cons, ← insert_mapEntries]
      exact ih _
  exact hfold es empty

/-- What is stored is there, and all else was there before. -/
theorem mem_insert {key : String} {a : α} {e : String × α} (h : e ∈ (m.insert key a).entries) :
    e ∈ m.entries ∨ e = (key, a) := by
  unfold insert at h
  split at h
  · unfold modify at h
    rw [entries_mapEntries] at h
    obtain ⟨f, hf, rfl⟩ := List.mem_map.1 h
    by_cases hkey : f.1 = key
    · simp [hkey]
    · simp [hkey, hf]
  · simpa using h

/-- The entries of a map are among those that it was built from. -/
theorem mem_ofList {es : List (String × α)} {e : String × α} (h : e ∈ (ofList es).entries) :
    e ∈ es := by
  have hall : ∀ e ∈ (ofList es).entries, e ∈ es := by
    refine foldl_keeps_of_mem (fun m : KeyedMap α => ∀ e ∈ m.entries, e ∈ es) ?_ empty ?_
    · intro m p hp hm e he
      rcases mem_insert he with he | rfl
      · exact hm e he
      · exact hp
    · exact fun e he => absurd he List.not_mem_nil
  exact hall e h

/-! ### Changing keys -/

variable {old new : String}

/-- Renaming a key puts the new key in its place, unless the new key is in use. -/
theorem entries_rename : (m.rename old new).entries =
    if new ∈ m.keys then m.entries
    else m.entries.map fun e => (if e.1 = old then new else e.1, e.2) := by
  have hsame : old ∉ m.keys ∨ old = new →
      (m.entries.map fun e => (if e.1 = old then new else e.1, e.2)) = m.entries := by
    intro h
    refine (List.map_congr_left fun e he => ?_).trans (List.map_id _)
    by_cases hkey : e.1 = old
    · rcases h with h | rfl
      · exact absurd (List.mem_map_of_mem (f := Prod.fst) he) (hkey ▸ h)
      · rw [if_pos hkey, ← hkey]
        rfl
    · rw [if_neg hkey]
      rfl
  unfold rename rename?
  by_cases hold : old = new
  · rw [if_pos hold, hsame (.inr hold), ite_self]
    split <;> rfl
  · rw [if_neg hold]
    by_cases hnew : new ∈ m.keys
    · rw [dif_pos hnew, if_pos hnew]
      rfl
    · rw [dif_neg hnew, if_neg hnew]
      by_cases hin : old ∈ m.keys
      · rw [if_pos hin]
        rfl
      · rw [if_neg hin, hsame (.inl hin)]
        rfl

/-- What renaming a key does to the keys. -/
theorem keys_rename : (m.rename old new).keys =
    if new ∈ m.keys then m.keys else m.keys.map fun k => if k = old then new else k := by
  unfold keys
  rw [entries_rename, keys]
  split
  · rfl
  · rw [List.map_map, List.map_map]
    rfl

/-- To give a key its own name changes nothing. -/
theorem rename_self (m : KeyedMap α) (key : String) : m.rename key key = m := by
  unfold rename rename?
  rw [if_pos rfl]
  split <;> rfl

/-- A key is replaced by another one iff it is there and the other one is not, or the two are the
same. -/
theorem rename?_eq_none_iff : m.rename? old new = none ↔
    ¬ ((m.get? old).isSome ∧ (old = new ∨ m.get? new = none)) := by
  rw [isSome_get?_iff, get?_eq_none_iff]
  unfold rename?
  by_cases hsame : old = new
  · rw [if_pos hsame]
    simp [hsame]
  · rw [if_neg hsame]
    by_cases hnew : new ∈ m.keys
    · simp [hsame, hnew]
    · simp [hsame, hnew]

/-- The keys after one was taken out. -/
theorem keys_erase (m : KeyedMap α) (key : String) :
    (m.erase key).keys = m.keys.filter (· ≠ key) := by
  unfold keys erase
  rw [List.filter_map]
  rfl

/-! ### Other keys -/

/-- The entries under other keys. -/
def rekey (g : String → String) (es : List (String × α)) : List (String × α) :=
  es.map fun e => (g e.1, e.2)

theorem keys_rekey (g : String → String) (es : List (String × α)) :
    (rekey g es).map Prod.fst = (es.map Prod.fst).map g := by
  unfold rekey
  rw [List.map_map, List.map_map]
  rfl

theorem entries_insert (m : KeyedMap α) (key : String) (a : α) : (m.insert key a).entries =
    if key ∈ m.keys then m.entries.map fun e => (e.1, if e.1 = key then a else e.2)
    else m.entries ++ [(key, a)] := by
  unfold insert modify
  split
  · rfl
  · rfl

/-- The keys in order after a value was stored. -/
theorem keys_insert (m : KeyedMap α) (key : String) (a : α) :
    (m.insert key a).keys = if key ∈ m.keys then m.keys else m.keys ++ [key] := by
  unfold keys
  rw [entries_insert, apply_ite (List.map Prod.fst), List.map_map, List.map_append]
  rfl

/-- The keys after a value was stored are the key and those before. -/
theorem mem_keys_insert (m : KeyedMap α) (key : String) (a : α) {k : String} :
    k ∈ (m.insert key a).keys ↔ k ∈ m.keys ∨ k = key := by
  rw [keys_insert]
  split
  · rename_i hkey
    exact ⟨Or.inl, fun h => h.elim id fun hk => hk ▸ hkey⟩
  · rw [List.mem_append, List.mem_singleton]

/-- Storing under another key does to a map with other keys what storing under the key does to the
map, as long as no other key becomes that key. -/
theorem entries_insert_rekey {g : String → String} {m m' : KeyedMap α}
    (hm : m'.entries = rekey g m.entries) {key : String}
    (hinj : ∀ k ∈ m.keys, g k = g key → k = key) (a : α) :
    (m'.insert (g key) a).entries = rekey g (m.insert key a).entries := by
  have hin : g key ∈ m'.keys ↔ key ∈ m.keys := by
    have hkeys : m'.keys = m.keys.map g := by
      unfold keys
      rw [hm, keys_rekey]
    rw [hkeys, List.mem_map]
    constructor
    · rintro ⟨k, hk, hsame⟩
      exact hinj k hk hsame ▸ hk
    · intro hk
      exact ⟨key, hk, rfl⟩
  rw [entries_insert, entries_insert]
  by_cases hk : key ∈ m.keys
  · rw [if_pos hk, if_pos (hin.2 hk), hm]
    unfold rekey
    rw [List.map_map, List.map_map]
    refine List.map_congr_left fun f hf => ?_
    simp only [Function.comp_apply]
    by_cases hsame : f.1 = key
    · rw [if_pos hsame, if_pos (congrArg g hsame)]
    · rw [if_neg hsame, if_neg fun hg => hsame (hinj f.1 (List.mem_map_of_mem hf) hg)]
  · rw [if_neg hk, if_neg (mt hin.1 hk), hm]
    unfold rekey
    rw [List.map_append]
    rfl

/-- Maps built from entries under other keys have the entries of the map under other keys, as long
as different keys stay different. -/
theorem entries_foldl_insert_map {g : String → String} {es : List (String × α)}
    {m m' : KeyedMap α} (hm : m'.entries = rekey g m.entries)
    (hinj : ∀ k ∈ m.keys ++ es.map Prod.fst, ∀ k' ∈ m.keys ++ es.map Prod.fst,
      g k = g k' → k = k') :
    ((rekey g es).foldl (fun m p => m.insert p.1 p.2) m').entries =
      rekey g (es.foldl (fun m p => m.insert p.1 p.2) m).entries := by
  induction es generalizing m m' with
  | nil => exact hm
  | cons e es ih =>
    have he : e.1 ∈ m.keys ++ (e :: es).map Prod.fst :=
      List.mem_append_right _ List.mem_cons_self
    have hstep : (m'.insert (g e.1) e.2).entries = rekey g (m.insert e.1 e.2).entries :=
      entries_insert_rekey hm (fun k hk => hinj k (List.mem_append_left _ hk) e.1 he) e.2
    refine ih hstep ?_
    intro k hk k' hk' hsame
    have hback : ∀ k ∈ (m.insert e.1 e.2).keys ++ es.map Prod.fst,
        k ∈ m.keys ++ (e :: es).map Prod.fst := by
      intro k hk
      rw [List.mem_append, mem_keys_insert] at hk
      rw [List.map_cons, List.mem_append, List.mem_cons]
      tauto
    exact hinj k (hback k hk) k' (hback k' hk') hsame

/-- The map built from entries under other keys, as long as different keys stay different. -/
theorem entries_ofList_map {g : String → String} {es : List (String × α)}
    (hinj : ∀ k ∈ es.map Prod.fst, ∀ k' ∈ es.map Prod.fst, g k = g k' → k = k') :
    (ofList (rekey g es)).entries = rekey g (ofList es).entries :=
  entries_foldl_insert_map rfl hinj

/-- Storing new entries one after the other puts them behind the others. -/
theorem entries_foldl_insert {es : List (String × α)} {m : KeyedMap α}
    (h : (m.keys ++ es.map Prod.fst).Nodup) :
    (es.foldl (fun m p => m.insert p.1 p.2) m).entries = m.entries ++ es := by
  induction es generalizing m with
  | nil => exact (List.append_nil _).symm
  | cons e es ih =>
    have hnew : e.1 ∉ m.keys := by
      intro hin
      exact (List.nodup_append.1 h).2.2 e.1 hin e.1 List.mem_cons_self rfl
    have hentries : (m.insert e.1 e.2).entries = m.entries ++ [e] := by
      rw [entries_insert, if_neg hnew]
    have hkeys : (m.insert e.1 e.2).keys = m.keys ++ [e.1] := by
      unfold keys
      rw [hentries, List.map_append]
      rfl
    rw [List.foldl_cons, ih, hentries, List.append_assoc]
    · rfl
    · rw [hkeys, List.append_assoc]
      exact h

/-- A map is built from its own entries. -/
theorem ofList_entries (m : KeyedMap α) : ofList m.entries = m :=
  KeyedMap.ext (entries_foldl_insert (m := empty) m.nodup)

/-! ### Looking up after a change -/

/-- What is found after a value was stored. -/
theorem get?_insert (m : KeyedMap α) (key : String) (a : α) :
    (m.insert key a).get? = Function.update m.get? key (some a) := by
  funext k
  rw [Function.update_apply]
  by_cases hin : key ∈ m.keys
  · unfold insert
    rw [dif_pos hin, get?_modify]
    split
    · rename_i hkey
      obtain ⟨b, hb⟩ := Option.isSome_iff_exists.1 (isSome_get?_iff.2 hin)
      rw [hkey, hb]
      rfl
    · rfl
  · have hentries : (m.insert key a).entries = m.entries ++ [(key, a)] := by
      rw [entries_insert, if_neg hin]
    refine Option.ext fun b => ?_
    rw [get?_eq_some_iff, hentries, List.mem_append, List.mem_singleton]
    split
    · rename_i hkey
      subst hkey
      rw [← get?_eq_some_iff, get?_eq_none_iff.2 hin]
      simp [eq_comm]
    · rename_i hkey
      rw [← get?_eq_some_iff]
      simp [hkey]

/-- What is found after a key was taken out. -/
theorem get?_erase (m : KeyedMap α) (key : String) :
    (m.erase key).get? = Function.update m.get? key none := by
  funext k
  rw [Function.update_apply]
  refine Option.ext fun b => ?_
  unfold erase
  rw [get?_eq_some_iff, List.mem_filter, ← get?_eq_some_iff]
  split
  · rename_i hkey
    simp [hkey]
  · rename_i hkey
    simp [hkey]

/-- What is found after a key was replaced by another one that was not in use. -/
theorem get?_rename (hnew : new ∉ m.keys) : (m.rename old new).get? =
    Function.update (Function.update m.get? old none) new (m.get? old) := by
  funext k
  refine Option.ext fun b => ?_
  rw [get?_eq_some_iff, entries_rename, if_neg hnew, List.mem_map, Function.update_apply,
    Function.update_apply]
  constructor
  · rintro ⟨e, he, hsame⟩
    obtain ⟨rfl, rfl⟩ := Prod.mk.inj hsame
    have hkey : e.1 ≠ new := fun hkey => hnew (hkey ▸ List.mem_map_of_mem he)
    by_cases hold : e.1 = old
    · rw [if_pos hold, if_pos rfl, ← hold]
      exact get?_eq_some_iff.2 he
    · rw [if_neg hold, if_neg hkey, if_neg hold]
      exact get?_eq_some_iff.2 he
  · split
    · rename_i hk
      intro hb
      exact ⟨(old, b), get?_eq_some_iff.1 hb, by simp [hk]⟩
    · split
      · rintro ⟨⟩
      · rename_i hold
        intro hb
        exact ⟨(k, b), get?_eq_some_iff.1 hb, by simp [hold]⟩

end OrgAlign.KeyedMap
