import OrgAlign.Config.Schema
import OrgAlign.Proofs.KeyedMap
import OrgAlign.Proofs.Sorting

/-!
# Declared accounts by key and by address

Where no key is declared in both sections, a key leads to one declared account. Main statements:

* `KeysApart.account?`: the declared account that a key leads to;
* `mem_allAccounts`, `mem_declaredPaths`: what is declared;
* `map_key_accountByEmail?`: keys and addresses alone decide which key an address leads to.
-/

namespace OrgAlign.Config

namespace Configuration

variable {c : Configuration}

/-- The accounts that a section declares. -/
def inSection (c : Configuration) : AccountSection → KeyedMap AccountEntry
  | .mandatory => c.mandatory
  | .workload => c.workload

/-- An account is declared iff it is an entry of its section. -/
theorem mem_allAccounts {d : Declared} :
    d ∈ c.allAccounts ↔ (c.inSection d.origin).get? d.key = some d.entry := by
  rw [KeyedMap.get?_eq_some_iff]
  unfold allAccounts declaredIn
  rw [List.mem_append, List.mem_map, List.mem_map]
  obtain ⟨key, entry, origin⟩ := d
  cases origin <;> simp [inSection]

theorem mem_addNew {texts : List String} {s r : String} :
    r ∈ addNew texts s ↔ r ∈ texts ∨ r = s := by
  unfold addNew
  split
  · rename_i h
    refine ⟨.inl, ?_⟩
    rintro (hr | rfl)
    · exact hr
    · exact List.contains_iff_mem.1 h
  · rw [List.mem_append, List.mem_singleton]

/-- Adding texts one after the other leaves those that were there and those that were added. -/
theorem mem_foldl_addNew {added texts : List String} {r : String} :
    r ∈ added.foldl addNew texts ↔ r ∈ texts ∨ r ∈ added := by
  induction added generalizing texts with
  | nil => simp
  | cons s added ih => rw [List.foldl_cons, ih, mem_addNew, List.mem_cons, or_assoc]

/-- Adding texts one after the other appends those that are not there, each one once and in
order. -/
theorem foldl_addNew (added texts : List String) :
    added.foldl addNew texts = texts ++ (added.filter (· ∉ texts)).eraseDups := by
  induction added generalizing texts with
  | nil => exact (List.append_nil _).symm
  | cons s added ih =>
    rw [List.foldl_cons, ih]
    by_cases hs : s ∈ texts
    · rw [addNew, if_pos (List.contains_iff_mem.2 hs), List.filter_cons_of_neg (by simpa using hs)]
    · rw [addNew, if_neg (fun h => hs (List.contains_iff_mem.1 h)),
        List.filter_cons_of_pos (by simpa using hs), List.eraseDups_cons, List.filter_filter,
        List.append_assoc, List.singleton_append]
      congr 3
      refine List.filter_congr fun r _ => ?_
      rw [Bool.eq_iff_iff]
      simp [and_comm]

/-- The configuration speaks of the keys of its units and of the paths of its workload accounts. -/
theorem mem_declaredPaths {r : String} : r ∈ c.declaredPaths ↔
    r ∈ c.ous.keys ∨ ∃ d ∈ c.accounts, d.isMandatory = false ∧ d.entry.path = r := by
  unfold declaredPaths
  rw [mem_foldl_addNew, List.mem_map]
  simp only [List.mem_filter, Bool.not_eq_true', and_assoc]

/-- No path is declared twice. -/
theorem nodup_declaredPaths : c.declaredPaths.Nodup := by
  unfold declaredPaths
  rw [foldl_addNew]
  refine List.nodup_append.2 ⟨c.ous.nodup, Sorting.nodup_eraseDups _, ?_⟩
  rintro key hkey path hpath rfl
  rw [List.mem_eraseDups, List.mem_filter] at hpath
  exact of_decide_eq_true hpath.2 hkey

/-- The keys of declared accounts, each with the address in its canonical form. -/
def addresses (c : Configuration) : List (String × String) :=
  c.allAccounts.map fun d => (d.key, Text.lower d.entry.email)

/-- The keys of a section, each with the address in its canonical form. -/
def addressesIn (m : KeyedMap AccountEntry) : List (String × String) :=
  m.entries.map fun e => (e.1, Text.lower e.2.email)

theorem addresses_eq (c : Configuration) :
    c.addresses = addressesIn c.mandatory ++ addressesIn c.workload := by
  unfold addresses allAccounts declaredIn addressesIn
  rw [List.map_append, List.map_map, List.map_map]
  rfl

/-- A change that keeps the address of the entry under a key keeps all addresses. -/
theorem addressesIn_modify {m : KeyedMap AccountEntry} {key : String}
    {f : AccountEntry → AccountEntry}
    (h : ∀ a, m.get? key = some a → Text.lower (f a).email = Text.lower a.email) :
    addressesIn (m.modify key f) = addressesIn m := by
  unfold addressesIn KeyedMap.modify
  rw [KeyedMap.entries_mapEntries, List.map_map]
  refine List.map_congr_left fun e he => ?_
  simp only [Function.comp_apply]
  split
  · rename_i hkey
    rw [h e.2 (KeyedMap.get?_eq_some_iff.2 (hkey ▸ he))]
  · rfl

/-- Keys and addresses alone decide which key an address leads to. -/
theorem map_key_accountByEmail? (c : Configuration) (email : String) :
    (c.accountByEmail? email).map Declared.key =
      (c.addresses.find? fun a => a.2 == Text.lower email).map Prod.fst := by
  unfold accountByEmail? addresses
  rw [List.find?_map, Option.map_map]
  rfl

/-- The declared account that an address leads to. -/
theorem accountByEmail?_spec {email : String} {d : Declared}
    (h : c.accountByEmail? email = some d) :
    d ∈ c.allAccounts ∧ Text.lower d.entry.email = Text.lower email := by
  unfold accountByEmail? at h
  exact ⟨List.mem_of_find?_eq_some h, by simpa using List.find?_some h⟩

end Configuration

/-- No account key is declared in both sections. -/
def KeysApart (c : Configuration) : Prop := ∀ key ∈ c.mandatory.keys, key ∉ c.workload.keys

instance (c : Configuration) : Decidable (KeysApart c) :=
  inferInstanceAs (Decidable (∀ key ∈ c.mandatory.keys, key ∉ c.workload.keys))

namespace KeysApart

variable {c : Configuration}

/-- Then no key is declared twice. -/
theorem nodup_keys (h : KeysApart c) : (c.allAccounts.map Declared.key).Nodup := by
  unfold Configuration.allAccounts declaredIn
  rw [List.map_append, List.map_map, List.map_map]
  refine List.nodup_append'.2 ⟨c.mandatory.nodup, c.workload.nodup, ?_⟩
  exact fun key hm hw => h key hm hw

/-- Then declared accounts with one key are the same. -/
theorem eq (h : KeysApart c) {d e : Declared} (hd : d ∈ c.allAccounts) (he : e ∈ c.allAccounts)
    (hkey : d.key = e.key) : d = e :=
  List.inj_on_of_nodup_map h.nodup_keys hd he hkey

/-- Then the key of a declared account leads to it. -/
theorem account? (h : KeysApart c) {d : Declared} (hd : d ∈ c.allAccounts) :
    c.account? d.key = some d :=
  find?_of_nodup h.nodup_keys hd

end KeysApart
end OrgAlign.Config
