import Mathlib.Data.List.Forall2
import OrgAlign.Config.Rename
import OrgAlign.Proofs.Config.Layers
import OrgAlign.Proofs.KeyedMap
import OrgAlign.Proofs.Path
import OrgAlign.Proofs.Walks

/-!
# What renaming a unit does to keys

Keys are renamed one after the other in every file, and a new key that is in use there stops a
renaming silently. Main statements:

* `forall₂_renameKeys`: a key that is renamed to a free place takes that place, and a key that is
  not renamed stays;
* `Workspace.forall₂_renameOu`: what renaming a unit makes of each key of each file.
-/

namespace OrgAlign.Config

/-! ### Which keys -/

variable {old new : String} {keys : List String}

theorem mem_renamings {r : Renaming} :
    r ∈ renamings keys old new ↔ r.1 ∈ keys ∧ Path.rebase r.1 old new = some r.2 := by
  unfold renamings
  rw [List.mem_filterMap]
  constructor
  · rintro ⟨key, hkey, hr⟩
    obtain ⟨target, htarget, rfl⟩ := Option.map_eq_some_iff.1 hr
    rw [Sorting.mem_sort, List.mem_eraseDups] at hkey
    exact ⟨hkey, htarget⟩
  · rintro ⟨hkey, hr⟩
    refine ⟨r.1, by rwa [Sorting.mem_sort, List.mem_eraseDups], ?_⟩
    rw [hr]
    rfl

/-- Only keys at or below the unit's old path are renamed. -/
theorem under_of_mem_renamings {r : Renaming} (hr : r ∈ renamings keys old new) :
    Path.Under r.1 old := by
  by_contra hunder
  have hrebase := (mem_renamings.1 hr).2
  rw [Path.rebase_eq_none_iff.2 hunder] at hrebase
  cases hrebase

/-- No key is renamed iff none is at or below the unit's old path. -/
theorem renamings_eq_nil_iff :
    renamings keys old new = [] ↔ ∀ k ∈ keys, ¬ Path.Under k old := by
  constructor
  · intro hnone k hk hunder
    obtain ⟨t, ht, -⟩ := Path.exists_rebase hunder new
    have hin : (k, t) ∈ renamings keys old new := mem_renamings.2 ⟨hk, ht⟩
    rw [hnone] at hin
    exact List.not_mem_nil hin
  · intro hstay
    refine List.eq_nil_iff_forall_not_mem.2 fun r hr => ?_
    exact hstay r.1 (mem_renamings.1 hr).1 (under_of_mem_renamings hr)

/-- A list of renamings that agree where they start from or lead to the same. -/
def OneToOne (rs : List Renaming) : Prop :=
  ∀ r ∈ rs, ∀ r' ∈ rs, r.1 = r'.1 ∨ r.2 = r'.2 → r = r'

theorem oneToOne_renamings : OneToOne (renamings keys old new) := by
  intro r hr r' hr' h
  obtain ⟨-, hrebase⟩ := mem_renamings.1 hr
  obtain ⟨-, hrebase'⟩ := mem_renamings.1 hr'
  rcases h with h | h
  · rw [h, hrebase'] at hrebase
    exact Prod.ext h (Option.some.inj hrebase).symm
  · rw [h] at hrebase
    exact Prod.ext (Path.rebase_inj hrebase hrebase') h

theorem OneToOne.reverse {rs : List Renaming} (h : OneToOne rs) : OneToOne rs.reverse :=
  fun r hr r' hr' => h r (List.mem_reverse.1 hr) r' (List.mem_reverse.1 hr')

/-- Where no conflict is found, a place that stays is not in use. -/
theorem not_mem_of_conflict?_eq_none (h : conflict? keys (renamings keys old new) = none)
    {r : Renaming} (hr : r ∈ renamings keys old new) (hunder : ¬ Path.Under r.2 old) :
    r.2 ∉ keys := by
  intro hin
  have hnone := List.find?_eq_none.1 h r hr
  rw [Bool.and_eq_true, not_and, List.contains_iff_mem, Bool.not_eq_true', Bool.not_eq_false,
    List.any_eq_true] at hnone
  obtain ⟨source, hsource, hsame⟩ := hnone hin
  rw [← beq_iff_eq.1 hsame] at hunder
  exact hunder (under_of_mem_renamings hsource)

/-! ### One map -/

section

variable {α : Type}

/-- What a key becomes: it stays if no renaming is for it, and a renaming to a place that is neither
in use nor to be renamed takes it there. -/
def Renamed (rs : List Renaming) (taken : List String) (k k' : String) : Prop :=
  ((∀ r ∈ rs, r.1 ≠ k) → k' = k) ∧
    ∀ t, (k, t) ∈ rs → t ∉ taken → (∀ r ∈ rs, r.1 ≠ t) → k' = t

/-- What the first of several renamings makes of each key. -/
theorem forall₂_rename (m : KeyedMap α) (r : Renaming) :
    List.Forall₂ (fun k k' => k' = if r.2 ∈ m.keys then k else if k = r.1 then r.2 else k)
      m.keys (m.rename r.1 r.2).keys := by
  rw [KeyedMap.keys_rename]
  split
  · exact List.forall₂_same.2 fun _ _ => rfl
  · exact List.forall₂_map_right_iff.2 (List.forall₂_same.2 fun _ _ => rfl)

/-- A renaming brings one key at most into use. -/
theorem not_mem_keys_rename {m : KeyedMap α} {r : Renaming} {t : String} (ht : t ∉ m.keys)
    (hne : t ≠ r.2) : t ∉ (m.rename r.1 r.2).keys := by
  intro hin
  obtain ⟨k, hk, hstep⟩ := forall₂_exists_left (forall₂_rename m r) hin
  split at hstep
  · exact ht (hstep ▸ hk)
  · split at hstep
    · exact hne hstep
    · exact ht (hstep ▸ hk)

/-- What one more renaming in front makes of a key. -/
theorem Renamed.cons {r : Renaming} {rs : List Renaming} (hrs : OneToOne (r :: rs))
    {taken taken₁ : List String} (hfree : ∀ t ∉ taken, t ≠ r.2 → t ∉ taken₁) {k k₁ k' : String}
    (hstep : k₁ = if r.2 ∈ taken then k else if k = r.1 then r.2 else k)
    (hlast : Renamed rs taken₁ k₁ k') : Renamed (r :: rs) taken k k' := by
  constructor
  · intro hk
    have hsame : k₁ = k := by
      rw [hstep, if_neg (Ne.symm (hk r List.mem_cons_self)), ite_self]
    subst hsame
    exact hlast.1 fun a ha => hk a (List.mem_cons_of_mem r ha)
  · intro t hin ht hend
    have hend' : ∀ a ∈ rs, a.1 ≠ t := fun a ha => hend a (List.mem_cons_of_mem r ha)
    by_cases hr : r = (k, t)
    · subst hr
      have hmoved : k₁ = t := by
        rw [hstep, if_neg ht, if_pos rfl]
      subst hmoved
      exact hlast.1 hend'
    · -- the first renaming is for another key and leads elsewhere
      have hne : k ≠ r.1 := fun h => hr (hrs r List.mem_cons_self _ hin (.inl h.symm))
      have hne' : t ≠ r.2 := fun h => hr (hrs r List.mem_cons_self _ hin (.inr h.symm))
      have hsame : k₁ = k := by
        rw [hstep, if_neg hne, ite_self]
      subst hsame
      have hin' : (k₁, t) ∈ rs := (List.mem_cons.1 hin).resolve_left (Ne.symm hr)
      exact hlast.2 t hin' (hfree t ht hne') hend'

/-- What making renamings one after the other makes of each key. -/
theorem forall₂_renameKeys {rs : List Renaming} (hrs : OneToOne rs) (m : KeyedMap α) :
    List.Forall₂ (Renamed rs m.keys) m.keys (renameKeys m rs).keys := by
  induction rs generalizing m with
  | nil =>
    exact List.forall₂_same.2 fun k _ => ⟨fun _ => rfl, fun t ht => absurd ht List.not_mem_nil⟩
  | cons r rs ih =>
    have hrest := ih (fun a ha b hb =>
      hrs a (List.mem_cons_of_mem r ha) b (List.mem_cons_of_mem r hb)) (m.rename r.1 r.2)
    exact forall₂_trans (fun k k₁ k' hstep hlast =>
      hlast.cons hrs (fun t => not_mem_keys_rename) hstep) (forall₂_rename m r) hrest

/-- What renaming a unit makes of a key: a key that lies elsewhere stays, and a key at or below the
unit follows it, unless that would lead back to where the unit was. -/
def Follows (old new k k' : String) : Prop :=
  (¬ Path.Under k old → k' = k) ∧
    ∀ t, Path.rebase k old new = some t → ¬ Path.Under t old → k' = t

/-- What renaming a unit without a conflict makes of the keys of one file. -/
theorem forall₂_follows (h : conflict? keys (renamings keys old new) = none) {m : KeyedMap α}
    (hm : ∀ k ∈ m.keys, k ∈ keys) :
    List.Forall₂ (Follows old new) m.keys (renameKeys m (renamings keys old new).reverse).keys := by
  have hsource : ∀ k, ¬ Path.Under k old → ∀ r ∈ (renamings keys old new).reverse, r.1 ≠ k := by
    intro k hunder r hr hsame
    exact hunder (hsame ▸ under_of_mem_renamings (List.mem_reverse.1 hr))
  refine ((List.forall₂_and_left (p := (· ∈ m.keys)) _ _).2
    ⟨fun k hk => hk, forall₂_renameKeys oneToOne_renamings.reverse m⟩).imp ?_
  rintro k k' ⟨hk, hstays, hmoves⟩
  refine ⟨fun hunder => hstays (hsource k hunder), fun t ht hunder => ?_⟩
  have hin : (k, t) ∈ renamings keys old new := mem_renamings.2 ⟨hm k hk, ht⟩
  have hfree : t ∉ keys := not_mem_of_conflict?_eq_none h hin hunder
  exact hmoves t (List.mem_reverse.2 hin) (fun ht => hfree (hm t ht)) (hsource t hunder)

/-- The same for the keys of several files. -/
theorem forall₂_follows_flatMap (h : conflict? keys (renamings keys old new) = none)
    {ms : List (KeyedMap α)} (hms : ∀ m ∈ ms, ∀ k ∈ m.keys, k ∈ keys) :
    List.Forall₂ (Follows old new) (ms.flatMap KeyedMap.keys)
      (ms.flatMap fun m => (renameKeys m (renamings keys old new).reverse).keys) := by
  induction ms with
  | nil => exact .nil
  | cons m ms ih =>
    exact List.rel_append (forall₂_follows h (hms m List.mem_cons_self))
      (ih fun m' hm' => hms m' (List.mem_cons_of_mem m hm'))

/-- Renaming keys of files renames the keys of each, wherever the files move. -/
theorem entries_renameFiles (rs : List Renaming) (fs : List (SplitFile α)) (r : Relocations) :
    (renameFiles rs fs r).1.map SplitFile.entries = fs.map fun f => renameKeys f.entries rs := by
  induction fs generalizing r with
  | nil => rfl
  | cons f fs ih =>
    have hentries : (f.rename rs r).1.entries = renameKeys f.entries rs := by
      unfold SplitFile.rename
      simp only
      split <;> rfl
    change (f.rename rs r).1.entries :: (renameFiles rs fs _).1.map SplitFile.entries = _
    rw [ih, hentries]
    rfl

end

/-! ### The workspace -/

/-- Renaming the keys of units renames them map by map, if nothing is in conflict. -/
theorem layers_renameOuKeys {w : Workspace} {r : Workspace × Bool}
    (h : w.renameOuKeys old new = .ok r) :
    conflict? w.ous.keys (renamings w.ous.keys old new) = none ∧
      r.1.ous.layers =
        w.ous.layers.map fun m => renameKeys m (renamings w.ous.keys old new).reverse := by
  obtain ⟨hconflict, ⟨hnone, rfl⟩ | ⟨entries, hpart, rfl⟩ | ⟨listed, _, hpart, rfl, rfl⟩⟩ :=
    Workspace.renameOuKeys_eq_ok h
  · rw [hnone]
    exact ⟨by rw [← hnone, hconflict], (List.map_id _).symm⟩
  · refine ⟨hconflict, ?_⟩
    unfold Shelf.layers
    rw [hpart]
    rfl
  · refine ⟨hconflict, ?_⟩
    unfold Shelf.layers
    rw [hpart]
    change (renameFiles _ _ _).1.map SplitFile.entries = _
    rw [entries_renameFiles, List.map_map]
    rfl

namespace Workspace

variable {w : Workspace} {r : Workspace × Bool}

/-- What renaming the units' keys makes of each key of each file. -/
theorem forall₂_renameOuKeys (h : w.renameOuKeys old new = .ok r) :
    List.Forall₂ (Follows old new) w.ous.keys r.1.ous.keys := by
  obtain ⟨hconflict, hlayers⟩ := layers_renameOuKeys h
  rw [Shelf.keys_eq_layers, Shelf.keys_eq_layers, hlayers, List.flatMap_map]
  exact forall₂_follows_flatMap hconflict fun m hm k => Shelf.mem_keys_of_layer hm

/-- What renaming a unit makes of each key of each file. -/
theorem forall₂_renameOu (hne : old ≠ new) (h : w.renameOu old new = .ok r) :
    List.Forall₂ (Follows old new) w.ous.keys r.1.ous.keys := by
  refine renameOu_gives (fun w' => List.Forall₂ (Follows old new) w.ous.keys w'.ous.keys)
    (fun hsame => absurd hsame hne) (fun _ _ hr => forall₂_renameOuKeys hr) (fun _ _ _ hw' => ?_) h
  rwa [ous_editAccount]

end Workspace
end OrgAlign.Config
