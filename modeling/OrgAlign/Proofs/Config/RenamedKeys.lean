import OrgAlign.Proofs.Config.Renames
import OrgAlign.Proofs.Sorting

/-!
# The keys of units after a renaming

Renaming a unit should move every key at or below it and leave the other keys where they are. The
keys are renamed one after the other, the last in text order first, and a step that finds its target
in use is passed over. Main statements:

* `entries_renameKeys`: renaming one after the other is renaming all at once, as long as no key
  moves onto a key that is still to be renamed (`InOrder`);
* `keys_renameKeys_of_waiting`: a key that would move onto such a key stays;
* `renameOu_moves_keys`: the merged keys are moved all at once if they are in order, and in an
  inline section only then;
* `renameOu_leaves_key`: two keys that are not.
-/

namespace OrgAlign

namespace Path

/-- Where a path is after `old` moved to `new`: what is at or below `old` goes along, everything
else stays. -/
def moved (old new path : String) : String := (rebase path old new).getD path

end Path

namespace Config

open KeyedMap (rekey)

variable {α : Type} {old new : String} {keys : List String}

/-! ### The order of the renamings -/

/-- The renamings are sorted by the keys they are for, and each key has one. -/
theorem pairwise_renamings :
    (renamings keys old new).Pairwise fun r r' => r.1 < r'.1 := by
  have hnodup : (Sorting.sort Sorting.textBefore keys.eraseDups).Nodup := by
    rw [(Sorting.sort_perm Sorting.textBefore keys.eraseDups).nodup_iff]
    exact Sorting.nodup_eraseDups keys
  have hsorted : (Sorting.sort Sorting.textBefore keys.eraseDups).Pairwise fun a b => a < b := by
    have hle := Sorting.pairwise_sort_text keys.eraseDups
    exact (List.pairwise_and_iff.2 ⟨hle, hnodup⟩).imp fun h => lt_of_le_of_ne h.1 h.2
  unfold renamings
  refine List.pairwise_filterMap.2 (hsorted.imp ?_)
  intro a b hab r hr r' hr'
  obtain ⟨t, -, rfl⟩ := Option.map_eq_some_iff.1 hr
  obtain ⟨t', -, rfl⟩ := Option.map_eq_some_iff.1 hr'
  exact hab

/-- What comes before a renaming is for later keys, and what comes after it for earlier ones. -/
theorem sources_of_split {before after : List Renaming} {r : Renaming}
    (h : (renamings keys old new).reverse = before ++ r :: after) :
    (∀ b ∈ before, r.1 < b.1) ∧ ∀ a ∈ after, a.1 < r.1 := by
  have hsorted : (before ++ r :: after).Pairwise fun a b => b.1 < a.1 := by
    rw [← h, List.pairwise_reverse]
    exact pairwise_renamings
  obtain ⟨-, hafter, hacross⟩ := List.pairwise_append.1 hsorted
  refine ⟨?_, (List.pairwise_cons.1 hafter).1⟩
  intro b hb
  exact hacross b hb r List.mem_cons_self

/-! ### One after the other and all at once -/

/-- No key moves onto a key that comes before it in text order, and so is still to be renamed. -/
def InOrder (keys : List String) (old new : String) : Prop :=
  ∀ k ∈ keys, ∀ t ∈ keys, Path.rebase k old new = some t → Sorting.textBefore k t = true

instance : Decidable (InOrder keys old new) :=
  inferInstanceAs (Decidable (∀ k ∈ keys, ∀ t ∈ keys,
    Path.rebase k old new = some t → Sorting.textBefore k t = true))

theorem InOrder.lt (h : InOrder keys old new) {k t : String} (hk : k ∈ keys) (ht : t ∈ keys)
    (hrebase : Path.rebase k old new = some t) : k < t :=
  of_decide_eq_true (h k hk t ht hrebase)

/-- Where the renamings made so far have taken a key. -/
def movedBy (old new : String) (done : List Renaming) (k : String) : String :=
  if k ∈ done.map Prod.fst then Path.moved old new k else k

theorem moved_of_mem_renamings {r : Renaming} (h : r ∈ renamings keys old new) :
    Path.moved old new r.1 = r.2 := by
  unfold Path.moved
  rw [(mem_renamings.1 h).2]
  rfl

section

variable {before after : List Renaming} {r : Renaming}
variable (hsplit : (renamings keys old new).reverse = before ++ r :: after)
variable (horder : InOrder keys old new)

include hsplit

theorem mem_of_split : r ∈ renamings keys old new := by
  rw [← List.mem_reverse, hsplit]
  exact List.mem_append_right _ List.mem_cons_self

/-- A renaming made before is one of them. -/
theorem mem_of_done {k : String} (h : k ∈ before.map Prod.fst) :
    (k, Path.moved old new k) ∈ renamings keys old new ∧ r.1 < k := by
  obtain ⟨b, hb, rfl⟩ := List.mem_map.1 h
  have hin : b ∈ renamings keys old new := by
    rw [← List.mem_reverse, hsplit]
    exact List.mem_append_left _ hb
  rw [moved_of_mem_renamings hin]
  exact ⟨hin, (sources_of_split hsplit).1 b hb⟩

theorem not_done : r.1 ∉ before.map Prod.fst := fun h => lt_irrefl _ (mem_of_done hsplit h).2

include horder

/-- No renaming made before has taken another key to where this one starts. -/
theorem eq_of_movedBy_eq_source {j : String} (hj : j ∈ keys)
    (h : movedBy old new before j = r.1) : j = r.1 := by
  unfold movedBy at h
  split at h
  · rename_i hdone
    obtain ⟨hin, hlt⟩ := mem_of_done hsplit hdone
    rw [h] at hin
    have hsource := (mem_renamings.1 (mem_of_split hsplit)).1
    exact absurd (horder.lt hj hsource (mem_renamings.1 hin).2) (lt_asymm hlt)
  · exact h

/-- When a key's turn comes, no key is where it goes. -/
theorem movedBy_ne_target (hconflict : conflict? keys (renamings keys old new) = none)
    {j : String} (hj : j ∈ keys) : movedBy old new before j ≠ r.2 := by
  have hr := mem_of_split hsplit
  intro h
  unfold movedBy at h
  split at h
  · -- only the key itself goes there
    rename_i hdone
    obtain ⟨hin, hlt⟩ := mem_of_done hsplit hdone
    rw [h] at hin
    have hsame : j = r.1 := Path.rebase_inj (mem_renamings.1 hin).2 (mem_renamings.1 hr).2
    exact absurd hlt (hsame ▸ lt_irrefl _)
  · rename_i hwaits
    subst h
    -- a key that is there stays, which is a conflict, or it was renamed before
    have hunder : Path.Under r.2 old := by
      by_contra hstays
      exact not_mem_of_conflict?_eq_none hconflict hr hstays hj
    obtain ⟨target, htarget, -⟩ := Path.exists_rebase hunder new
    have hin : (r.2, target) ∈ (renamings keys old new).reverse :=
      List.mem_reverse.2 (mem_renamings.2 ⟨hj, htarget⟩)
    have hlt : r.1 < r.2 := horder.lt (mem_renamings.1 hr).1 hj (mem_renamings.1 hr).2
    rw [hsplit, List.mem_append, List.mem_cons] at hin
    rcases hin with hin | hsame | hin
    · exact hwaits (List.mem_map_of_mem (f := Prod.fst) hin)
    · exact (ne_of_lt hlt) (congrArg Prod.fst hsame).symm
    · exact lt_asymm hlt ((sources_of_split hsplit).2 _ hin)

/-- Making one more renaming. -/
theorem entries_rename_next (hconflict : conflict? keys (renamings keys old new) = none)
    {m m' : KeyedMap α} (hm : ∀ k ∈ m.keys, k ∈ keys)
    (h : m'.entries = rekey (movedBy old new before) m.entries) :
    (m'.rename r.1 r.2).entries = rekey (movedBy old new (before ++ [r])) m.entries := by
  have hnext : ∀ k, movedBy old new (before ++ [r]) k =
      if k = r.1 then r.2 else movedBy old new before k := by
    intro k
    unfold movedBy
    simp only [List.map_append, List.map_cons, List.map_nil, List.mem_append, List.mem_singleton]
    by_cases hk : k = r.1
    · subst hk
      simp [moved_of_mem_renamings (mem_of_split hsplit)]
    · simp only [hk, or_false, if_false]
  have hkey : ∀ e ∈ m.entries, e.1 ∈ keys := fun e he =>
    hm e.1 (List.mem_map_of_mem (f := Prod.fst) he)
  have hfree : r.2 ∉ m'.keys := by
    unfold KeyedMap.keys
    rw [h, KeyedMap.keys_rekey, List.mem_map]
    rintro ⟨j, hj, htaken⟩
    exact movedBy_ne_target hsplit horder hconflict (hm j hj) htaken
  rw [KeyedMap.entries_rename, if_neg hfree, h]
  unfold rekey
  rw [List.map_map]
  refine List.map_congr_left fun e he => ?_
  rw [Function.comp_apply, hnext]
  by_cases hk : e.1 = r.1
  · have hwaits : movedBy old new before e.1 = r.1 := by
      unfold movedBy
      rw [hk, if_neg (not_done hsplit)]
    rw [if_pos hwaits, if_pos hk]
  · rw [if_neg fun hsame => hk (eq_of_movedBy_eq_source hsplit horder (hkey e he) hsame),
      if_neg hk]

end

/-- Making the renamings that are left. -/
theorem entries_renameKeys_left (hconflict : conflict? keys (renamings keys old new) = none)
    (horder : InOrder keys old new) {before left : List Renaming}
    (hsplit : (renamings keys old new).reverse = before ++ left) {m m' : KeyedMap α}
    (hm : ∀ k ∈ m.keys, k ∈ keys)
    (h : m'.entries = rekey (movedBy old new before) m.entries) :
    (renameKeys m' left).entries =
      rekey (movedBy old new (renamings keys old new).reverse) m.entries := by
  induction left generalizing before m' with
  | nil =>
    rw [hsplit, List.append_nil]
    exact h
  | cons r left ih =>
    have hnext : (renamings keys old new).reverse = (before ++ [r]) ++ left := by
      rw [hsplit, List.append_assoc]
      rfl
    exact ih hnext (entries_rename_next hsplit horder hconflict hm h)

/-- **Renaming keys in order is renaming them all at once.** -/
theorem entries_renameKeys (hconflict : conflict? keys (renamings keys old new) = none)
    (horder : InOrder keys old new) {m : KeyedMap α} (hm : ∀ k ∈ m.keys, k ∈ keys) :
    (renameKeys m (renamings keys old new).reverse).entries =
      rekey (Path.moved old new) m.entries := by
  have hstart : m.entries = rekey (movedBy old new []) m.entries := by
    unfold rekey movedBy
    simp
  rw [entries_renameKeys_left hconflict horder (List.nil_append _).symm hm hstart]
  refine List.map_congr_left fun e he => ?_
  have hin := hm e.1 (List.mem_map_of_mem (f := Prod.fst) he)
  unfold movedBy
  split
  · rfl
  · rename_i hnone
    -- a key that no renaming is for is not moved
    have hrebase : Path.rebase e.1 old new = none := by
      rw [Option.eq_none_iff_forall_ne_some]
      intro t ht
      have hrenamed : (e.1, t) ∈ (renamings keys old new).reverse :=
        List.mem_reverse.2 (mem_renamings.2 ⟨hin, ht⟩)
      exact hnone (List.mem_map_of_mem (f := Prod.fst) hrenamed)
    unfold Path.moved
    rw [hrebase]
    rfl

/-- A key stays that would move onto one that is still to be renamed. -/
theorem keys_renameKeys_of_waiting {k t : String} (hrebase : Path.rebase k old new = some t)
    (hk : k ∈ keys) (hlt : t < k) {m : KeyedMap α} (ht : t ∈ m.keys) :
    List.Forall₂ (fun a b => a = k → b = k) m.keys
      (renameKeys m (renamings keys old new).reverse).keys := by
  have hin : (k, t) ∈ (renamings keys old new).reverse :=
    List.mem_reverse.2 (mem_renamings.2 ⟨hk, hrebase⟩)
  obtain ⟨before, after, hsplit⟩ := List.append_of_mem hin
  obtain ⟨hbefore, hafter⟩ := sources_of_split hsplit
  have honce : OneToOne (before ++ (k, t) :: after) := by
    rw [← hsplit]
    exact oneToOne_renamings.reverse
  have honceBefore : OneToOne before := fun r hr r' hr' =>
    honce r (List.mem_append_left _ hr) r' (List.mem_append_left _ hr')
  have honceAfter : OneToOne after := fun r hr r' hr' =>
    honce r (List.mem_append_right _ (List.mem_cons_of_mem _ hr)) r'
      (List.mem_append_right _ (List.mem_cons_of_mem _ hr'))
  -- up to the key's turn, neither the key nor the one in its way has moved
  have hfirst := forall₂_renameKeys honceBefore m
  have hstill : t ∈ (renameKeys m before).keys := by
    obtain ⟨t', ht', hstays⟩ := forall₂_exists_right hfirst ht
    have hsame : t' = t := hstays.1 fun r hr hsource =>
      lt_asymm hlt (hsource ▸ hbefore r hr)
    exact hsame ▸ ht'
  have hrefused : ((renameKeys m before).rename k t) = renameKeys m before := by
    refine KeyedMap.ext ?_
    rw [KeyedMap.entries_rename, if_pos hstill]
  have hlast := forall₂_renameKeys honceAfter (renameKeys m before)
  have hall : renameKeys m (renamings keys old new).reverse =
      renameKeys (renameKeys m before) after := by
    rw [hsplit]
    unfold renameKeys
    rw [List.foldl_append, List.foldl_cons]
    exact congrArg (fun m' => renameKeys m' after) hrefused
  rw [hall]
  refine forall₂_trans (fun a b c hab hbc => ?_) hfirst hlast
  rintro rfl
  have hb : b = a := hab.1 fun r hr => (ne_of_lt (hbefore r hr)).symm
  subst hb
  exact hbc.1 fun r hr => ne_of_lt (hafter r hr)

/-! ### The merged view -/

/-- Where nothing is in conflict, different keys move to different places. -/
theorem moved_inj (hconflict : conflict? keys (renamings keys old new) = none) {k k' : String}
    (hk : k ∈ keys) (hk' : k' ∈ keys) (h : Path.moved old new k = Path.moved old new k') :
    k = k' := by
  have hmeet : ∀ {a b t : String}, a ∈ keys → b ∈ keys → Path.rebase a old new = some t →
      Path.rebase b old new = none → t ≠ b := by
    rintro a _ t ha hb hmoves hstays rfl
    have hin : (a, t) ∈ renamings keys old new := mem_renamings.2 ⟨ha, hmoves⟩
    exact not_mem_of_conflict?_eq_none hconflict hin (Path.rebase_eq_none_iff.1 hstays) hb
  unfold Path.moved at h
  cases ha : Path.rebase k old new with
  | none =>
    cases hb : Path.rebase k' old new with
    | none => simpa [ha, hb] using h
    | some t =>
      rw [ha, hb] at h
      exact absurd h.symm (hmeet hk' hk hb ha)
  | some t =>
    cases hb : Path.rebase k' old new with
    | none =>
      rw [ha, hb] at h
      exact absurd h (hmeet hk hk' ha hb)
    | some t' =>
      rw [ha, hb] at h
      obtain rfl : t = t' := h
      exact Path.rebase_inj ha hb

namespace Workspace

variable {w : Workspace} {r : Workspace × Bool}

/-- Renaming keys in order moves the merged keys all at once. -/
theorem merged_renameOuKeys (h : w.renameOuKeys old new = .ok r)
    (horder : InOrder w.ous.keys old new) :
    r.1.ous.merged.entries = rekey (Path.moved old new) w.ous.merged.entries := by
  obtain ⟨hconflict, hlayers⟩ := layers_renameOuKeys h
  have hmoved : (w.ous.layers.flatMap fun m =>
        (renameKeys m (renamings w.ous.keys old new).reverse).entries) =
      rekey (Path.moved old new) (w.ous.layers.flatMap KeyedMap.entries) := by
    unfold rekey
    rw [List.map_flatMap]
    refine List.flatMap_congr fun m hm => ?_
    exact entries_renameKeys hconflict horder fun k hk => Shelf.mem_keys_of_layer hm hk
  have hkeys : ∀ k ∈ (w.ous.layers.flatMap KeyedMap.entries).map Prod.fst, k ∈ w.ous.keys := by
    intro k hk
    rw [List.map_flatMap] at hk
    rw [Shelf.keys_eq_layers]
    exact hk
  rw [Shelf.merged_eq_layers, hlayers, List.flatMap_map, hmoved, Shelf.merged_eq_layers]
  refine KeyedMap.entries_ofList_map ?_
  intro k hk k' hk' hsame
  exact moved_inj hconflict (hkeys k hk) (hkeys k' hk') hsame

/-- In an inline section the keys are moved all at once only if they are in order. -/
theorem inOrder_of_merged (hne : old ≠ new) (h : w.renameOuKeys old new = .ok r)
    {entries : KeyedMap OuEntry} (hpart : w.ous.part = .inline entries)
    (hmoved : r.1.ous.merged.entries = rekey (Path.moved old new) w.ous.merged.entries) :
    InOrder w.ous.keys old new := by
  obtain ⟨-, hlayers⟩ := layers_renameOuKeys h
  have hone : w.ous.layers = [entries] := by
    unfold Shelf.layers
    rw [hpart]
  have hkeys : w.ous.keys = entries.keys := by
    rw [Shelf.keys_eq_layers, hone, List.flatMap_singleton]
  rw [Shelf.merged_eq_layers, Shelf.merged_eq_layers, hlayers, hone, List.map_singleton,
    List.flatMap_singleton, List.flatMap_singleton, KeyedMap.ofList_entries,
    KeyedMap.ofList_entries] at hmoved
  intro k hk t ht hrebase
  by_contra hnot
  have hne' : t ≠ k := Path.rebase_ne hne hrebase
  have hlt : t < k := by
    refine lt_of_le_of_ne ?_ hne'
    rw [Bool.not_eq_true] at hnot
    exact Sorting.textBefore_eq_false.1 hnot
  have hstays := keys_renameKeys_of_waiting hrebase hk hlt (hkeys ▸ ht)
  have hentries : (renameKeys entries (renamings w.ous.keys old new).reverse).keys =
      entries.keys.map (Path.moved old new) := by
    unfold KeyedMap.keys
    rw [hmoved, KeyedMap.keys_rekey]
  rw [hentries, List.forall₂_map_right_iff, List.forall₂_same] at hstays
  have hsame := hstays k (hkeys ▸ hk) rfl
  unfold Path.moved at hsame
  rw [hrebase] at hsame
  exact hne' hsame

/-- **Renaming a unit moves the merged keys all at once** if they are in order: every key at or
below the unit's old path goes along to the new one, all other keys stay, and so do the order and
the entries. In an inline section this is so only if they are. -/
theorem renameOu_moves_keys (hne : old ≠ new) {w' : Workspace} {changed : Bool}
    (h : w.renameOu old new = .ok (w', changed)) :
    (InOrder w.ous.keys old new →
      w'.merged.ous.entries =
        w.merged.ous.entries.map fun e => (Path.moved old new e.1, e.2)) ∧
    ∀ entries, w.ous.part = .inline entries →
      w'.merged.ous.entries =
        w.merged.ous.entries.map (fun e => (Path.moved old new e.1, e.2)) →
      InOrder w.ous.keys old new := by
  refine renameOu_gives (fun w' => (InOrder w.ous.keys old new →
      w'.ous.merged.entries = rekey (Path.moved old new) w.ous.merged.entries) ∧
    ∀ entries, w.ous.part = .inline entries →
      w'.ous.merged.entries = rekey (Path.moved old new) w.ous.merged.entries →
      InOrder w.ous.keys old new) ?_ ?_ ?_ h
  · intro hsame
    exact absurd hsame hne
  · intro _ r hr
    exact ⟨merged_renameOuKeys hr, fun entries hpart => inOrder_of_merged hne hr hpart⟩
  · intro w'' s key hw
    rw [ous_editAccount]
    exact hw

/-- A configuration that declares a unit `A`, a unit `B` below it and others, in two files. -/
def splitUnits : Workspace :=
  { rootPath := "c.yaml", options := {}, mandatory := ⟨.inline .empty, []⟩
    workload := ⟨.inline .empty, []⟩, extra := [], rootDirty := false, deleted := []
    loadedTexts := []
    ous := ⟨.load ["a.yaml", "b.yaml"],
      [⟨"a.yaml", .ofList [("A", { scps := ["P"] }), ("C", {})], false⟩,
        ⟨"b.yaml", .ofList [("A/B", {}), ("A/X", {}), ("A", { scps := ["Q"] })], false⟩]⟩ }

/-- The configuration after `A` moved to `A/B`. -/
def deeperUnits : Workspace :=
  ((splitUnits.renameOu "A" "A/B").toOption.get (by decide +kernel)).1

/-- A unit moves to the place of one below it, which goes along. -/
theorem renameOu_moves_keys_down : "A" ≠ "A/B" ∧
    splitUnits.renameOu "A" "A/B" = .ok (deeperUnits, true) ∧
    InOrder splitUnits.ous.keys "A" "A/B" ∧
    deeperUnits.merged.ous.entries = splitUnits.merged.ous.entries.map
      (fun e => (Path.moved "A" "A/B" e.1, e.2)) ∧
    deeperUnits.merged.ous.keys = ["A/B", "C", "A/B/B", "A/B/X"] := by
  have hne : "A" ≠ "A/B" := by decide
  have hrename : splitUnits.renameOu "A" "A/B" = .ok (deeperUnits, true) := by decide +kernel
  have horder : InOrder splitUnits.ous.keys "A" "A/B" := by decide +kernel
  exact ⟨hne, hrename, horder, (renameOu_moves_keys hne hrename).1 horder, by decide +kernel⟩

/-- A configuration that declares units in one section. -/
def inlineUnits (keys : List String) : Workspace :=
  { splitUnits with ous := ⟨.inline (.ofList (keys.map fun key => (key, {}))), []⟩ }

/-- The keys of units after one of them moved, unless it cannot. -/
def keysAfter? (w : Workspace) (old new : String) : Option (List String) :=
  (w.renameOu old new).toOption.map fun r => r.1.merged.ous.keys

/-- Two keys that are not in order. When `A` moves to `A/B`, `A/C` comes first and stays, for
`A/B/C` is still there. When `A/B` moves to `A`, so does `A/B/B`, for `A/B` is still there. -/
theorem renameOu_leaves_key :
    keysAfter? (inlineUnits ["A/C", "A/B/C"]) "A" "A/B" = some ["A/C", "A/B/B/C"] ∧
      (inlineUnits ["A/C", "A/B/C"]).merged.ous.keys.map (Path.moved "A" "A/B") =
        ["A/B/C", "A/B/B/C"] ∧
      keysAfter? (inlineUnits ["A/B", "A/B/B"]) "A/B" "A" = some ["A", "A/B/B"] ∧
      (inlineUnits ["A/B", "A/B/B"]).merged.ous.keys.map (Path.moved "A/B" "A") =
        ["A", "A/B"] := by
  refine ⟨?_, ?_, ?_, ?_⟩
  · decide +kernel
  · decide +kernel
  · decide +kernel
  · decide +kernel

end Workspace

end Config
end OrgAlign
