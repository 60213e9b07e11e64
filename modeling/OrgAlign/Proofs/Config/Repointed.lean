import Mathlib.Tactic.Linarith
import Mathlib.Tactic.Ring
import OrgAlign.Proofs.Config.Repoint
import OrgAlign.Proofs.Config.Sheets

/-!
# The entries of accounts after a renaming

Renaming a unit should point every account at or below it to the path that follows from the new
one, and leave the other accounts where they are. The keys of a section are walked through, and
each is edited wherever the section declares it; a key that several files declare is listed for each
of them, so that its entries are pointed on as often. Main statements:

* `iterate_repoint_ne`: an entry that is pointed elsewhere never comes back;
* `repointed_iterate_iff`: when an entry that is reached several times ends at the right path;
* `renameOu_repoints`: both together;
* `renameOu_points_past`: two entries that do not.
-/

namespace OrgAlign.Config

open Workspace (repoint)

variable {old new p : String} {a a' : AccountEntry} {n : Nat}

/-! ### Paths on their way -/

/-- How far a path has come on its way from beginning to beginning: its length, counted in the
direction in which renaming `old` to `new` changes it. -/
def ahead (old new path : String) : Int := ((new.length : Int) - old.length) * path.length

/-- Renaming takes a path ahead. -/
theorem ahead_rebase {path : String} (h : Path.rebase path old new = some p) :
    ahead old new p = ahead old new path +
      ((new.length : Int) - old.length) * ((new.length : Int) - old.length) := by
  have hlength : (p.length : Int) = path.length + (new.length - old.length) := by
    have := Path.length_rebase h
    omega
  unfold ahead
  rw [hlength]
  ring

/-- A path that can be renamed on was taken strictly ahead. -/
theorem ahead_lt {path : String} (hne : old ≠ new) (h : Path.rebase path old new = some p)
    (hunder : Path.Under p old) : ahead old new path < ahead old new p := by
  have hlength : (new.length : Int) - old.length ≠ 0 := by
    have := (Path.under_of_rebase h).2.length_ne hunder hne.symm
    omega
  rw [ahead_rebase h]
  have := mul_self_pos.2 hlength
  linarith

/-! ### Entries on their way -/

/-- An entry at or below a unit that moves says the first segment of its new path, and all of it if
it said so before. -/
theorem repoint_of_rebase (h : Path.rebase a.path old new = some p) :
    repoint old new a = { a with ou := Path.topLevel p, ouPath := a.ouPath.map fun _ => p } := by
  unfold repoint
  rw [h]
  cases hfull : a.ouPath with
  | none => simp [AccountPatch.apply, hfull]
  | some full => simp [AccountPatch.apply]

theorem path_repoint_of_full (hfull : a.ouPath.isSome = true)
    (h : Path.rebase a.path old new = some p) : (repoint old new a).path = p := by
  obtain ⟨full, hfull⟩ := Option.isSome_iff_exists.1 hfull
  rw [repoint_of_rebase h]
  simp [AccountEntry.path, hfull]

theorem path_repoint_of_short (hshort : a.ouPath = none)
    (h : Path.rebase a.path old new = some p) : (repoint old new a).path = Path.topLevel p := by
  rw [repoint_of_rebase h]
  simp [AccountEntry.path, hshort]

theorem path_of_short (hshort : a.ouPath = none) : a.path = a.ou := by
  unfold AccountEntry.path
  rw [hshort]
  rfl

/-- An entry keeps the form of its path. -/
theorem isSome_ouPath_repoint : (repoint old new a).ouPath.isSome = a.ouPath.isSome := by
  by_cases hunder : Path.Under a.path old
  · obtain ⟨p, hp, -⟩ := Path.exists_rebase hunder new
    rw [repoint_of_rebase hp, Option.isSome_map]
  · rw [Workspace.repoint_of_not_under hunder]

theorem isSome_ouPath_iterate (n : Nat) :
    ((repoint old new)^[n] a).ouPath.isSome = a.ouPath.isSome := by
  induction n with
  | zero => rfl
  | succ n ih => rw [Function.iterate_succ_apply', isSome_ouPath_repoint, ih]

/-- An entry with its full path never falls back. -/
theorem ahead_le_iterate (hfull : a.ouPath.isSome = true) (n : Nat) :
    ahead old new a.path ≤ ahead old new ((repoint old new)^[n] a).path := by
  induction n generalizing a with
  | zero => exact Int.le_refl _
  | succ n ih =>
    have hstep : ahead old new a.path ≤ ahead old new (repoint old new a).path := by
      by_cases hunder : Path.Under a.path old
      · obtain ⟨p, hp, -⟩ := Path.exists_rebase hunder new
        rw [path_repoint_of_full hfull hp, ahead_rebase hp]
        have := mul_self_nonneg ((new.length : Int) - old.length)
        linarith
      · rw [Workspace.repoint_of_not_under hunder]
    rw [Function.iterate_succ_apply]
    exact hstep.trans (ih (isSome_ouPath_repoint.trans hfull))

/-- An entry that is elsewhere stays there, however often it is reached. -/
theorem iterate_repoint_of_not_under (h : ¬ Path.Under a.path old) (n : Nat) :
    (repoint old new)^[n] a = a :=
  Function.iterate_fixed (Workspace.repoint_of_not_under h) n

/-- An entry with its full path does not come back to that. -/
theorem path_iterate_ne (hne : old ≠ new) (hfull : a.ouPath.isSome = true)
    (hunder : Path.Under a.path old) (n : Nat) :
    ((repoint old new)^[n + 1] a).path ≠ a.path := by
  obtain ⟨p, hp, -⟩ := Path.exists_rebase hunder new
  have hpath := path_repoint_of_full hfull hp
  rw [Function.iterate_succ_apply]
  by_cases hagain : Path.Under p old
  · have hahead := ahead_lt hne hp hagain
    have hstays : ahead old new (repoint old new a).path ≤
        ahead old new ((repoint old new)^[n] (repoint old new a)).path :=
      ahead_le_iterate (isSome_ouPath_repoint.trans hfull) n
    rw [hpath] at hstays
    intro hback
    rw [hback] at hstays
    exact absurd hahead (not_lt.2 hstays)
  · rw [iterate_repoint_of_not_under (hpath ▸ hagain), hpath]
    exact Path.rebase_ne hne hp

/-- An entry without its full path does not go on for long: after two steps it is elsewhere, if the
second one was not in vain. -/
theorem settles_of_short (old new : String) (hshort : a.ouPath = none) :
    repoint old new (repoint old new a) = repoint old new a ∨
      ¬ Path.Under (repoint old new (repoint old new a)).path old := by
  by_cases hunder : Path.Under a.path old
  · obtain ⟨p, hp, -⟩ := Path.exists_rebase hunder new
    have hpath := path_repoint_of_short hshort hp
    have hshort' : (repoint old new a).ouPath = none := by
      rw [repoint_of_rebase hp, hshort]
      rfl
    by_cases hagain : Path.Under (Path.topLevel p) old
    · -- a first segment is at or below the old path only if it is that path
      have hold : (repoint old new a).path = old := hpath.trans (Path.topLevel_eq_of_under hagain)
      have hnext : Path.rebase (repoint old new a).path old new = some new :=
        Path.rebase_eq_some_iff.2 (.inl ⟨hold, rfl⟩)
      by_cases hthere : Path.Under (Path.topLevel new) old
      · left
        have hou : (repoint old new a).ou = Path.topLevel new :=
          (path_of_short hshort').symm.trans (hold.trans (Path.topLevel_eq_of_under hthere).symm)
        rw [repoint_of_rebase hnext, ← hou, hshort', Option.map_none, ← hshort']
      · right
        rw [path_repoint_of_short hshort' hnext]
        exact hthere
    · exact .inl (Workspace.repoint_of_not_under (hpath ▸ hagain))
  · rw [Workspace.repoint_of_not_under hunder]
    exact .inl (Workspace.repoint_of_not_under hunder)

/-- **An entry that is pointed elsewhere never comes back**, however often it is reached. -/
theorem iterate_repoint_ne (hne : old ≠ new) (h : repoint old new a ≠ a) (n : Nat) :
    (repoint old new)^[n + 1] a ≠ a := by
  have hunder : Path.Under a.path old := by
    by_contra hstays
    exact h (Workspace.repoint_of_not_under hstays)
  cases hfull : a.ouPath with
  | some full =>
    intro hback
    exact path_iterate_ne hne (by rw [hfull]; rfl) hunder n (congrArg AccountEntry.path hback)
  | none =>
    rw [Function.iterate_succ_apply]
    rcases settles_of_short old new hfull with hstays | helsewhere
    · rw [Function.iterate_fixed hstays]
      exact h
    · cases n with
      | zero => exact h
      | succ n =>
        rw [Function.iterate_succ_apply, iterate_repoint_of_not_under helsewhere]
        intro hback
        exact helsewhere (hback.symm ▸ hunder)

/-! ### Where entries end -/

/-- What should become of an entry when a unit moves. -/
structure Repointed (old new : String) (a a' : AccountEntry) : Prop where
  /-- An entry elsewhere stays as it is. -/
  elsewhere : ¬ Path.Under a.path old → a' = a
  /-- An entry at or below the unit has the path that follows from the new one, and says its first
  segment. -/
  path : ∀ p, Path.rebase a.path old new = some p → a'.path = p ∧ a'.ou = Path.topLevel p
  /-- Everything else that an entry says stays. -/
  rest : { a' with ou := a.ou, ouPath := a.ouPath } = a

/-- An entry gets where it should: without its full path it can only go to a place that is its own
first segment, and if it is reached more than once, it must not end where it would be caught
again. -/
def Arrives (old new : String) (times : Nat) (a : AccountEntry) : Prop :=
  ∀ p, Path.rebase a.path old new = some p →
    (a.ouPath = none → Path.topLevel p = p) ∧ (times ≤ 1 ∨ ¬ Path.Under p old)

/-- A place that is its own first segment is not at or below the old path. -/
theorem not_under_of_topLevel_eq (hne : old ≠ new) {path : String}
    (h : Path.rebase path old new = some p) (htop : Path.topLevel p = p) : ¬ Path.Under p old := by
  intro hunder
  have hnew := (Path.under_of_rebase h).2
  rw [← htop] at hunder hnew
  exact hne ((Path.topLevel_eq_of_under hunder).symm.trans (Path.topLevel_eq_of_under hnew))

/-- Pointing an entry to its new path once takes it where it should be, if the form of its path
allows for that. -/
theorem repointed_repoint
    (h : ∀ p, Path.rebase a.path old new = some p → a.ouPath = none → Path.topLevel p = p) :
    Repointed old new a (repoint old new a) := by
  refine ⟨Workspace.repoint_of_not_under, fun p hp => ?_, ?_⟩
  · refine ⟨?_, by rw [repoint_of_rebase hp]⟩
    cases hfull : a.ouPath with
    | some full => exact path_repoint_of_full (by rw [hfull]; rfl) hp
    | none => rw [path_repoint_of_short hfull hp, h p hp hfull]
  · by_cases hunder : Path.Under a.path old
    · obtain ⟨p, hp, -⟩ := Path.exists_rebase hunder new
      rw [repoint_of_rebase hp]
    · rw [Workspace.repoint_of_not_under hunder]

/-- **When an entry that is reached several times ends where it should.** -/
theorem repointed_iterate_iff (hne : old ≠ new) (n : Nat) :
    Repointed old new a ((repoint old new)^[n + 1] a) ↔ Arrives old new (n + 1) a := by
  constructor
  · intro h p hp
    obtain ⟨hpath, hou⟩ := h.path p hp
    have htop : a.ouPath = none → Path.topLevel p = p := by
      intro hshort
      -- without its full path to the end, the entry has the path that it says
      have hend : ((repoint old new)^[n + 1] a).ouPath = none := by
        rw [← Option.not_isSome_iff_eq_none, isSome_ouPath_iterate, hshort]
        exact Bool.false_ne_true
      rw [← hou, ← path_of_short hend]
      exact hpath
    refine ⟨htop, ?_⟩
    cases n with
    | zero => exact .inl (Nat.le_refl 1)
    | succ n =>
      right
      intro hagain
      cases hfull : a.ouPath with
      | none => exact not_under_of_topLevel_eq hne hp (htop hfull) hagain
      | some full =>
        have hfull : a.ouPath.isSome = true := by rw [hfull]; rfl
        have hfirst := path_repoint_of_full hfull hp
        rw [Function.iterate_succ_apply] at hpath
        exact path_iterate_ne hne (isSome_ouPath_repoint.trans hfull) (hfirst.symm ▸ hagain) n
          (hpath.trans hfirst.symm)
  · intro h
    have hfirst : Repointed old new a (repoint old new a) :=
      repointed_repoint fun p hp => (h p hp).1
    rw [Function.iterate_succ_apply]
    by_cases hunder : Path.Under a.path old
    · obtain ⟨p, hp, -⟩ := Path.exists_rebase hunder new
      cases n with
      | zero => exact hfirst
      | succ n =>
        have hends : ¬ Path.Under p old := (h p hp).2.resolve_left (by omega)
        rw [← (hfirst.path p hp).1] at hends
        rw [iterate_repoint_of_not_under hends]
        exact hfirst
    · rw [Workspace.repoint_of_not_under hunder] at hfirst ⊢
      rw [iterate_repoint_of_not_under hunder]
      exact hfirst

/-! ### The workspace -/

namespace Workspace

variable {w : Workspace} {s : AccountSection}

/-- Renaming a unit leaves the files of accounts where they are. -/
theorem path_files_renameOu {r : Workspace × Bool} (h : w.renameOu old new = .ok r)
    (s : AccountSection) :
    (r.1.accounts s).files.map SplitFile.path = (w.accounts s).files.map SplitFile.path := by
  refine renameOu_keeps
    (fun v => (v.accounts s).files.map SplitFile.path = (w.accounts s).files.map SplitFile.path)
    (fun v ous deleted rootDirty hv => ?_) (fun v s' key hv => ?_) rfl h
  · rw [← hv]
    cases s <;> rfl
  · rw [accounts_editAccount]
    split
    · rename_i hs
      subst hs
      rw [Shelf.path_files_edit, hv]
    · exact hv

/-- **Renaming a unit points every account at or below it to its new path**, in every file, exactly
as far as its entries arrive: every entry is pointed on as often as the section lists its key, and
this takes it where it should be if and only if it `Arrives`. -/
theorem renameOu_repoints (hne : old ≠ new) {w' : Workspace} {changed : Bool}
    (h : w.renameOu old new = .ok (w', changed)) (s : AccountSection) :
    (w'.accounts s).files.map SplitFile.path = (w.accounts s).files.map SplitFile.path ∧
    (w'.accounts s).layers = ((w.accounts s).layers.map fun m => m.mapEntries fun key =>
      (repoint old new)^[(w.accounts s).keys.count key]) ∧
    List.Forall₂ (fun m m' => m'.keys = m.keys ∧ ∀ key a a', m.get? key = some a →
      m'.get? key = some a' →
      (Repointed old new a a' ↔ Arrives old new ((w.accounts s).keys.count key) a))
      (w.accounts s).layers (w'.accounts s).layers := by
  have hlayers := layers_renameOu hne h s
  refine ⟨path_files_renameOu h s, hlayers, ?_⟩
  rw [hlayers]
  unfold repointed
  refine List.forall₂_map_right_iff.2 (List.forall₂_same.2 fun m hm => ?_)
  refine ⟨KeyedMap.keys_mapEntries _ m, ?_⟩
  intro key a a' ha ha'
  rw [KeyedMap.get?_mapEntries, ha] at ha'
  obtain rfl := Option.some.inj ha'
  -- the key is listed for this map at least
  obtain ⟨n, hn⟩ := exists_count_eq_succ
    (Shelf.mem_keys_of_layer hm (KeyedMap.mem_keys_of_get? ha))
  rw [hn]
  exact repointed_iterate_iff hne n

/-- An account's entry with its top-level unit, and with its full path if that is given. -/
def placedAt (ou : String) (ouPath : Option String) : AccountEntry :=
  { name := "N", email := "n@x", ou, ouPath }

/-- A configuration that declares an account in each of the files listed. -/
def sharedAccount (files : List (String × AccountEntry)) : Workspace :=
  { splitUnits with
    workload := ⟨.load (files.map Prod.fst),
      files.map fun f => ⟨f.1, .ofList [("a", f.2)], false⟩⟩ }

/-- An account that two files declare, one with its full path and one without. -/
def accountOfTwoFiles : Workspace :=
  sharedAccount [("w.yaml", placedAt "A" (some "A/X")), ("v.yaml", placedAt "A" none)]

/-- The configuration after `A` was renamed to `B`. -/
def accountOfTwoFilesMoved : Workspace :=
  ((accountOfTwoFiles.renameOu "A" "B").toOption.get (by decide +kernel)).1

/-- Both entries of an account go along with its unit. -/
theorem renameOu_repoints_both_files : "A" ≠ "B" ∧
    accountOfTwoFiles.renameOu "A" "B" = .ok (accountOfTwoFilesMoved, true) ∧
    (accountOfTwoFilesMoved.entriesAt .workload "a").map AccountEntry.path = ["B/X", "B"] ∧
    List.Forall₂ (fun m m' => m'.keys = m.keys ∧ ∀ key a a', m.get? key = some a →
      m'.get? key = some a' → (Repointed "A" "B" a a' ↔
        Arrives "A" "B" ((accountOfTwoFiles.accounts .workload).keys.count key) a))
      (accountOfTwoFiles.accounts .workload).layers
      (accountOfTwoFilesMoved.accounts .workload).layers := by
  have hne : "A" ≠ "B" := by decide
  have hrename : accountOfTwoFiles.renameOu "A" "B" = .ok (accountOfTwoFilesMoved, true) := by
    decide +kernel
  obtain ⟨-, -, hall⟩ := renameOu_repoints hne hrename .workload
  exact ⟨hne, hrename, by decide +kernel, hall⟩

/-- The paths of an account's entries after a renaming, unless it is refused. -/
def pathsAfter? (w : Workspace) (old new : String) : Option (List String) :=
  (w.renameOu old new).toOption.map fun r =>
    (r.1.entriesAt .workload "a").map AccountEntry.path

/-- Two accounts that do not arrive. When `A` moves to `B/C`, an entry that only says `A` ends at
`B`. When `A` moves to `A/B`, an entry at `A/X` that two files have is pointed on twice, to
`A/B/B/X`. -/
theorem renameOu_points_past :
    pathsAfter? (sharedAccount [("w.yaml", placedAt "A" none)]) "A" "B/C" = some ["B"] ∧
      Path.rebase (placedAt "A" none).path "A" "B/C" = some "B/C" ∧
      pathsAfter? (sharedAccount [("w.yaml", placedAt "A" (some "A/X")),
        ("v.yaml", placedAt "A" (some "A/X"))]) "A" "A/B" = some ["A/B/B/X", "A/B/B/X"] ∧
      Path.rebase (placedAt "A" (some "A/X")).path "A" "A/B" = some "A/B/X" := by
  refine ⟨?_, ?_, ?_, ?_⟩
  · decide +kernel
  · decide +kernel
  · decide +kernel
  · decide +kernel

end Workspace
end OrgAlign.Config
