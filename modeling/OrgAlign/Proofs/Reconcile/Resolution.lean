import Mathlib.Data.List.Basic
import Mathlib.Tactic.Common
import OrgAlign.Reconcile.Match

/-!
# What a reference stands for

`matchOu` settles a reference only if one unit remains. Main statements:

* `ou?_matchOu_eq_some`: it gives a unit iff the reference `StandsFor` that unit alone: the only
  unit at that path or, where no unit is at that path, the only one of that name;
* `matchOu_eq_notFound`: it gives nothing iff no unit has the reference as its path or name;
* `StandsFor.of_append`: a reference that resolves to an old unit beside new ones resolved to it
  before they were there.
-/

namespace OrgAlign.Reconcile

open Org

/-! ### Candidates -/

/-- One candidate is found. -/
@[simp] theorem ofCandidates_eq_found {s t : MatchStrategy} {l : List LiveOu} {ou : LiveOu} :
    OuMatch.ofCandidates s l = .found ou t ↔ l = [ou] ∧ s = t := by
  rcases l with _ | ⟨a, _ | ⟨b, l⟩⟩ <;> simp [OuMatch.ofCandidates]

/-- Nothing is found iff there is no candidate. -/
@[simp] theorem ofCandidates_eq_notFound {s : MatchStrategy} {l : List LiveOu} :
    OuMatch.ofCandidates s l = .notFound ↔ l = [] := by
  rcases l with _ | ⟨a, _ | ⟨b, l⟩⟩ <;> simp [OuMatch.ofCandidates]

/-- A unit is given iff it is the only candidate. -/
@[simp] theorem ou?_ofCandidates_eq_some {s : MatchStrategy} {l : List LiveOu} {ou : LiveOu} :
    (OuMatch.ofCandidates s l).ou? = some ou ↔ l = [ou] := by
  rcases l with _ | ⟨a, _ | ⟨b, l⟩⟩ <;> simp [OuMatch.ofCandidates, OuMatch.ou?]

/-- A unit is given iff it was found. -/
theorem ou?_eq_some {m : OuMatch} {ou : LiveOu} : m.ou? = some ou ↔ ∃ s, m = .found ou s := by
  cases m <;> simp [OuMatch.ou?]

/-! ### References -/

/-- The one unit that a reference stands for: the only one at that path or, where no unit is at
that path, the only one of that name. -/
def StandsFor (ous : List LiveOu) (reference : String) (ou : LiveOu) : Prop :=
  ous.filter (·.path == reference) = [ou] ∨
    ous.filter (·.path == reference) = [] ∧ ous.filter (·.name == reference) = [ou]

/-- Names decide where no unit is at the path. -/
theorem matchOu_of_no_path {reference : String} {ous : List LiveOu}
    (h : ous.filter (·.path == reference) = []) :
    matchOu reference ous =
      OuMatch.ofCandidates .nameOnly (ous.filter (·.name == reference)) := by
  unfold matchOu
  rw [h]
  rfl

/-- The path decides where some unit is at it. -/
theorem matchOu_of_path {reference : String} {ous : List LiveOu}
    (h : ous.filter (·.path == reference) ≠ []) :
    matchOu reference ous =
      OuMatch.ofCandidates .exactPath (ous.filter (·.path == reference)) := by
  unfold matchOu
  have hne := mt (ofCandidates_eq_notFound (s := .exactPath)).1 h
  split
  · contradiction
  · rfl

/-- A reference resolves to a unit iff it stands for that unit alone. -/
theorem ou?_matchOu_eq_some {reference : String} {ous : List LiveOu} {ou : LiveOu} :
    (matchOu reference ous).ou? = some ou ↔ StandsFor ous reference ou := by
  unfold StandsFor
  by_cases h : ous.filter (·.path == reference) = []
  · rw [matchOu_of_no_path h, ou?_ofCandidates_eq_some]
    simp [h]
  · rw [matchOu_of_path h, ou?_ofCandidates_eq_some]
    simp [h]

/-- A reference is not found iff no unit has it as its path or its name. -/
theorem matchOu_eq_notFound {reference : String} {ous : List LiveOu} :
    matchOu reference ous = .notFound ↔
      (∀ o ∈ ous, o.path ≠ reference) ∧ ∀ o ∈ ous, o.name ≠ reference := by
  by_cases h : ous.filter (·.path == reference) = []
  · rw [matchOu_of_no_path h, ofCandidates_eq_notFound]
    simp only [List.filter_eq_nil_iff, beq_iff_eq] at h ⊢
    exact ⟨fun hn => ⟨h, hn⟩, fun hn => hn.2⟩
  · rw [matchOu_of_path h, ofCandidates_eq_notFound]
    simp only [List.filter_eq_nil_iff, beq_iff_eq] at h ⊢
    exact ⟨fun hn => absurd hn h, fun hn => absurd hn.1 h⟩

/-- No unit is at a path iff none is left of those at it. -/
theorem filter_path_eq_nil {reference : String} {ous : List LiveOu} :
    ous.filter (·.path == reference) = [] ↔ ∀ o ∈ ous, o.path ≠ reference := by
  simp only [List.filter_eq_nil_iff, beq_iff_eq]

/-- A unit of a name is the only one of it, if no unit is at that path and the name resolves. -/
theorem eq_of_found_of_no_path {reference : String} {ous : List LiveOu} {ou : LiveOu}
    {s : MatchStrategy} (hnone : ∀ o ∈ ous, o.path ≠ reference)
    (h : matchOu reference ous = .found ou s) {o : LiveOu} (ho : o ∈ ous)
    (hname : o.name = reference) : o = ou := by
  rw [matchOu_of_no_path (filter_path_eq_nil.2 hnone), ofCandidates_eq_found] at h
  have hin : o ∈ ous.filter (·.name == reference) :=
    List.mem_filter.2 ⟨ho, beq_iff_eq.2 hname⟩
  rw [h.1] at hin
  exact List.mem_singleton.1 hin

/-- A name that leads somewhere is that of one unit or of two, if no unit is at that path. -/
theorem found_or_two_of_no_path {reference : String} {ous : List LiveOu} (hnodup : ous.Nodup)
    (hnone : ∀ o ∈ ous, o.path ≠ reference) (h : matchOu reference ous ≠ .notFound) :
    (∃ ou s, matchOu reference ous = .found ou s) ∨
      ∃ a ∈ ous, ∃ b ∈ ous, a ≠ b ∧ a.name = reference ∧ b.name = reference := by
  rw [matchOu_of_no_path (filter_path_eq_nil.2 hnone)] at h ⊢
  have hmem : ∀ o, o ∈ ous.filter (·.name == reference) → o ∈ ous ∧ o.name = reference := by simp
  have honce : (ous.filter (·.name == reference)).Nodup := hnodup.filter _
  rcases hall : ous.filter (·.name == reference) with _ | ⟨a, _ | ⟨b, rest⟩⟩
  · rw [hall] at h
    exact absurd rfl h
  · exact .inl ⟨a, .nameOnly, ofCandidates_eq_found.2 ⟨hall, rfl⟩⟩
  · obtain ⟨ha, haname⟩ := hmem a (by simp [hall])
    obtain ⟨hb, hbname⟩ := hmem b (by simp [hall])
    rw [hall] at honce
    refine .inr ⟨a, ha, b, hb, ?_, haname, hbname⟩
    exact fun hab => (List.nodup_cons.1 honce).1 (hab ▸ List.mem_cons_self)

/-- More units do not make a reference lead nowhere. -/
theorem matchOu_ne_notFound_append {reference : String} {ous : List LiveOu}
    (h : matchOu reference ous ≠ .notFound) (more : List LiveOu) :
    matchOu reference (ous ++ more) ≠ .notFound := by
  intro hnot
  obtain ⟨hpath, hname⟩ := matchOu_eq_notFound.1 hnot
  exact h (matchOu_eq_notFound.2 ⟨fun o ho => hpath o (List.mem_append_left _ ho),
    fun o ho => hname o (List.mem_append_left _ ho)⟩)

/-- What a reference resolves to is one of the units. -/
theorem StandsFor.mem {ous : List LiveOu} {reference : String} {ou : LiveOu}
    (h : StandsFor ous reference ou) : ou ∈ ous := by
  rcases h with h | ⟨-, h⟩ <;> exact (List.mem_filter.1 (h ▸ List.mem_singleton_self ou)).1

/-- What a reference resolves to has the reference as its path or its name. -/
theorem StandsFor.path_or_name {ous : List LiveOu} {reference : String} {ou : LiveOu}
    (h : StandsFor ous reference ou) : ou.path = reference ∨ ou.name = reference := by
  rcases h with h | ⟨-, h⟩
  · have hou : ou ∈ ous.filter (·.path == reference) := by simp [h]
    exact .inl (beq_iff_eq.1 (List.mem_filter.1 hou).2)
  · have hou : ou ∈ ous.filter (·.name == reference) := by simp [h]
    exact .inr (beq_iff_eq.1 (List.mem_filter.1 hou).2)

/-- A unit that stands for a reference among more units, and was there before, stood for it
before. -/
theorem StandsFor.of_append {ous more : List LiveOu} {reference : String} {ou : LiveOu}
    (h : StandsFor (ous ++ more) reference ou) (hmem : ou ∈ ous) :
    StandsFor ous reference ou := by
  -- the only unit left of a filter is in the first part, so nothing is left of the second
  have first : ∀ p : LiveOu → Bool, (ous ++ more).filter p = [ou] → ous.filter p = [ou] := by
    intro p hp
    have hou : ou ∈ ous.filter p := List.mem_filter.2
      ⟨hmem, (List.mem_filter.1 (hp ▸ List.mem_singleton_self ou)).2⟩
    rw [List.filter_append, List.append_eq_singleton_iff] at hp
    rcases hp with ⟨hnil, -⟩ | ⟨hone, -⟩
    · rw [hnil] at hou
      exact absurd hou (List.not_mem_nil)
    · exact hone
  rcases h with h | ⟨hnone, h⟩
  · exact .inl (first _ h)
  · rw [List.filter_append, List.append_eq_nil_iff] at hnone
    exact .inr ⟨hnone.1, first _ h⟩

/-! ### Accounts -/

/-- The account that an address leads to is one of the accounts and has that address. -/
theorem matchAccount?_eq_some {email : String} {accounts : List LiveAccount} {a : LiveAccount}
    (h : matchAccount? email accounts = some a) :
    a ∈ accounts ∧ Text.lower a.email = Text.lower email := by
  unfold matchAccount? at h
  exact ⟨List.mem_of_find?_eq_some h, by simpa using List.find?_some h⟩

/-- An address leads nowhere iff no account has it. -/
theorem matchAccount?_eq_none {email : String} {accounts : List LiveAccount} :
    matchAccount? email accounts = none ↔
      ∀ a ∈ accounts, Text.lower a.email ≠ Text.lower email := by
  unfold matchAccount?
  simp [List.find?_eq_none]

end OrgAlign.Reconcile
