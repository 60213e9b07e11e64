import Mathlib.Data.List.Basic
import Mathlib.Data.List.Forall2
import Mathlib.Data.List.Nodup
import Mathlib.Tactic.Common

/-!
# Walks and chains

Almost everything here is a walk along a list, or a chain of steps that may fail. Main statements:

* `foldl_keeps`, `foldl_leaves`, `foldl_collects`: what every step of a walk keeps, one of them
  brings about or every one adds, the walk does;
* `find?_of_nodup`, `filter_eq_singleton`, `filterMap_eq_singleton`: where items have keys of their
  own, an item's key leads to it, and to it alone;
* `forall₂_filterMap`, `forall₂_exists_left`, `forall₂_exists_right`: lists in step;
* `bind_eq_ok`, `mapM_eq_ok`, `mapM_eq_some`, `mapError_eq_ok`: when a chain gives a result;
* `exists_of_mapM_eq_some`: where its results come from.
-/

namespace OrgAlign

/-! ### Walks -/

section

variable {α β γ : Type}

/-- What every step along a list keeps, a walk along it keeps. -/
theorem foldl_keeps_of_mem {step : β → α → β} (Inv : β → Prop) {as : List α}
    (hInv : ∀ p, ∀ a ∈ as, Inv p → Inv (step p a)) (p : β) (hp : Inv p) :
    Inv (as.foldl step p) := by
  induction as generalizing p with
  | nil => exact hp
  | cons a as ih =>
    exact ih (fun p b hb => hInv p b (List.mem_cons_of_mem a hb)) _
      (hInv p a List.mem_cons_self hp)

/-- What every step keeps, a walk keeps. -/
theorem foldl_keeps {step : β → α → β} (Inv : β → Prop) (hInv : ∀ p a, Inv p → Inv (step p a))
    (as : List α) (p : β) (hp : Inv p) : Inv (as.foldl step p) :=
  foldl_keeps_of_mem Inv (fun p a _ => hInv p a) p hp

/-- What one step of a walk brings about and every step keeps, is so after the walk. -/
theorem foldl_leaves {step : β → α → β} (Inv : β → Prop) {as : List α} {a : α} (ha : a ∈ as)
    (hdone : ∀ p, Inv (step p a)) (hkeeps : ∀ p, ∀ b ∈ as, Inv p → Inv (step p b)) (p : β) :
    Inv (as.foldl step p) := by
  obtain ⟨before, after, rfl⟩ := List.append_of_mem ha
  rw [List.foldl_append, List.foldl_cons]
  refine foldl_keeps_of_mem Inv (fun p b hb => hkeeps p b ?_) _ (hdone _)
  exact List.mem_append_right _ (List.mem_cons_of_mem _ hb)

/-- A walk whose every step adds at most one item, adds the items of all steps in order. -/
theorem foldl_collects {step : β → α → β} (field : β → List γ) {item? : α → Option γ}
    (hstep : ∀ p a, field (step p a) = field p ++ (item? a).toList) (as : List α) (p : β) :
    field (as.foldl step p) = field p ++ as.filterMap item? := by
  induction as generalizing p with
  | nil => simp
  | cons a as ih =>
    rw [List.foldl_cons, ih, hstep, List.filterMap_cons, List.append_assoc]
    cases item? a <;> rfl

/-- Of items with keys of their own, the first with an item's key is that item. -/
theorem find?_of_nodup [DecidableEq β] {key : α → β} {as : List α} (h : (as.map key).Nodup) {a : α}
    (ha : a ∈ as) : as.find? (fun b => key b == key a) = some a := by
  cases hfind : as.find? (fun b => key b == key a) with
  | none => exact absurd (beq_self_eq_true (key a)) (List.find?_eq_none.1 hfind a ha)
  | some b =>
    have hkey : key b = key a := by simpa using List.find?_some hfind
    rw [List.inj_on_of_nodup_map h (List.mem_of_find?_eq_some hfind) ha hkey]

/-- Where no item comes twice, filtering for one item finds it alone. -/
theorem filter_eq_singleton [DecidableEq α] {as : List α} (h : as.Nodup) {a : α} (ha : a ∈ as)
    {p : α → Bool} (hp : ∀ b ∈ as, p b = true ↔ b = a) : as.filter p = [a] := by
  have hsame : as.filter p = as.filter (· == a) := List.filter_congr fun b hb => by
    rw [Bool.eq_iff_iff, hp b hb, beq_iff_eq]
  rw [hsame, List.filter_beq, List.count_eq_one_of_mem h ha]
  rfl

/-- Where no item comes twice and one alone has an image, that is the only image. -/
theorem filterMap_eq_singleton {f : α → Option β} {as : List α} (h : as.Nodup) {a : α} (ha : a ∈ as)
    {b : β} (hb : f a = some b) (hother : ∀ c ∈ as, c ≠ a → f c = none) : as.filterMap f = [b] := by
  obtain ⟨before, after, rfl⟩ := List.append_of_mem ha
  have hapart := List.nodup_middle.1 h
  have hnone : ∀ c ∈ before ++ after, f c = none := by
    intro c hc
    apply hother
    · rw [List.mem_append, List.mem_cons]
      exact (List.mem_append.1 hc).imp_right .inr
    · rintro rfl
      exact (List.nodup_cons.1 hapart).1 hc
  have hbefore : before.filterMap f = [] :=
    List.filterMap_eq_nil_iff.2 fun c hc => hnone c (List.mem_append_left _ hc)
  have hafter : after.filterMap f = [] :=
    List.filterMap_eq_nil_iff.2 fun c hc => hnone c (List.mem_append_right _ hc)
  rw [List.filterMap_append, List.filterMap_cons_some hb, hbefore, hafter, List.nil_append]

/-- A list of which every item has an image is in step with the list of the images. -/
theorem forall₂_filterMap {f : α → Option β} {R : α → β → Prop} {as : List α}
    (hsome : ∀ a ∈ as, (f a).isSome = true) (hR : ∀ a b, f a = some b → R a b) :
    List.Forall₂ R as (as.filterMap f) := by
  induction as with
  | nil => exact .nil
  | cons a as ih =>
    obtain ⟨b, hb⟩ := Option.isSome_iff_exists.1 (hsome a List.mem_cons_self)
    rw [List.filterMap_cons_some hb]
    exact .cons (hR a b hb) (ih fun c hc => hsome c (List.mem_cons_of_mem _ hc))

/-- A list in step with another one whose items determine its own is their image. -/
theorem forall₂_eq_map {f : α → β} {R : α → β → Prop} {as : List α} {bs : List β}
    (h : List.Forall₂ R as bs) (hR : ∀ a ∈ as, ∀ b, R a b → b = f a) : bs = as.map f := by
  induction h with
  | nil => rfl
  | cons hab _ ih =>
    rw [List.map_cons, hR _ List.mem_cons_self _ hab,
      ih fun a ha => hR a (List.mem_cons_of_mem _ ha)]

/-- Lists in step with one list are in step. -/
theorem forall₂_trans {R : α → β → Prop} {S : β → γ → Prop} {T : α → γ → Prop}
    (hT : ∀ a b c, R a b → S b c → T a c) {as : List α} {bs : List β} {cs : List γ}
    (h : List.Forall₂ R as bs) (h' : List.Forall₂ S bs cs) : List.Forall₂ T as cs := by
  induction h generalizing cs with
  | nil =>
    cases h'
    exact .nil
  | cons hab _ ih =>
    cases h' with
    | cons hbc h' => exact .cons (hT _ _ _ hab hbc) (ih h')

/-- Items in step with others are one by one related to them. -/
theorem forall₂_exists_right {R : α → β → Prop} {as : List α} {bs : List β}
    (h : List.Forall₂ R as bs) {a : α} (ha : a ∈ as) : ∃ b ∈ bs, R a b := by
  induction h with
  | nil => exact absurd ha List.not_mem_nil
  | cons hab _ ih =>
    rcases List.mem_cons.1 ha with rfl | ha
    · exact ⟨_, List.mem_cons_self, hab⟩
    · obtain ⟨b, hb, hR⟩ := ih ha
      exact ⟨b, List.mem_cons_of_mem _ hb, hR⟩

/-- Items in step with others are one by one related to them. -/
theorem forall₂_exists_left {R : α → β → Prop} {as : List α} {bs : List β}
    (h : List.Forall₂ R as bs) {b : β} (hb : b ∈ bs) : ∃ a ∈ as, R a b :=
  forall₂_exists_right h.flip hb

end

/-! ### Chains of steps that may fail -/

section

variable {α β ε ε' : Type}

/-- A chain gives a result iff its first step gives one, from which the rest goes on. -/
theorem bind_eq_ok {x : Except ε α} {f : α → Except ε β} {b : β} :
    x.bind f = .ok b ↔ ∃ a, x = .ok a ∧ f a = .ok b := by
  cases x <;> simp [Except.bind]

/-- A chain along a list gives a result iff its step gives one for every item. -/
theorem mapM_eq_ok {f : α → Except ε β} {as : List α} {bs : List β} :
    as.mapM f = .ok bs ↔ List.Forall₂ (fun a b => f a = .ok b) as bs := by
  induction as generalizing bs with
  | nil =>
    rw [List.forall₂_nil_left_iff]
    exact ⟨fun h => (Except.ok.inj h).symm, fun h => h ▸ rfl⟩
  | cons a as ih =>
    rw [List.mapM_cons]
    constructor
    · intro h
      obtain ⟨b, hb, h⟩ := bind_eq_ok.1 h
      obtain ⟨bs, hbs, h⟩ := bind_eq_ok.1 h
      cases h
      exact .cons hb (ih.1 hbs)
    · rintro (_ | ⟨hb, hbs⟩)
      exact bind_eq_ok.2 ⟨_, hb, bind_eq_ok.2 ⟨_, ih.2 hbs, rfl⟩⟩

/-- A chain along a list gives a result iff its step gives one for every item. -/
theorem mapM_eq_some {f : α → Option β} {as : List α} {bs : List β} :
    as.mapM f = some bs ↔ List.Forall₂ (fun a b => f a = some b) as bs := by
  induction as generalizing bs with
  | nil =>
    rw [List.forall₂_nil_left_iff]
    exact ⟨fun h => (Option.some.inj h).symm, fun h => h ▸ rfl⟩
  | cons a as ih =>
    rw [List.mapM_cons]
    constructor
    · intro h
      obtain ⟨b, hb, h⟩ := Option.bind_eq_some_iff.1 h
      obtain ⟨bs, hbs, h⟩ := Option.bind_eq_some_iff.1 h
      cases h
      exact .cons hb (ih.1 hbs)
    · rintro (_ | ⟨hb, hbs⟩)
      exact Option.bind_eq_some_iff.2 ⟨_, hb, Option.bind_eq_some_iff.2 ⟨_, ih.2 hbs, rfl⟩⟩

/-- What a chain along a list gives comes from its items. -/
theorem exists_of_mapM_eq_some {f : α → Option β} {as : List α} {bs : List β}
    (h : as.mapM f = some bs) {b : β} (hb : b ∈ bs) : ∃ a ∈ as, f a = some b :=
  forall₂_exists_left (mapM_eq_some.1 h) hb

/-- A chain along a list breaks off iff its step does for some item. -/
theorem mapM_eq_none {f : α → Option β} {as : List α} :
    as.mapM f = none ↔ ∃ a ∈ as, f a = none := by
  constructor
  · intro h
    by_contra hall
    have hsome : ∀ a ∈ as, (f a).isSome = true := by
      intro a ha
      rw [← Option.ne_none_iff_isSome]
      exact fun hnone => hall ⟨a, ha, hnone⟩
    have hresult := mapM_eq_some.2 (forall₂_filterMap hsome fun _ _ hab => hab)
    rw [h] at hresult
    cases hresult
  · rintro ⟨a, ha, hnone⟩
    rw [Option.eq_none_iff_forall_ne_some]
    intro bs hbs
    obtain ⟨b, -, hb⟩ := forall₂_exists_right (mapM_eq_some.1 hbs) ha
    rw [hnone] at hb
    cases hb

/-- Errors are translated, results stay. -/
theorem mapError_eq_ok {x : Except ε α} {f : ε → ε'} {a : α} :
    x.mapError f = .ok a ↔ x = .ok a := by
  cases x <;> simp [Except.mapError]

end
end OrgAlign
