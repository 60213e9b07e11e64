import Mathlib.Data.String.Basic
import OrgAlign.Proofs.Walks
import OrgAlign.Sorting

/-!
# Sorting sorts

Insertion keeps a list in order, so a list that is put together by insertions is in order. Main
statements:

* `pairwise_sort`, `pairwise_sort_text`: what is sorted is in order;
* `sort_eq_of_perm`: the order in which items come does not matter, unless it decides between two;
* `nodup_eraseDups`: leaving out repetitions leaves none.
-/

namespace OrgAlign.Sorting

variable {α : Type} {before : α → α → Bool}

section

variable (hasymm : ∀ a b, before a b = true → before b a = false)
variable (htrans : ∀ a b c, before b a = false → before c b = false → before c a = false)

include hasymm htrans

/-- An item that is put into a sorted list leaves it sorted. -/
theorem pairwise_insert (a : α) {bs : List α} (h : bs.Pairwise fun a b => before b a = false) :
    (insert before a bs).Pairwise fun a b => before b a = false := by
  induction bs with
  | nil => exact List.pairwise_singleton _ a
  | cons b bs ih =>
    obtain ⟨hb, hbs⟩ := List.pairwise_cons.1 h
    unfold insert
    split
    · rename_i hab
      refine List.pairwise_cons.2 ⟨?_, h⟩
      intro c hc
      rcases List.mem_cons.1 hc with rfl | hc
      · exact hasymm a c hab
      · exact htrans a b c (hasymm a b hab) (hb c hc)
    · rename_i hab
      refine List.pairwise_cons.2 ⟨?_, ih hbs⟩
      intro c hc
      rcases List.mem_cons.1 ((insert_perm before a bs).mem_iff.1 hc) with rfl | hc
      · simpa using hab
      · exact hb c hc

/-- Sorting sorts. -/
theorem pairwise_sort (as : List α) :
    (sort before as).Pairwise fun a b => before b a = false := by
  unfold sort
  exact foldl_keeps (fun bs : List α => bs.Pairwise fun a b => before b a = false)
    (fun _ a hbs => pairwise_insert hasymm htrans a hbs) as [] List.Pairwise.nil

/-- Where the order leaves nothing open, sorting does not depend on the order before. -/
theorem sort_eq_of_perm {as bs : List α} (h : as.Perm bs)
    (hties : ∀ a ∈ as, ∀ b ∈ as, before b a = false → before a b = false → a = b) :
    sort before as = sort before bs := by
  refine List.Perm.eq_of_pairwise ?_ (pairwise_sort hasymm htrans as)
    (pairwise_sort hasymm htrans bs)
    ((sort_perm before as).trans (h.trans (sort_perm before bs).symm))
  intro a b ha hb hab hba
  exact hties a ((mem_sort before as a).1 ha) b (h.mem_iff.2 ((mem_sort before bs b).1 hb)) hab hba

end

theorem textBefore_eq_false {a b : String} : textBefore a b = false ↔ b ≤ a := by
  unfold textBefore
  rw [decide_eq_false_iff_not, not_lt]

theorem textBefore_asymm (a b : String) (h : textBefore a b = true) : textBefore b a = false :=
  textBefore_eq_false.2 (le_of_lt (of_decide_eq_true h))

theorem textBefore_trans (a b c : String) (hab : textBefore b a = false)
    (hbc : textBefore c b = false) : textBefore c a = false := by
  rw [textBefore_eq_false] at hab hbc ⊢
  exact le_trans hab hbc

/-- Texts are sorted by their order. -/
theorem pairwise_sort_text (texts : List String) :
    (sort textBefore texts).Pairwise fun a b => a ≤ b :=
  (pairwise_sort textBefore_asymm textBefore_trans texts).imp
    textBefore_eq_false.1

/-- Leaving out what was there before leaves nothing twice. -/
theorem nodup_eraseDups : ∀ texts : List String, texts.eraseDups.Nodup
  | [] => List.nodup_nil
  | a :: as => by
    rw [List.eraseDups_cons, List.nodup_cons]
    refine ⟨?_, nodup_eraseDups _⟩
    rw [List.mem_eraseDups]
    simp
termination_by texts => texts.length
decreasing_by
  have hle := List.length_filter_le (fun b => !b == a) as
  simp only [List.length_cons]
  omega

end OrgAlign.Sorting
