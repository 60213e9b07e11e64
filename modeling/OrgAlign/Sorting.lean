/-!
# Sorting

Insertion sort by a Boolean order. It is stable: items of which neither comes before the other
keep their order.
-/

namespace OrgAlign.Sorting

variable {α : Type}

/-- Puts an item before the first one that it comes before. -/
def insert (before : α → α → Bool) (a : α) : List α → List α
  | [] => [a]
  | b :: bs => if before a b then a :: b :: bs else b :: insert before a bs

/-- The items in order. -/
def sort (before : α → α → Bool) (as : List α) : List α :=
  as.foldl (fun sorted a => insert before a sorted) []

theorem insert_perm (before : α → α → Bool) (a : α) (bs : List α) :
    (insert before a bs).Perm (a :: bs) := by
  induction bs with
  | nil => exact List.Perm.refl _
  | cons b bs ih =>
    unfold insert
    split
    · exact List.Perm.refl _
    · exact (List.Perm.cons b ih).trans (List.Perm.swap a b bs)

theorem foldl_insert_perm (before : α → α → Bool) (as sorted : List α) :
    (as.foldl (fun sorted a => insert before a sorted) sorted).Perm (as ++ sorted) := by
  induction as generalizing sorted with
  | nil => exact List.Perm.refl _
  | cons a as ih =>
    refine (ih (insert before a sorted)).trans ?_
    exact ((List.Perm.append_left as (insert_perm before a sorted)).trans List.perm_middle)

theorem sort_perm (before : α → α → Bool) (as : List α) : (sort before as).Perm as := by
  simpa [sort] using foldl_insert_perm before as []

@[simp] theorem mem_sort (before : α → α → Bool) (as : List α) (a : α) :
    a ∈ sort before as ↔ a ∈ as :=
  (sort_perm before as).mem_iff

/-- The order of texts by their bytes, which is that of their code points. -/
def textBefore (a b : String) : Bool := a < b

end OrgAlign.Sorting
