import OrgAlign.Proofs.Path

/-!
# The chain of a path's beginnings

Units are created along the beginnings of a declared path, each under the one before it, so these
have to lead down one name at a time. That is so however the path is written: slashes in front,
behind and between leave no trace, because every beginning is put together from segments alone. The
last beginning need not be the path itself, but has its segments. Main statements:

* `getElem_descend`, `descend_take`: which path is met at a place on the way down, and the way
  there;
* `segments_getElem_ancestry`: a beginning has the segments up to its place;
* `getElem_ancestry_succ`: it is the one before it and one more name;
* `ancestry_chain`: the beginnings of every path form a chain.
-/

namespace OrgAlign.Path

/-! ### On the way down -/

theorem length_descend (above : String) (names : List String) :
    (descend above names).length = names.length := by
  induction names generalizing above with
  | nil => rfl
  | cons name names ih => rw [descend, List.length_cons, List.length_cons, ih]

/-- The path that is met at a place is made of the names up to there. -/
theorem getElem_descend {above : String} {names : List String} {i : Nat}
    (h : i < (descend above names).length) :
    (descend above names)[i] = (names.take (i + 1)).foldl join above := by
  induction names generalizing above i with
  | nil => exact absurd h (Nat.not_lt_zero _)
  | cons name names ih =>
    cases i with
    | zero => rfl
    | succ i => exact @ih (join above name) i _

/-- The way down the first names is the first part of the way down. -/
theorem descend_take (above : String) (names : List String) (i : Nat) :
    descend above (names.take i) = (descend above names).take i := by
  induction names generalizing above i with
  | nil => rw [List.take_nil, descend, List.take_nil]
  | cons name names ih =>
    cases i with
    | zero => rfl
    | succ i => rw [List.take_succ_cons, descend, descend, List.take_succ_cons, ih]

/-! ### Beginnings by their places -/

variable {path : String} {i : Nat}

/-- The beginning at a place is made of the segments up to there. -/
theorem getElem_ancestry (h : i < (ancestry path).length) :
    (ancestry path)[i] = ((segments path).take (i + 1)).foldl join "" :=
  getElem_descend h

/-- It has just these segments. -/
theorem segments_getElem_ancestry (h : i < (ancestry path).length) :
    segments (ancestry path)[i] = (segments path).take (i + 1) := by
  have hnames : ∀ n ∈ (segments path).take (i + 1), IsName n :=
    fun n hn => isName_of_mem_segments (List.mem_of_mem_take hn)
  rw [getElem_ancestry h, segments_foldl_join hnames, segments_empty, List.nil_append]

/-- Every beginning but the first is the one before it, which is not empty, and one more name. -/
theorem getElem_ancestry_succ (h : i + 1 < (ancestry path).length) :
    ∃ name, IsName name ∧ (ancestry path)[i] ≠ "" ∧
      (ancestry path)[i + 1] = join (ancestry path)[i] name := by
  have hlen : i + 1 < (segments path).length := length_descend "" (segments path) ▸ h
  refine ⟨(segments path)[i + 1], isName_of_mem_segments (List.getElem_mem hlen), ?_, ?_⟩
  · intro hempty
    have hsegments := segments_getElem_ancestry (Nat.lt_of_succ_lt h)
    rw [hempty, segments_empty] at hsegments
    have hnone := congrArg List.length hsegments
    rw [List.length_take, List.length_nil] at hnone
    omega
  · rw [getElem_ancestry h, getElem_ancestry (Nat.lt_of_succ_lt h),
      List.take_succ_eq_append_getElem hlen, List.foldl_append]
    rfl

/-! ### The chain -/

/-- The beginnings of a path lead down one name at a time. -/
structure Chain (path : String) : Prop where
  /-- There is one beginning for each segment. -/
  length : (ancestry path).length = (segments path).length
  /-- The first one has no slash. -/
  first : ∀ start, (ancestry path).head? = some start → separator ∉ start.toList
  /-- Any later one, cut at its last slash, gives the one before it and its own last segment. -/
  link : ∀ i (h : i + 1 < (ancestry path).length),
    Text.cutLast separator (ancestry path)[i + 1] =
      some ((ancestry path)[i], leaf (ancestry path)[i + 1])
  /-- The last one has the segments of the path. -/
  last : ∀ start, (ancestry path).getLast? = some start → segments start = segments path
  /-- The beginnings of a beginning are those up to it. -/
  upTo : ∀ i (h : i < (ancestry path).length),
    ancestry (ancestry path)[i] = (ancestry path).take (i + 1)
  /-- All of them have the path's first segment. -/
  topLevel : ∀ start ∈ ancestry path, Path.topLevel start = Path.topLevel path

/-- **The beginnings of every path form a chain**, wherever slashes stand in it. -/
theorem ancestry_chain (path : String) : Chain path := by
  have hlength : (ancestry path).length = (segments path).length := length_descend "" _
  refine ⟨hlength, ?_, ?_, ?_, ?_, ?_⟩
  · intro start hstart
    rw [List.head?_eq_getElem?] at hstart
    obtain ⟨h, hget⟩ := List.getElem?_eq_some_iff.1 hstart
    obtain ⟨name, names, hsegments⟩ := List.exists_cons_of_length_pos (hlength ▸ h)
    have hname : IsName name := isName_of_mem_segments (hsegments ▸ List.mem_cons_self)
    rw [← hget, getElem_ancestry h, hsegments]
    exact hname.2
  · intro i h
    obtain ⟨name, hname, hne, hjoin⟩ := getElem_ancestry_succ h
    rw [hjoin, cutLast_join hne hname, leaf_join _ hname]
  · intro start hstart
    rw [List.getLast?_eq_getElem?] at hstart
    obtain ⟨h, hget⟩ := List.getElem?_eq_some_iff.1 hstart
    rw [← hget, segments_getElem_ancestry h]
    exact List.take_of_length_le (by omega)
  · intro i h
    rw [ancestry, segments_getElem_ancestry h, descend_take]
    rfl
  · intro start hstart
    obtain ⟨i, h, rfl⟩ := List.getElem_of_mem hstart
    unfold Path.topLevel
    rw [segments_getElem_ancestry h]
    cases segments path <;> rfl

example : ancestry "//A//B.c/" = ["A", "A/B.c"] := by decide

end OrgAlign.Path
