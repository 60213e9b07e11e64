import Mathlib.Data.List.Basic
import Mathlib.Tactic.Common
import OrgAlign.Path

/-!
# Paths and their segments

A path is proper if no piece between its slashes is empty. Main statements:

* `parent?_join`, `leaf_join`: a path is taken apart where it was put together;
* `Proper.foldl_join`: a proper path is what its segments make when they are put together;
* `Proper.mem_ancestry`: the last of a proper path's beginnings is the path;
* `rebase_eq_some_iff`: what a path at or below another one becomes;
* `length_rebase`, `rebase_ne`: it grows or shrinks by as much as that one, and is another path.
-/

namespace OrgAlign

/-! ### Cutting text at a character -/

namespace Text

variable {c : Char}

theorem splitAt_ne_nil (c : Char) (xs : List Char) : splitAt c xs ≠ [] := by
  cases xs with
  | nil => simp [splitAt]
  | cons x xs =>
    unfold splitAt
    split
    · simp
    · split <;> simp

/-- A character that does not occur cuts nothing. -/
theorem splitAt_of_not_mem {xs : List Char} (h : c ∉ xs) : splitAt c xs = [xs] := by
  induction xs with
  | nil => rfl
  | cons x xs ih =>
    have hx : x ≠ c := fun hx => h (hx ▸ List.mem_cons_self)
    simp only [splitAt, if_neg hx, ih fun hc => h (List.mem_cons_of_mem _ hc)]

/-- Text is cut at every occurrence. -/
theorem splitAt_append (xs ys : List Char) :
    splitAt c (xs ++ c :: ys) = splitAt c xs ++ splitAt c ys := by
  induction xs with
  | nil => simp [splitAt]
  | cons x xs ih =>
    rw [List.cons_append]
    by_cases hx : x = c
    · simp only [splitAt, if_pos hx, ih, List.cons_append]
    · cases hxs : splitAt c xs with
      | nil => exact absurd hxs (splitAt_ne_nil c xs)
      | cons piece pieces =>
        rw [hxs] at ih
        simp only [splitAt, if_neg hx, ih, hxs, List.cons_append]

/-- The first piece and what follows it. -/
theorem exists_splitAt (c : Char) (xs : List Char) :
    (c ∉ xs ∧ splitAt c xs = [xs]) ∨
      ∃ ys zs, xs = ys ++ c :: zs ∧ c ∉ ys ∧ splitAt c xs = ys :: splitAt c zs := by
  by_cases h : c ∈ xs
  · obtain ⟨ys, zs, rfl, hys⟩ := List.eq_append_cons_of_mem h
    refine .inr ⟨ys, zs, rfl, hys, ?_⟩
    rw [splitAt_append, splitAt_of_not_mem hys]
    rfl
  · exact .inl ⟨h, splitAt_of_not_mem h⟩

/-- What is added behind a text without the character goes to the last piece. -/
theorem exists_splitAt_append (c : Char) (xs : List Char) :
    ∃ pieces last, ∀ ys, c ∉ ys → splitAt c (xs ++ ys) = pieces ++ [last ++ ys] := by
  induction xs with
  | nil => exact ⟨[], [], fun ys hys => splitAt_of_not_mem hys⟩
  | cons x xs ih =>
    obtain ⟨pieces, last, hsplit⟩ := ih
    by_cases hx : x = c
    · refine ⟨[] :: pieces, last, fun ys hys => ?_⟩
      rw [List.cons_append]
      simp only [splitAt, if_pos hx, hsplit ys hys, List.cons_append]
    · cases pieces with
      | nil =>
        refine ⟨[], x :: last, fun ys hys => ?_⟩
        have hrest := hsplit ys hys
        rw [List.nil_append] at hrest
        rw [List.cons_append]
        simp only [splitAt, if_neg hx, hrest, List.nil_append, List.cons_append]
      | cons piece pieces =>
        refine ⟨(x :: piece) :: pieces, last, fun ys hys => ?_⟩
        have hrest := hsplit ys hys
        rw [List.cons_append] at hrest
        rw [List.cons_append]
        simp only [splitAt, if_neg hx, hrest, List.cons_append]

/-- No piece has the character. -/
theorem not_mem_of_mem_splitAt {xs piece : List Char} (h : piece ∈ splitAt c xs) : c ∉ piece := by
  rcases exists_splitAt c xs with ⟨hc, hxs⟩ | ⟨ys, zs, hxs, hys, hsplit⟩
  · rw [hxs, List.mem_singleton] at h
    exact h ▸ hc
  · rw [hsplit] at h
    rcases List.mem_cons.1 h with rfl | h
    · exact hys
    · have : zs.length < xs.length := by
        rw [hxs, List.length_append, List.length_cons]
        omega
      exact not_mem_of_mem_splitAt h
termination_by xs.length

/-- A character that does not occur has no last occurrence. -/
theorem splitLast_of_not_mem {xs : List Char} (h : c ∉ xs) : splitLast c xs = none := by
  induction xs with
  | nil => rfl
  | cons x xs ih =>
    have hx : x ≠ c := fun hx => h (hx ▸ List.mem_cons_self)
    simp only [splitLast, ih fun hc => h (List.mem_cons_of_mem _ hc), if_neg hx]

/-- A character has a last occurrence if it occurs. -/
theorem splitLast_eq_none {xs : List Char} : splitLast c xs = none ↔ c ∉ xs := by
  refine ⟨fun h => ?_, splitLast_of_not_mem⟩
  induction xs with
  | nil => exact List.not_mem_nil
  | cons x xs ih =>
    unfold splitLast at h
    split at h
    · cases h
    · rename_i hrest
      split at h
      · cases h
      · rename_i hx
        rw [List.mem_cons, not_or]
        exact ⟨fun hc => hx hc.symm, ih hrest⟩

/-- Text is cut at the last occurrence. -/
theorem splitLast_append {ys : List Char} (h : c ∉ ys) (xs : List Char) :
    splitLast c (xs ++ c :: ys) = some (xs, ys) := by
  induction xs with
  | nil => simp only [List.nil_append, splitLast, splitLast_of_not_mem h, if_true]
  | cons x xs ih => simp only [List.cons_append, splitLast, ih]

/-- What is cut at the last occurrence is put together again with it. -/
theorem eq_of_splitLast {xs before after : List Char} (h : splitLast c xs = some (before, after)) :
    xs = before ++ c :: after := by
  induction xs generalizing before with
  | nil => cases h
  | cons x xs ih =>
    unfold splitLast at h
    split at h
    · rename_i hrest
      cases h
      rw [ih hrest, List.cons_append]
    · split at h
      · rename_i hx
        cases h
        rw [hx, List.nil_append]
      · cases h

end Text

namespace Path

/-! ### Putting together and taking apart -/

/-- A name that can stand in a path. -/
def IsName (name : String) : Prop := name ≠ "" ∧ separator ∉ name.toList

instance : DecidablePred IsName := fun _ => inferInstanceAs (Decidable (_ ∧ _))

/-- No piece between slashes is empty. -/
def Proper (path : String) : Prop := [] ∉ Text.splitAt separator path.toList

instance : DecidablePred Proper := fun path =>
  inferInstanceAs (Decidable ([] ∉ Text.splitAt separator path.toList))

@[simp] theorem join_empty (name : String) : join "" name = name := rfl

theorem join_of_ne {above : String} (h : above ≠ "") (name : String) :
    join above name = above ++ "/" ++ name := by
  unfold join
  rw [if_neg]
  simpa using h

theorem toList_join {above : String} (h : above ≠ "") (name : String) :
    (join above name).toList = above.toList ++ separator :: name.toList := by
  rw [join_of_ne h, String.toList_append, String.toList_append, List.append_assoc]
  rfl

/-- A path is cut at its last slash where a name was joined to it. -/
theorem cutLast_join {above : String} (h : above ≠ "") {name : String} (hname : IsName name) :
    Text.cutLast separator (join above name) = some (above, name) := by
  unfold Text.cutLast
  rw [toList_join h, Text.splitLast_append hname.2]
  simp

/-- What a name stands below is nothing, or the path that it was joined to. -/
theorem parent?_join (above : String) {name : String} (hname : IsName name) :
    parent? (join above name) = if above = "" then none else some above := by
  unfold parent?
  split
  · rename_i h
    unfold Text.cutLast
    rw [h, join_empty, Text.splitLast_of_not_mem hname.2]
    rfl
  · rename_i h
    rw [cutLast_join h hname]
    rfl

/-- Joining leaves a name as it is iff there is nothing to join it to. -/
theorem join_eq_self_iff (above : String) {name : String} (hname : IsName name) :
    join above name = name ↔ above = "" := by
  constructor
  · intro h
    by_contra hne
    have hparent : parent? (join above name) = parent? (join "" name) := by rw [h, join_empty]
    rw [parent?_join above hname, parent?_join "" hname, if_neg hne, if_pos rfl] at hparent
    cases hparent
  · rintro rfl
    rfl

/-- A path below nothing is a name, if it is not empty. -/
theorem parent?_eq_none_iff {path : String} : parent? path = none ↔ path = "" ∨ IsName path := by
  unfold parent? Text.cutLast IsName
  rw [Option.map_eq_none_iff, Option.map_eq_none_iff, Text.splitLast_eq_none]
  constructor
  · intro h
    by_cases hempty : path = ""
    · exact .inl hempty
    · exact .inr ⟨hempty, h⟩
  · rintro (rfl | ⟨-, h⟩)
    · exact List.not_mem_nil
    · exact h

/-- What a path stands below is what comes before a slash. -/
theorem eq_of_parent? {path above : String} (h : parent? path = some above) :
    ∃ rest, path = above ++ "/" ++ rest := by
  unfold parent? Text.cutLast at h
  rw [Option.map_map, Option.map_eq_some_iff] at h
  obtain ⟨⟨before, after⟩, hcut, rfl⟩ := h
  refine ⟨String.ofList after, String.toList_inj.1 ?_⟩
  rw [Text.eq_of_splitLast hcut]
  simp [separator]

@[simp] theorem segments_empty : segments "" = [] := by decide

/-- The segments of a path with one more name. -/
theorem segments_join (above : String) {name : String} (hname : IsName name) :
    segments (join above name) = segments above ++ [name] := by
  have hne : name.toList ≠ [] := fun h => hname.1 (String.toList_inj.1 h)
  unfold segments
  by_cases h : above = ""
  · rw [h, join_empty, Text.splitAt_of_not_mem hname.2]
    simp [Text.splitAt, hne]
  · rw [toList_join h, Text.splitAt_append, Text.splitAt_of_not_mem hname.2, List.filter_append,
      List.map_append]
    simp [hne]

/-- Names that are put together are the segments of the path that they make. -/
theorem segments_foldl_join {names : List String} (h : ∀ n ∈ names, IsName n) (above : String) :
    segments (names.foldl join above) = segments above ++ names := by
  induction names generalizing above with
  | nil => exact (List.append_nil _).symm
  | cons name names ih =>
    obtain ⟨hname, hnames⟩ := List.forall_mem_cons.1 h
    rw [List.foldl_cons, ih hnames, segments_join above hname, List.append_assoc]
    rfl

/-- The last segment is the name that was joined last. -/
theorem leaf_join (above : String) {name : String} (hname : IsName name) :
    leaf (join above name) = name := by
  unfold leaf
  rw [segments_join above hname, List.getLastD_concat]

/-- A joined path is not empty. -/
theorem join_ne_empty (above : String) {name : String} (hname : IsName name) :
    join above name ≠ "" := by
  intro h
  have hsegments := segments_join above hname
  rw [h, segments_empty] at hsegments
  simp at hsegments

/-- A name that is added behind a path goes to the last segment. -/
theorem exists_segments_append (path : String) :
    ∃ above last, ∀ name, IsName name → segments (path ++ name) = above ++ [last ++ name] := by
  obtain ⟨pieces, last, hsplit⟩ := Text.exists_splitAt_append separator path.toList
  refine ⟨(pieces.filter (· ≠ [])).map String.ofList, String.ofList last, fun name hname => ?_⟩
  have hne : name.toList ≠ [] := fun h => hname.1 (String.toList_inj.1 h)
  unfold segments
  rw [String.toList_append, hsplit _ hname.2, List.filter_append, List.map_append,
    List.filter_cons_of_pos (by simp [hne])]
  simp [String.ofList_append]

/-- The segments of a path that leads on from another one. -/
theorem segments_below (above path : String) :
    segments (above ++ "/" ++ path) = segments above ++ segments path := by
  have hlist : (above ++ "/" ++ path).toList = above.toList ++ separator :: path.toList := by
    rw [String.toList_append, String.toList_append, List.append_assoc]
    rfl
  unfold segments
  rw [hlist, Text.splitAt_append, List.filter_append, List.map_append]

/-- Segments can stand in a path. -/
theorem isName_of_mem_segments {path name : String} (h : name ∈ segments path) : IsName name := by
  unfold segments at h
  obtain ⟨piece, hpiece, rfl⟩ := List.mem_map.1 h
  obtain ⟨hmem, hne⟩ := List.mem_filter.1 hpiece
  refine ⟨fun h => ?_, ?_⟩
  · have hnil : piece = [] := by simpa using congrArg String.toList h
    simp [hnil] at hne
  · rw [String.toList_ofList]
    exact Text.not_mem_of_mem_splitAt hmem

/-- The last segment can stand in a path, if there is one. -/
theorem leaf_cases (path : String) :
    (segments path = [] ∧ leaf path = "") ∨ IsName (leaf path) := by
  unfold leaf
  cases hsegments : segments path with
  | nil => exact .inl ⟨rfl, rfl⟩
  | cons name names =>
    have hmem : (name :: names).getLast (List.cons_ne_nil _ _) ∈ segments path := by
      rw [hsegments]
      exact List.getLast_mem _
    rw [List.getLastD_eq_getLast?, List.getLast?_eq_some_getLast (List.cons_ne_nil _ _)]
    exact .inr (isName_of_mem_segments hmem)

/-- A path on the way down is one of the names, below those before it. -/
theorem exists_of_mem_descend {names : List String} {above path : String}
    (h : path ∈ descend above names) :
    ∃ front name back, names = front ++ name :: back ∧
      path = join (front.foldl join above) name := by
  induction names generalizing above with
  | nil => cases h
  | cons name names ih =>
    rcases List.mem_cons.1 h with rfl | hrest
    · exact ⟨[], name, names, rfl, rfl⟩
    · obtain ⟨front, last, back, rfl, hpath⟩ := ih hrest
      exact ⟨name :: front, last, back, rfl, hpath⟩

/-- The way down some names and then some more. -/
theorem descend_append (above : String) (names more : List String) :
    descend above (names ++ more) =
      descend above names ++ descend (names.foldl join above) more := by
  induction names generalizing above with
  | nil => rfl
  | cons name names ih =>
    rw [List.cons_append, descend, descend, ih, List.foldl_cons, List.cons_append]

/-- Every name on the way down is the last segment of a path there. -/
theorem exists_mem_descend {names : List String} (hnames : ∀ n ∈ names, IsName n) {name : String}
    (h : name ∈ names) (above : String) : ∃ path ∈ descend above names, leaf path = name := by
  obtain ⟨front, back, rfl⟩ := List.append_of_mem h
  refine ⟨join (front.foldl join above) name, ?_, leaf_join _ (hnames name h)⟩
  rw [descend_append, descend]
  exact List.mem_append_right _ List.mem_cons_self

/-- The last segment of a beginning of a path is a segment of the path. -/
theorem leaf_mem_segments {path start : String} (h : start ∈ ancestry path) :
    leaf start ∈ segments path := by
  obtain ⟨front, name, back, hsegments, rfl⟩ := exists_of_mem_descend h
  have hmem : name ∈ segments path := by
    rw [hsegments]
    exact List.mem_append_right _ List.mem_cons_self
  rwa [leaf_join _ (isName_of_mem_segments hmem)]

/-! ### Proper paths -/

/-- Putting a name and what comes behind it below a path one by one is putting both there at
once. -/
theorem join_join_ofList (above : String) {ys zs : List Char} (hname : IsName (String.ofList ys)) :
    join (join above (String.ofList ys)) (String.ofList zs) =
      join above (String.ofList (ys ++ separator :: zs)) := by
  rw [join_of_ne (join_ne_empty above hname)]
  unfold join
  split
  · apply String.toList_inj.1
    simp [separator]
  · apply String.toList_inj.1
    simp [separator]

/-- Pieces none of which is empty make what they were cut from, below any path. -/
theorem foldl_join_splitAt {xs : List Char} (hpieces : [] ∉ Text.splitAt separator xs)
    (above : String) :
    (((Text.splitAt separator xs).filter (· ≠ [])).map String.ofList).foldl join above =
      join above (String.ofList xs) := by
  -- by induction on what is still to be cut
  induction hlen : xs.length using Nat.strongRecOn generalizing xs above with
  | _ n ih =>
    rcases Text.exists_splitAt separator xs with ⟨-, hsplit⟩ | ⟨ys, zs, hxs, hys, hsplit⟩
    · rw [hsplit] at hpieces ⊢
      have hne : xs ≠ [] := fun h => hpieces (by simp [h])
      simp [hne]
    · rw [hsplit] at hpieces ⊢
      have hne : ys ≠ [] := fun h => hpieces (by simp [h])
      have hname : IsName (String.ofList ys) := by
        refine ⟨fun h => hne ?_, ?_⟩
        · simpa using congrArg String.toList h
        · rw [String.toList_ofList]
          exact hys
      have hshorter : zs.length < n := by
        rw [← hlen, hxs, List.length_append, List.length_cons]
        omega
      have hrest := ih zs.length hshorter (fun h => hpieces (List.mem_cons_of_mem _ h))
        (join above (String.ofList ys)) rfl
      rw [List.filter_cons_of_pos (by simpa using hne), List.map_cons, List.foldl_cons, hrest,
        join_join_ofList above hname, hxs]

/-- A proper path is what its segments make. -/
theorem Proper.foldl_join {path : String} (h : Proper path) :
    (segments path).foldl join "" = path := by
  have hmade := foldl_join_splitAt h ""
  unfold segments
  rw [hmade, String.ofList_toList]
  rfl

/-- The last path on the way down is all names put together. -/
theorem foldl_join_mem_descend {names : List String} (h : names ≠ []) (above : String) :
    names.foldl join above ∈ descend above names := by
  induction names generalizing above with
  | nil => exact absurd rfl h
  | cons name names ih =>
    rw [List.foldl_cons]
    unfold descend
    by_cases hnil : names = []
    · rw [hnil]
      exact List.mem_cons_self
    · exact List.mem_cons_of_mem _ (ih hnil _)

/-- A proper path has a segment. -/
theorem Proper.segments_ne_nil {path : String} (h : Proper path) : segments path ≠ [] := by
  intro hnil
  have hempty := h.foldl_join
  rw [hnil, List.foldl_nil] at hempty
  rw [← hempty] at h
  exact absurd h (by decide)

/-- A proper path is a name below a path. -/
theorem Proper.exists_join {path : String} (h : Proper path) :
    ∃ above name, IsName name ∧ path = join above name := by
  have hne := h.segments_ne_nil
  have hlast := List.dropLast_append_getLast hne
  refine ⟨(segments path).dropLast.foldl join "", (segments path).getLast hne,
    isName_of_mem_segments (List.getLast_mem hne), ?_⟩
  have hjoin := h.foldl_join
  rw [← hlast, List.foldl_append, List.foldl_cons, List.foldl_nil] at hjoin
  exact hjoin.symm

/-- A proper path is among its own beginnings. -/
theorem Proper.mem_ancestry {path : String} (h : Proper path) : path ∈ ancestry path := by
  have := foldl_join_mem_descend h.segments_ne_nil ""
  rwa [h.foldl_join] at this

/-! ### Replacing a beginning -/

/-- `path` is `top` or lies below it. -/
def Under (path top : String) : Prop :=
  path = top ∨ ∃ rest, path = top ++ String.ofList (separator :: rest)

theorem dropHead_eq_some {head xs rest : List Char} :
    Text.dropHead head xs = some rest ↔ xs = head ++ rest := by
  induction head generalizing xs with
  | nil => simp [Text.dropHead]
  | cons h head ih =>
    cases xs with
    | nil => simp [Text.dropHead]
    | cons x xs =>
      by_cases hx : h = x
      · simp [Text.dropHead, hx, ih]
      · simp [Text.dropHead, hx, Ne.symm hx]

theorem Under.refl (path : String) : Under path path := .inl rfl

theorem Under.trans {path middle top : String} (h : Under path middle) (h' : Under middle top) :
    Under path top := by
  rcases h with rfl | ⟨rest, rfl⟩
  · exact h'
  · rcases h' with rfl | ⟨rest', rfl⟩
    · exact .inr ⟨rest, rfl⟩
    · refine .inr ⟨rest' ++ separator :: rest, ?_⟩
      rw [String.append_assoc, ← String.ofList_append]
      rfl

/-- What a path goes on with after one above it. -/
theorem under_iff_toList {path top : String} :
    Under path top ↔
      ∃ rest, path.toList = top.toList ++ rest ∧ (rest = [] ∨ ∃ cs, rest = separator :: cs) := by
  have hpath : ∀ xs, path = top ++ String.ofList xs ↔ path.toList = top.toList ++ xs := by
    intro xs
    rw [← String.toList_inj, String.toList_append, String.toList_ofList]
  constructor
  · rintro (rfl | ⟨cs, hcs⟩)
    · exact ⟨[], (List.append_nil _).symm, .inl rfl⟩
    · exact ⟨separator :: cs, (hpath _).1 hcs, .inr ⟨cs, rfl⟩⟩
  · rintro ⟨rest, hrest, rfl | ⟨cs, rfl⟩⟩
    · rw [List.append_nil] at hrest
      exact .inl (String.toList_inj.1 hrest)
    · exact .inr ⟨cs, (hpath _).2 hrest⟩

/-- Of two paths above the same one, one is above the other. -/
theorem Under.comparable {path top top' : String} (h : Under path top) (h' : Under path top') :
    Under top top' ∨ Under top' top := by
  obtain ⟨rest, hpath, hrest⟩ := under_iff_toList.1 h
  obtain ⟨rest', hpath', hrest'⟩ := under_iff_toList.1 h'
  have starts : ∀ {between tail tail' : List Char}, tail = between ++ tail' →
      (tail = [] ∨ ∃ cs, tail = separator :: cs) →
      between = [] ∨ ∃ cs, between = separator :: cs := by
    intro between tail tail' hsplit htail
    cases between with
    | nil => exact .inl rfl
    | cons c cs =>
      rcases htail with rfl | ⟨ds, rfl⟩
      · cases hsplit
      · rw [List.cons_append] at hsplit
        exact .inr ⟨cs, by rw [(List.cons.inj hsplit).1]⟩
  rcases List.append_eq_append_iff.1 (hpath.symm.trans hpath') with
    ⟨between, htop, htail⟩ | ⟨between, htop, htail⟩
  · exact .inr (under_iff_toList.2 ⟨between, htop, starts htail hrest⟩)
  · exact .inl (under_iff_toList.2 ⟨between, htop, starts htail hrest'⟩)

/-- Joining names goes down. -/
theorem under_foldl_join {names : List String} {above : String} (h : above ≠ "") :
    Under (names.foldl join above) above := by
  induction names generalizing above with
  | nil => exact Under.refl above
  | cons name names ih =>
    have hjoin : join above name = above ++ String.ofList (separator :: name.toList) := by
      apply String.toList_inj.1
      rw [toList_join h, String.toList_append, String.toList_ofList]
    have hne : join above name ≠ "" := by
      rw [hjoin]
      intro hempty
      exact h (String.append_eq_empty_iff.1 hempty).1
    exact (ih hne).trans (.inr ⟨name.toList, hjoin⟩)

/-- A proper path is at or below its first segment. -/
theorem Proper.under_topLevel {path : String} (h : Proper path) :
    IsName (topLevel path) ∧ Under path (topLevel path) := by
  have hjoin := h.foldl_join
  unfold topLevel
  cases hsegments : segments path with
  | nil => exact absurd hsegments h.segments_ne_nil
  | cons name names =>
    have hname : IsName name := isName_of_mem_segments (hsegments ▸ List.mem_cons_self)
    rw [hsegments, List.foldl_cons, join_empty] at hjoin
    refine ⟨hname, ?_⟩
    change Under path name
    rw [← hjoin]
    exact under_foldl_join hname.1

/-- Paths at or below a proper path start with the same segment. -/
theorem Proper.topLevel_of_under {path top : String} (h : Proper top) (hpath : Under path top) :
    topLevel path = topLevel top := by
  rcases hpath with rfl | ⟨rest, rfl⟩
  · rfl
  · have hslash : top ++ String.ofList (separator :: rest) = top ++ "/" ++ String.ofList rest := by
      apply String.toList_inj.1
      simp [separator]
    obtain ⟨name, names, hsegments⟩ := List.exists_cons_of_ne_nil h.segments_ne_nil
    unfold topLevel
    rw [hslash, segments_below, hsegments]
    rfl

/-- A name is at or below a path only if it is that path. -/
theorem IsName.eq_of_under {name top : String} (hname : IsName name) (h : Under name top) :
    name = top := by
  rcases h with rfl | ⟨rest, rfl⟩
  · rfl
  · refine absurd ?_ hname.2
    rw [String.toList_append, String.toList_ofList]
    exact List.mem_append_right _ List.mem_cons_self

variable {path old new p : String}

/-- A path at or below another one keeps what follows that one. -/
theorem rebase_eq_some_iff : rebase path old new = some p ↔
    path = old ∧ p = new ∨ ∃ rest, path = old ++ String.ofList (separator :: rest) ∧
      p = new ++ String.ofList (separator :: rest) := by
  have hpath : ∀ xs, path = old ++ String.ofList xs ↔ path.toList = old.toList ++ xs := by
    intro xs
    rw [← String.toList_inj, String.toList_append, String.toList_ofList]
  unfold rebase
  split
  · rename_i h
    refine ⟨fun hp => .inl ⟨h, (Option.some.inj hp).symm⟩, ?_⟩
    rintro (⟨-, rfl⟩ | ⟨rest, hrest, -⟩)
    · rfl
    · rw [hpath, h] at hrest
      simp at hrest
  · rename_i h
    constructor
    · intro hp
      split at hp
      · rename_i c rest hrest
        split at hp
        · rename_i hc
          subst hc
          exact .inr ⟨rest, (hpath _).2 (dropHead_eq_some.1 hrest), (Option.some.inj hp).symm⟩
        · cases hp
      · cases hp
    · rintro (⟨hsame, -⟩ | ⟨rest, hrest, rfl⟩)
      · exact absurd hsame h
      · rw [dropHead_eq_some.2 ((hpath _).1 hrest)]
        exact if_pos rfl

/-- What becomes of a path at or below another one does not depend on where that one goes. -/
theorem rebase_eq_none_iff : rebase path old new = none ↔ ¬ Under path old := by
  rw [Option.eq_none_iff_forall_ne_some]
  unfold Under
  constructor
  · rintro h (rfl | ⟨rest, hrest⟩)
    · exact h new (rebase_eq_some_iff.2 (.inl ⟨rfl, rfl⟩))
    · exact h _ (rebase_eq_some_iff.2 (.inr ⟨rest, hrest, rfl⟩))
  · rintro h p hp
    rcases rebase_eq_some_iff.1 hp with ⟨hsame, -⟩ | ⟨rest, hrest, -⟩
    · exact h (.inl hsame)
    · exact h (.inr ⟨rest, hrest⟩)

/-- A path at or below another one ends at or below where that one goes. -/
theorem exists_rebase (h : Under path old) (new : String) :
    ∃ p, rebase path old new = some p ∧ Under p new := by
  obtain ⟨p, hp⟩ : ∃ p, rebase path old new = some p := by
    rw [← Option.ne_none_iff_exists', ne_eq, rebase_eq_none_iff, not_not]
    exact h
  refine ⟨p, hp, ?_⟩
  rcases rebase_eq_some_iff.1 hp with ⟨-, rfl⟩ | ⟨rest, -, rfl⟩
  · exact Under.refl p
  · exact .inr ⟨rest, rfl⟩

instance (path top : String) : Decidable (Under path top) :=
  decidable_of_iff ((rebase path top "").isSome = true) (by
    rw [← Option.ne_none_iff_isSome, ne_eq, rebase_eq_none_iff, not_not])

/-- Different paths stay different. -/
theorem rebase_inj {path' : String} (h : rebase path old new = some p)
    (h' : rebase path' old new = some p) : path = path' := by
  have hne : ∀ rest, new ≠ new ++ String.ofList (separator :: rest) := by
    intro rest hnew
    have := congrArg (fun s : String => s.toList.length) hnew
    simp at this
  rcases rebase_eq_some_iff.1 h with ⟨rfl, rfl⟩ | ⟨rest, rfl, rfl⟩
  · rcases rebase_eq_some_iff.1 h' with ⟨rfl, -⟩ | ⟨rest, -, hrest⟩
    · rfl
    · exact absurd hrest (hne rest)
  · rcases rebase_eq_some_iff.1 h' with ⟨-, hrest⟩ | ⟨rest', rfl, hrest⟩
    · exact absurd hrest.symm (hne rest)
    · rw [(String.append_right_inj new).1 hrest]

/-- A path that is taken elsewhere was at or below the one path, and ends at or below the other. -/
theorem under_of_rebase (h : rebase path old new = some p) : Under path old ∧ Under p new := by
  rcases rebase_eq_some_iff.1 h with ⟨rfl, rfl⟩ | ⟨rest, rfl, rfl⟩
  · exact ⟨Under.refl path, Under.refl p⟩
  · exact ⟨.inr ⟨rest, rfl⟩, .inr ⟨rest, rfl⟩⟩

/-- A path that is taken elsewhere is another one. -/
theorem rebase_ne (hne : old ≠ new) (h : rebase path old new = some p) : p ≠ path := by
  rintro rfl
  rcases rebase_eq_some_iff.1 h with ⟨rfl, hsame⟩ | ⟨rest, hold, hnew⟩
  · exact hne hsame
  · exact hne ((String.append_left_inj _).1 (hold.symm.trans hnew))

/-- A path that is taken elsewhere grows or shrinks with its beginning. -/
theorem length_rebase (h : rebase path old new = some p) :
    p.length + old.length = path.length + new.length := by
  rcases rebase_eq_some_iff.1 h with ⟨rfl, rfl⟩ | ⟨rest, rfl, rfl⟩
  · exact Nat.add_comm _ _
  · rw [String.length_append, String.length_append]
    omega

/-- Two paths above the same one have different lengths. -/
theorem Under.length_ne {top top' : String} (h : Under path top) (h' : Under path top')
    (hne : top ≠ top') : top.length ≠ top'.length := by
  have hlonger : ∀ {p q : String}, Under p q → p ≠ q → q.length < p.length := by
    rintro p q (rfl | ⟨rest, rfl⟩) hpq
    · exact absurd rfl hpq
    · rw [String.length_append, String.length_ofList, List.length_cons]
      omega
  rcases h.comparable h' with hbelow | hbelow
  · exact Nat.ne_of_gt (hlonger hbelow hne)
  · exact Nat.ne_of_lt (hlonger hbelow hne.symm)

/-- The first segment can stand in a path, if there is one. -/
theorem topLevel_cases (path : String) : topLevel path = "" ∨ IsName (topLevel path) := by
  unfold topLevel
  cases hsegments : segments path with
  | nil => exact .inl rfl
  | cons name names => exact .inr (isName_of_mem_segments (hsegments ▸ List.mem_cons_self))

/-- A first segment is at or below a path only if it is that path. -/
theorem topLevel_eq_of_under {top : String} (h : Under (topLevel path) top) :
    topLevel path = top := by
  rcases topLevel_cases path with hempty | hname
  · rcases h with hsame | ⟨rest, hbelow⟩
    · exact hsame
    · rw [hempty] at hbelow
      exact absurd (congrArg String.toList hbelow) (by simp)
  · exact hname.eq_of_under h

/-! ### Single names -/

namespace IsName

variable {name : String} (h : IsName name)

include h

/-- A name is its own only segment. -/
theorem segments : segments name = [name] := by
  have hjoin := segments_join "" h
  rwa [join_empty, segments_empty, List.nil_append] at hjoin

theorem leaf : leaf name = name := leaf_join "" h

theorem proper : Proper name := by
  unfold Proper
  rw [Text.splitAt_of_not_mem h.2, List.mem_singleton]
  exact fun hempty => h.1 (String.toList_inj.1 hempty.symm)

theorem topLevel : topLevel name = name := by
  unfold Path.topLevel
  rw [h.segments]
  rfl

/-- A name is the first segment of the paths that begin with it. -/
theorem topLevel_eq_iff : Path.topLevel path = name ↔ (Path.segments path).head? = some name := by
  unfold Path.topLevel
  cases Path.segments path with
  | nil => exact ⟨fun hempty => absurd hempty.symm h.1, nofun⟩
  | cons first rest => exact ⟨congrArg some, Option.some.inj⟩

/-- A name is its own only beginning. -/
theorem ancestry : ancestry name = [name] := by
  unfold Path.ancestry
  rw [h.segments]
  rfl

/-- A name is a beginning of the paths whose first segment it is. -/
theorem mem_ancestry_iff : name ∈ Path.ancestry path ↔ Path.topLevel path = name := by
  unfold Path.ancestry Path.topLevel
  cases hsegments : Path.segments path with
  | nil => exact ⟨fun hmem => absurd hmem List.not_mem_nil, fun hempty => absurd hempty.symm h.1⟩
  | cons first rest =>
    have hfirst : IsName first := isName_of_mem_segments (hsegments ▸ List.mem_cons_self)
    change name ∈ first :: descend first rest ↔ first = name
    constructor
    · intro hmem
      rcases List.mem_cons.1 hmem with rfl | hmem
      · rfl
      · obtain ⟨front, last, back, -, rfl⟩ := exists_of_mem_descend hmem
        have hunder : Under ((front ++ [last]).foldl join first) first := under_foldl_join hfirst.1
        rw [List.foldl_append] at hunder
        exact (h.eq_of_under hunder).symm
    · rintro rfl
      exact List.mem_cons_self

end IsName

end Path
end OrgAlign
