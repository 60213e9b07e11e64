import OrgAlign.Proofs.Org.Mutations
import OrgAlign.Proofs.Org.Reachable

/-!
# Identifiers of new units

The identifier of a new unit is searched for number by number, without a bound: from one more than
there are units on, until one is no unit's. Nothing in the search itself keeps it from going on for
ever, and the units of a snapshot may carry whatever identifiers they like, even the same ones. It
ends because different numbers make different identifiers, also those with more than four digits, so
that the units cannot carry all candidates. Main statements:

* `Search.unique`, `search_nextOuId`: the search ends in one way, with the next identifier, and
  after at most one candidate more than there are units;
* `ous_perform`: a call puts the unit that it creates behind the others;
* `Creates.appends`: so do any calls, and the identifiers of created units differ;
* `newUnits_get_own_ids`: both together.
-/

namespace OrgAlign.Org

/-! ### The search -/

namespace Snapshot

variable {s : Snapshot}

/-- The search from a number on: how many candidates it takes, and with which identifier it ends. -/
inductive Search (s : Snapshot) : Nat → Nat → String → Prop
  /-- It ends where a candidate is no unit's. -/
  | free {n : Nat} (h : s.isOu (ouId n) = false) : Search s n 1 (ouId n)
  /-- It goes on with the next number where the candidate is some unit's. -/
  | taken {n tried : Nat} {id : String} (h : s.isOu (ouId n) = true)
    (hrest : Search s (n + 1) tried id) : Search s n (tried + 1) id

namespace Search

variable {n tried tried' : Nat} {id id' : String}

/-- It ends with an identifier that is no unit's. -/
theorem fresh (h : Search s n tried id) : s.isOu id = false := by
  induction h with
  | free h => exact h
  | taken _ _ ih => exact ih

/-- It ends in one way. -/
theorem unique (h : Search s n tried id) (h' : Search s n tried' id') :
    tried = tried' ∧ id = id' := by
  induction h generalizing tried' with
  | free hfree =>
    cases h' with
    | free _ => exact ⟨rfl, rfl⟩
    | taken htaken _ => exact absurd (hfree.symm.trans htaken) Bool.false_ne_true
  | taken htaken _ ih =>
    cases h' with
    | free hfree => exact absurd (hfree.symm.trans htaken) Bool.false_ne_true
    | taken _ hrest =>
      obtain ⟨rfl, rfl⟩ := ih hrest
      exact ⟨rfl, rfl⟩

/-- It ends with the first free one of so many candidates, if there is one. -/
theorem of_find? {count : Nat}
    (h : ((List.range count).map fun i => ouId (n + i)).find? (fun id => !s.isOu id) = some id) :
    ∃ tried ≤ count, Search s n tried id := by
  induction count generalizing n with
  | zero => cases h
  | succ count ih =>
    rw [List.range_succ_eq_map, List.map_cons, List.map_map, Nat.add_zero] at h
    cases hou : s.isOu (ouId n) with
    | false =>
      rw [List.find?_cons_of_pos (by rw [hou]; rfl)] at h
      cases h
      exact ⟨1, by omega, .free hou⟩
    | true =>
      rw [List.find?_cons_of_neg (by rw [hou]; exact Bool.false_ne_true)] at h
      have hshift : ((fun i => ouId (n + i)) ∘ Nat.succ) = fun i => ouId (n + 1 + i) := by
        funext i
        rw [Function.comp_apply, Nat.add_right_comm, Nat.add_assoc]
      rw [hshift] at h
      obtain ⟨tried, hle, hsearch⟩ := ih h
      exact ⟨tried + 1, by omega, .taken hou hsearch⟩

end Search

/-- **The search for the next unit's identifier ends**, after at most one candidate more than there
are units. -/
theorem search_nextOuId (s : Snapshot) :
    ∃ tried ≤ s.ous.length + 1, Search s (s.ous.length + 1) tried s.nextOuId := by
  obtain ⟨id, hid, hfree⟩ := s.exists_free_candidate
  cases hfind : s.candidateIds.find? fun id => !s.isOu id with
  | none =>
    have hused := List.find?_eq_none.1 hfind id hid
    rw [hfree] at hused
    exact absurd rfl hused
  | some found =>
    have hnext : s.nextOuId = found := by
      unfold nextOuId
      rw [hfind]
      rfl
    rw [hnext]
    exact Search.of_find? hfind

end Snapshot

/-! ### Created units -/

/-- The unit that an answered call created, if it created one. -/
def newUnits : Except ClientError (Option OuNode) → List OuNode
  | .ok made => made.toList
  | .error _ => []

/-- What can become of an organization, and the units that are created meanwhile. -/
inductive Creates (o : Organization) : List OuNode → Organization → Prop
  | start : Creates o [] o
  /-- A call is made, whatever becomes of it. -/
  | call {made : List OuNode} {o' : Organization} (h : Creates o made o') (c : Call) :
    Creates o (made ++ newUnits (o'.answer c)) (o'.perform c)
  /-- The log is cleared, or other subjects are made to fail. -/
  | between {made : List OuNode} {o' : Organization} (h : Creates o made o') (calls : List Call)
    (failing : List String) :
    Creates o made { o' with calls := calls, failing := failing }

/-- An answer comes with one new unit at most. -/
theorem nodup_newUnits (answer : Except ClientError (Option OuNode)) :
    ((newUnits answer).map OuNode.id).Nodup := by
  match answer with
  | .error _ => exact List.nodup_nil
  | .ok none => exact List.nodup_nil
  | .ok (some node) => exact List.nodup_singleton node.id

/-- Calls other than that for a new unit create none. -/
theorem newUnits_map_none (answer : Except ClientError Unit) :
    newUnits (answer.map fun _ => none) = [] := by
  cases answer <;> rfl

/-- A call puts the unit that it creates behind the others, under an identifier that none has. -/
theorem ous_perform (o : Organization) (c : Call) :
    (o.perform c).snapshot.ous = o.snapshot.ous ++ newUnits (o.answer c) ∧
      ∀ node ∈ newUnits (o.answer c), o.snapshot.isOu node.id = false := by
  have hother : (∀ name parent, c ≠ .createOu name parent) → newUnits (o.answer c) = [] →
      (o.perform c).snapshot.ous = o.snapshot.ous ++ newUnits (o.answer c) ∧
        ∀ node ∈ newUnits (o.answer c), o.snapshot.isOu node.id = false := by
    intro hc hnone
    rw [hnone, List.append_nil]
    refine ⟨?_, List.forall_mem_nil _⟩
    obtain ⟨-, hous | ⟨node, hcall, -⟩⟩ := o.perform_units c
    · exact hous
    · exact absurd hcall (hc _ _)
  cases c with
  | createOu name parent =>
    rcases o.createOu_cases name parent with ⟨e, h⟩ | ⟨node, s, hs, h⟩
    · have hanswer : o.answer (.createOu name parent) = .error e :=
        congrArg (fun outcome => outcome.1.map some) h
      have hdone : o.perform (.createOu name parent) = o.after (.createOu name parent) o.snapshot :=
        congrArg Prod.snd h
      rw [hanswer, hdone]
      exact ⟨(List.append_nil _).symm, List.forall_mem_nil _⟩
    · have hanswer : o.answer (.createOu name parent) = .ok (some node) :=
        congrArg (fun outcome => outcome.1.map some) h
      have hdone : o.perform (.createOu name parent) = o.after (.createOu name parent) s :=
        congrArg Prod.snd h
      obtain ⟨rfl, hfits, -⟩ := Snapshot.created_eq_ok hs
      rw [hanswer, hdone]
      refine ⟨rfl, fun made hmade => ?_⟩
      rw [List.mem_singleton.1 hmade]
      exact hfits.fresh
  | moveAccount account source target =>
    exact hother (fun _ _ => nofun) (newUnits_map_none _)
  | attachPolicy policy target => exact hother (fun _ _ => nofun) (newUnits_map_none _)
  | detachPolicy policy target => exact hother (fun _ _ => nofun) (newUnits_map_none _)

/-- Whatever happens, units that are created come behind the others, under identifiers that differ
from those of the others and from each other. -/
theorem Creates.appends {o o' : Organization} {made : List OuNode} (h : Creates o made o') :
    o'.snapshot.ous = o.snapshot.ous ++ made ∧ (made.map OuNode.id).Nodup ∧
      ∀ node ∈ made, o.snapshot.isOu node.id = false := by
  induction h with
  | start => exact ⟨(List.append_nil _).symm, List.nodup_nil, List.forall_mem_nil _⟩
  | @call made o' _ c ih =>
    obtain ⟨hous, hnodup, hfresh⟩ := ih
    obtain ⟨hmore, hnew⟩ := ous_perform o' c
    -- an identifier that is free now was free all along
    have hfree : ∀ node ∈ newUnits (o'.answer c), ∀ ou ∈ o.snapshot.ous ++ made,
        ou.id ≠ node.id := by
      intro node hnode ou hou hid
      have hou' : o'.snapshot.isOu node.id = true := Snapshot.isOu_iff.2 ⟨ou, hous ▸ hou, hid⟩
      rw [hnew node hnode] at hou'
      cases hou'
    refine ⟨by rw [hmore, hous, List.append_assoc], ?_, ?_⟩
    · rw [List.map_append]
      refine List.nodup_append.2 ⟨hnodup, nodup_newUnits _, ?_⟩
      intro id hid id' hid' hsame
      obtain ⟨ou, hou, rfl⟩ := List.mem_map.1 hid
      obtain ⟨node, hnode, rfl⟩ := List.mem_map.1 hid'
      exact hfree node hnode ou (List.mem_append_right _ hou) hsame
    · intro node hnode
      rcases List.mem_append.1 hnode with hnode | hnode
      · exact hfresh node hnode
      · rw [← Bool.not_eq_true, Snapshot.isOu_iff]
        rintro ⟨ou, hou, hid⟩
        exact hfree node hnode ou (List.mem_append_left _ hou) hid
  | between _ calls failing ih => exact ih

/-- **New units get identifiers of their own.** Whatever identifiers the units have, the search for
the next one ends in one way: after at most one candidate more than there are units, and with an
identifier that none of them has. So units that are created, whatever happens in between, differ in
their identifiers from each other and from those that were there. -/
theorem newUnits_get_own_ids :
    (∀ s : Snapshot, (∃ tried ≤ s.ous.length + 1, ∀ n id,
        s.Search (s.ous.length + 1) n id ↔ n = tried ∧ id = s.nextOuId) ∧
      ∀ ou ∈ s.ous, ou.id ≠ s.nextOuId) ∧
    (∀ o made o', Creates o made o' → o'.snapshot.ous = o.snapshot.ous ++ made ∧
      (made.map OuNode.id).Nodup ∧ ∀ node ∈ made, ∀ ou ∈ o.snapshot.ous, ou.id ≠ node.id) := by
  have hfree : ∀ {s : Snapshot} {id}, s.isOu id = false → ∀ ou ∈ s.ous, ou.id ≠ id := by
    intro s id hid ou hou hsame
    rw [Snapshot.isOu_iff.2 ⟨ou, hou, hsame⟩] at hid
    cases hid
  refine ⟨fun s => ?_, fun o made o' h => ?_⟩
  · obtain ⟨tried, hle, hsearch⟩ := s.search_nextOuId
    refine ⟨⟨tried, hle, fun n id => ⟨fun h => h.unique hsearch, ?_⟩⟩, hfree hsearch.fresh⟩
    rintro ⟨rfl, rfl⟩
    exact hsearch
  · obtain ⟨hous, hnodup, hfresh⟩ := h.appends
    exact ⟨hous, hnodup, fun node hnode => hfree (hfresh node hnode)⟩

/-- Two units that have the first two identifiers to be tried. -/
def crowded : Organization where
  snapshot :=
    { root := some ⟨"r-1", "Root"⟩
      ous := [⟨"ou-0004", "A", "r-1"⟩, ⟨"ou-0003", "B", "r-1"⟩] }

/-- The search for the next identifier needs all its three candidates. The unit is created, a call
for a name that is taken is refused, the root is made to fail, and one more unit is created
below. -/
theorem newUnits_get_own_ids_crowded :
    crowded.snapshot.Search 3 3 "ou-0005" ∧ crowded.snapshot.nextOuId = "ou-0005" ∧
      ∃ o, Creates crowded [⟨"ou-0005", "C", "r-1"⟩, ⟨"ou-0006", "C", "ou-0005"⟩] o ∧
        o.snapshot.ous.map OuNode.id = ["ou-0004", "ou-0003", "ou-0005", "ou-0006"] ∧
        ["ou-0005", "ou-0006"].Nodup := by
  have hsearch : crowded.snapshot.Search 3 3 "ou-0005" :=
    .taken (by decide +kernel) (.taken (by decide +kernel) (.free (by decide +kernel)))
  obtain ⟨⟨tried, -, hends⟩, -⟩ := newUnits_get_own_ids.1 crowded.snapshot
  refine ⟨hsearch, ((hends 3 "ou-0005").1 hsearch).2.symm, ?_⟩
  let o₁ := crowded.perform (.createOu "C" "r-1")
  let o₂ : Organization :=
    { o₁.perform (.createOu "A" "r-1") with calls := [], failing := ["r-1"] }
  let o₃ := o₂.perform (.createOu "C" "ou-0005")
  have hmade : [] ++ newUnits (crowded.answer (.createOu "C" "r-1")) ++
      newUnits (o₁.answer (.createOu "A" "r-1")) ++
      newUnits (o₂.answer (.createOu "C" "ou-0005")) =
        [⟨"ou-0005", "C", "r-1"⟩, ⟨"ou-0006", "C", "ou-0005"⟩] := by decide +kernel
  have hcreates : Creates crowded [⟨"ou-0005", "C", "r-1"⟩, ⟨"ou-0006", "C", "ou-0005"⟩] o₃ := by
    rw [← hmade]
    exact .call (.between (.call (.call .start _) _) [] ["r-1"]) _
  obtain ⟨hous, hnodup, -⟩ := newUnits_get_own_ids.2 crowded _ o₃ hcreates
  exact ⟨o₃, hcreates, by rw [hous]; rfl, hnodup⟩

end OrgAlign.Org
