import OrgAlign.Proofs.Files.Routes
import OrgAlign.Proofs.State.Published
import OrgAlign.State.Store

/-!
# The state store

Whether a state can be published is up to the disk alone: no state, whatever it says, is refused
where another one is not. Main statements:

* `load_of_publish`: a state that was published is the one that is loaded;
* `publish_again`: the next one can be published in its place;
* `published_loads_back`: a state is published exactly where there is room for its file, and then it
  is the one that is loaded;
* `unchanged_of_sameOnRoute`: in between, whatever keeps off the route to the state's file leaves
  the store as it was.
-/

namespace OrgAlign.StateStore

open Files

variable {s : StateStore} {d d' : Disk} {state : PublishedState}

/-! ### Publishing and loading -/

/-- Publishing replaces the state's file. -/
theorem publish_eq_ok : s.publish d state = (.ok (), d') ↔
    d.replace s.path state.text = (true, d') := by
  unfold publish
  rcases d.replace s.path state.text with ⟨_ | _, d''⟩
  · simp
  · simp

/-- **The state that was published is the one that is loaded.** -/
theorem load_of_publish (h : s.publish d state = (.ok (), d')) (htime : state.publishedAt.Valid) :
    s.load d' = .ok (some state) := by
  obtain ⟨hread, -⟩ := Disk.replace_spec (publish_eq_ok.1 h)
  unfold load
  rw [if_pos (Disk.isThere_of_read? hread), hread, Option.bind_some,
    PublishedState.parse?_text htime]

/-- Where a state was published, another one can be. -/
theorem publish_again (h : s.publish d state = (.ok (), d')) (next : PublishedState) :
    ∃ d'', s.publish d' next = (.ok (), d'') := by
  obtain ⟨-, hagain⟩ := Disk.replace_spec (publish_eq_ok.1 h)
  have hnext := hagain next.text
  rcases hreplaced : d'.replace s.path next.text with ⟨done, d''⟩
  rw [hreplaced] at hnext
  exact ⟨d'', publish_eq_ok.2 (hreplaced.trans (by rw [← hnext]))⟩

/-- **A published state survives.** It is published exactly where there is room for its file, which
does not depend on what the state says, and then the state that is loaded is the same, whatever its
texts are and whichever of its fields are missing. -/
theorem published_loads_back (s : StateStore) (d : Disk) {state : PublishedState}
    (htime : state.publishedAt.Valid) :
    ((s.publish d state).1 = .ok () ↔ d.HasRoom s.path) ∧
      (d.HasRoom s.path → s.load (s.publish d state).2 = .ok (some state)) := by
  have hpublish : (s.publish d state).1 = .ok () ↔ d.HasRoom s.path := by
    refine Iff.trans ?_ (Disk.replace_succeeds_iff : (d.replace s.path state.text).1 = true ↔ _)
    unfold publish
    rcases d.replace s.path state.text with ⟨_ | _, d'⟩
    · simp
    · simp
  refine ⟨hpublish, fun hroom => ?_⟩
  have hdone : s.publish d state = (.ok (), (s.publish d state).2) :=
    Prod.ext (hpublish.2 hroom) rfl
  exact load_of_publish hdone htime

/-- A store in a home folder where nothing was published yet. -/
def freshStore : StateStore := ⟨"/home", "acme"⟩

/-- The disk with that home folder. -/
def freshHome : Disk := { nodes := [(["home"], .folder)] }

/-- A state with two accounts, of which one has all that is optional and the other nothing of it,
published within a leap second. -/
def mixedState : PublishedState where
  publishedAt := ⟨17166, 86399, 1500000000⟩
  commitId := ""
  accounts :=
    [⟨"log", some "", "Log \"1\"", "log@x.org", "Core", "Core/Sub", true, some .logArchive⟩,
      ⟨"log", none, "Lög\n", "", "Core", "Core", false, none⟩]
  ous := [⟨"ou-1", "Sub", "Core/Sub", "Core/Sub"⟩, ⟨"", "", "", ""⟩]
  warnings := ["drift", "\t"]

theorem published_loads_back_freshHome :
    mixedState.publishedAt.Valid ∧
      (freshStore.publish freshHome mixedState).1 = .ok () ∧
      freshStore.load (freshStore.publish freshHome mixedState).2 = .ok (some mixedState) := by
  have htime : mixedState.publishedAt.Valid := ⟨by decide, by decide, by decide⟩
  have hroom : freshHome.HasRoom freshStore.path :=
    Disk.replace_succeeds_iff.1
      (show (freshHome.replace freshStore.path "").1 = true by decide +kernel)
  obtain ⟨hpublish, hload⟩ := published_loads_back freshStore freshHome htime
  exact ⟨htime, hpublish.2 hroom, hload hroom⟩

/-! ### Between two publications -/

/-- The store is as it was. -/
structure Unchanged (s : StateStore) (d d' : Disk) : Prop where
  /-- At the path of the state's file is the same. -/
  file : d'.node? s.path = d.node? s.path
  /-- The same state is loaded, or loading fails the same way. -/
  load : s.load d' = s.load d

/-- What is the same all along the route to the state's file leaves the store as it was. -/
theorem unchanged_of_sameOnRoute (h : Disk.SameOnRoute d d' s.path) : s.Unchanged d d' := by
  refine ⟨h.node?, ?_⟩
  unfold load Disk.isThere Disk.read?
  rw [h.node?]

end OrgAlign.StateStore
