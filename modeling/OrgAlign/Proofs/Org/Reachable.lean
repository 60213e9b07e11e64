import OrgAlign.Proofs.Org.Attachments
import OrgAlign.Proofs.Org.Places
import OrgAlign.Proofs.Org.Reading

/-!
# Organizations that calls lead to

Whatever is called, and whatever is made to fail meanwhile, an organization whose units hang
together below the root and have names that make paths stays such a one. Main statements:

* `perform_units`: a call adds one unit that fits, or leaves the units as they are;
* `Rooted.perform`, `Named.perform`: one call keeps the units below the root and their names apart;
* `toldApart_of_named`: in such an organization every unit is found at the path that its parents
  make, and no two units at one path;
* `reaches_toldApart`: so it is after any calls.
-/

namespace OrgAlign.Org

open Snapshot

/-! ### One call -/

/-- A unit that the call creates gets a name that can stand in a path. -/
def Call.NamesUnit : Call → Prop
  | createOu name _ => Path.IsName name
  | _ => True

instance : DecidablePred Call.NamesUnit := fun c =>
  match c with
  | .createOu name _ => inferInstanceAs (Decidable (Path.IsName name))
  | .moveAccount _ _ _ => isTrue trivial
  | .attachPolicy _ _ => isTrue trivial
  | .detachPolicy _ _ => isTrue trivial

namespace Organization

variable {o : Organization} {c : Call}

/-- The root stays whatever is called, and the units stay or get one more: of the name that was
asked for, under a parent that is there and has no unit of that name. -/
theorem perform_units (o : Organization) (c : Call) :
    (o.perform c).snapshot.root = o.snapshot.root ∧
      ((o.perform c).snapshot.ous = o.snapshot.ous ∨
        ∃ node, c = .createOu node.name node.parent ∧ o.snapshot.Fits node ∧
          (∀ ou ∈ o.snapshot.ous, ou.parent = node.parent → ou.name ≠ node.name) ∧
          (o.perform c).snapshot.ous = (o.snapshot.addOu node).ous) := by
  cases c with
  | createOu name parent =>
    rcases o.createOu_cases name parent with ⟨e, h⟩ | ⟨node, s, hs, h⟩
    · have hdone : o.perform (.createOu name parent) = o.after (.createOu name parent) o.snapshot :=
        congrArg Prod.snd h
      rw [hdone]
      exact ⟨rfl, .inl rfl⟩
    · have hdone : o.perform (.createOu name parent) = o.after (.createOu name parent) s :=
        congrArg Prod.snd h
      obtain ⟨rfl, hfits, rfl, rfl, hnew⟩ := created_eq_ok hs
      rw [hdone]
      exact ⟨rfl, .inr ⟨node, rfl, hfits, hnew, rfl⟩⟩
  | moveAccount account source target =>
    rcases o.moveAccount_cases account source target with ⟨e, h⟩ | ⟨s, hs, h⟩
    · have hdone : o.perform (.moveAccount account source target) =
          o.after (.moveAccount account source target) o.snapshot := congrArg Prod.snd h
      rw [hdone]
      exact ⟨rfl, .inl rfl⟩
    · have hdone : o.perform (.moveAccount account source target) =
          o.after (.moveAccount account source target) s := congrArg Prod.snd h
      rw [hdone, eq_of_moved hs]
      exact ⟨rfl, .inl rfl⟩
  | attachPolicy policy target =>
    have hkept := o.rearranged_attachPolicy policy target
    exact ⟨hkept.root, .inl hkept.ous⟩
  | detachPolicy policy target =>
    have hkept := o.rearranged_detachPolicy policy target
    exact ⟨hkept.root, .inl hkept.ous⟩

end Organization

namespace Snapshot

variable {s s' : Snapshot} {o : Organization} {c : Call}

/-- Whether names of units make paths shows in the units. -/
theorem Named.congr (h : s.Named) (hous : s'.ous = s.ous) : s'.Named :=
  ⟨hous ▸ h.siblings, hous ▸ h.names⟩

/-- A call leaves the units below the root. -/
theorem Rooted.perform (h : o.snapshot.Rooted) (c : Call) : (o.perform c).snapshot.Rooted := by
  obtain ⟨hroot, hous | ⟨node, -, hfits, -, hous⟩⟩ := o.perform_units c
  · exact h.congr hroot hous
  · exact (h.addOu hfits).congr hroot hous

/-- A call leaves names that make paths, if a unit that it creates gets such a name. -/
theorem Named.perform (h : o.snapshot.Named) (hc : c.NamesUnit) : (o.perform c).snapshot.Named := by
  obtain ⟨-, hous | ⟨node, rfl, -, hnew, hous⟩⟩ := o.perform_units c
  · exact h.congr hous
  · exact (h.addOu hc hnew).congr hous

end Snapshot

/-! ### Paths -/

/-- The units of an organization are told apart by their paths. -/
structure ToldApart (o : Organization) : Prop where
  /-- A unit right under the root is found at its name. -/
  top : ∀ node ∈ o.snapshot.ous, o.snapshot.isRoot node.parent = true →
    o.ouWithPath node.id = .ok ⟨node.id, node.name, node.parent, node.name⟩
  /-- Any other unit is found at its parent's path, a slash and its name. -/
  below : ∀ node ∈ o.snapshot.ous, o.snapshot.isRoot node.parent = false →
    ∃ up ∈ o.snapshot.ous, up.id = node.parent ∧
      ∃ path, o.ouWithPath up.id = .ok ⟨up.id, up.name, up.parent, path⟩ ∧
        o.ouWithPath node.id = .ok ⟨node.id, node.name, node.parent, path ++ "/" ++ node.name⟩
  /-- No two units are found at one path. -/
  apart : ∀ id id' ou ou', o.ouWithPath id = .ok ou → o.ouWithPath id' = .ok ou' → id ≠ id' →
    ou.path ≠ ou'.path

/-- A unit is found with its path. -/
theorem Organization.ouWithPath_id {o : Organization} (hs : o.snapshot.Linked) {node : OuNode}
    (hnode : node ∈ o.snapshot.ous) : o.ouWithPath node.id = .ok (o.snapshot.located node) := by
  unfold ouWithPath
  rw [hs.ou?_id hnode]

/-- **Where the units hang together below the root and have names that make paths, they are told
apart by their paths.** -/
theorem toldApart_of_named {o : Organization} (hs : o.snapshot.Linked) (hn : o.snapshot.Named) :
    ToldApart o := by
  constructor
  · intro node hnode hroot
    have habove := (hs.pathAt_eq_empty_iff hn.names (hs.parents node hnode)).2 hroot
    rw [Organization.ouWithPath_id hs hnode]
    unfold located
    rw [hs.pathOf_eq_join hnode, habove, Path.join_empty]
  · intro node hnode hroot
    have hparent := hs.parents node hnode
    obtain ⟨up, hup, hid⟩ : ∃ up ∈ o.snapshot.ous, up.id = node.parent := by
      apply isOu_iff.1
      unfold isParent at hparent
      rwa [hroot, Bool.false_or] at hparent
    refine ⟨up, hup, hid, o.snapshot.pathOf up, Organization.ouWithPath_id hs hup, ?_⟩
    have hne : o.snapshot.pathAt node.parent ≠ "" := by
      intro hempty
      rw [(hs.pathAt_eq_empty_iff hn.names hparent).1 hempty] at hroot
      cases hroot
    rw [Organization.ouWithPath_id hs hnode]
    unfold located
    rw [hs.pathOf_eq_join hnode, Path.join_of_ne hne, ← hid, hs.pathAt_id hup]
  · intro id id' ou ou' hou hou' hne hpath
    obtain ⟨node, hnode, rfl, rfl⟩ := Organization.ouWithPath_eq_ok hou
    obtain ⟨node', hnode', rfl, rfl⟩ := Organization.ouWithPath_eq_ok hou'
    exact hne (congrArg OuNode.id (hs.pathOf_inj hn hnode hnode' hpath))

/-! ### Any calls -/

/-- What can become of an organization: calls are made, whose new units get names that can stand in
a path, and at any time other subjects can be made to fail. -/
inductive Reaches (o : Organization) : Organization → Prop
  | refl : Reaches o o
  | call {o' : Organization} (h : Reaches o o') {c : Call} (hc : c.NamesUnit) :
    Reaches o (o'.perform c)
  | fail {o' : Organization} (h : Reaches o o') (subjects : List String) :
    Reaches o { o' with failing := subjects }

/-- Calls keep the root, and keep the units below it and their names apart. -/
theorem Reaches.keeps {o o' : Organization} (h : Reaches o o') (hs : o.snapshot.Rooted)
    (hn : o.snapshot.Named) : o'.snapshot.root = o.snapshot.root ∧ o'.snapshot.Rooted ∧
      o'.snapshot.Named := by
  induction h with
  | refl => exact ⟨rfl, hs, hn⟩
  | call _ hc ih =>
    obtain ⟨hroot, hs', hn'⟩ := ih
    exact ⟨(Organization.perform_units _ _).1.trans hroot, hs'.perform _, hn'.perform hc⟩
  | fail _ _ ih => exact ih

/-- **Paths identify units in every organization that calls lead to.** The root stays, the units
still hang together below it, siblings still have different names that can stand in a path, and so
units are told apart by their paths. -/
theorem reaches_toldApart {o o' : Organization} (hs : o.snapshot.Rooted) (hn : o.snapshot.Named)
    (h : Reaches o o') : o'.snapshot.root = o.snapshot.root ∧ o'.snapshot.Rooted ∧
      o'.snapshot.Named ∧ ToldApart o' := by
  obtain ⟨hroot, hs', hn'⟩ := h.keeps hs hn
  exact ⟨hroot, hs', hn', toldApart_of_named hs'.linked hn'⟩

/-- One unit right under the root, and an account in it. -/
def oneUnit : Organization where
  snapshot :=
    { root := some ⟨"r-1", "Root"⟩
      ous := [⟨"ou-a", "Apps", "r-1"⟩]
      accounts := [⟨"111", "Ops", "ops@x", .active, "ou-a"⟩] }

/-- A unit gets one below it of its own name. While that one is made to fail, the account is not
moved into it, and a unit right under the root is created all the same. -/
theorem reaches_toldApart_oneUnit :
    let o := (({ oneUnit.perform (.createOu "Apps" "ou-a") with failing := ["ou-0002"] }.perform
      (.moveAccount "111" "ou-a" "ou-0002")).perform (.createOu "Dev" "r-1"))
    (o.ouWithPath "ou-0002").toOption.map LiveOu.path = some "Apps/Apps" ∧
      (o.snapshot.accounts.map LiveAccount.parent) = ["ou-a"] ∧ ToldApart o := by
  intro o
  have hflat : oneUnit.snapshot.Flat ⟨"r-1", "Root"⟩ := by decide +kernel
  have hreaches : Reaches oneUnit o := by
    apply Reaches.call
    · apply Reaches.call
      · apply Reaches.fail
        apply Reaches.call
        · exact Reaches.refl
        · decide
      · decide
    · decide
  have htold := reaches_toldApart hflat.wellFormed.toRooted hflat.wellFormed.toNamed hreaches
  exact ⟨by decide +kernel, by decide +kernel, htold.2.2.2⟩

end OrgAlign.Org
