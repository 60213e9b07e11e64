import OrgAlign.Proofs.Files.Entries
import OrgAlign.Proofs.Files.Identity

/-!
# Commits that fail

A commit is no transaction. One that is not even tried, because it is not about the repository and
its head or asks for nothing new, leaves everything as it is. One that is tried carries its entries
out one after the other, and stops at the first that cannot be; what was done until then stays.
Main statements:

* `Repository.carryOut_halts`: the entries before the one that failed were carried out, to the
  letter and no others;
* `Repository.commit_fails`: what that means for a commit, and when its head stays;
* `Repository.commit_leaves_half`: a commit that fails and leaves a file changed.
-/

namespace OrgAlign.Files.Repository

open Org Disk

variable {r : Repository} {d d' : Disk} {request : CommitRequest}

/-! ### Stopping half way -/

/-- Where two disks do not say the same, the first one says nothing. -/
def Within (texts texts' : Place → Option String) : Prop :=
  ∀ p, texts p = texts' p ∨ texts p = none

/-- Entries keep that so. -/
theorem Within.foldl_apply {texts texts' : Place → Option String} (h : Within texts texts')
    (entries : List Entry) :
    Within (entries.foldl (Entry.apply r d) texts) (entries.foldl (Entry.apply r d) texts') := by
  induction entries generalizing texts texts' with
  | nil => exact h
  | cons e entries ih =>
    refine ih fun p => ?_
    rcases hq : d.locate? (r.pathOf e.path) with _ | q
    · rw [Entry.apply_of_nowhere hq, Entry.apply_of_nowhere hq]
      exact h p
    · rw [Entry.apply_of_locate? hq, Entry.apply_of_locate? hq, Function.update_apply,
        Function.update_apply]
      split
      · exact .inl rfl
      · exact h p

/-- Writing files leaves what their entries ask for, or nothing. -/
theorem Within.foldl_written {puts : List (String × String)} {texts texts' : Place → Option String}
    (h : Within texts texts')
    (hlocate : ∀ put ∈ puts, d'.locate? (r.pathOf put.1) = some (r.placeOf d put.1)) :
    Within (puts.foldl (r.written d) texts)
      ((puts.map Entry.put).foldl (Entry.apply r d') texts') := by
  induction puts generalizing texts texts' with
  | nil => exact h
  | cons put puts ih =>
    obtain ⟨hput, hlocate⟩ := List.forall_mem_cons.1 hlocate
    refine ih (fun p => ?_) hlocate
    rw [Entry.apply_of_locate? (e := Entry.put put) hput]
    unfold written
    rw [Function.update_apply, Function.update_apply, Function.update_apply]
    split
    · exact .inl rfl
    · split
      · exact .inr rfl
      · exact h p

/-- What is left after some entries were carried out, and no others. Where the temporary files of
`tried` entries are written, a file may have been lost. -/
structure Leaves (r : Repository) (d d' : Disk) (done tried : List Entry) : Prop where
  /-- Elsewhere the texts are those that the entries ask for, in their order. -/
  texts : ∀ p, (∀ e ∈ tried, e.text?.isSome = true → p ≠ r.asideOf d e.path) →
    d'.textAt? p = done.foldl (Entry.apply r d') d.textAt? p
  /-- No temporary file is left anywhere. -/
  within : Within d'.textAt? (done.foldl (Entry.apply r d') d.textAt?)

/-- Files that were written, and others that were removed then, leave what their entries ask for. -/
theorem leaves_of_deleteAll {puts : List (String × String)} {deletes : List String} {d₁ : Disk}
    (hput : r.putAll puts d = (true, d₁)) (hdelete : r.deleteAll deletes d₁ = (true, d'))
    {tried : List Entry} (htried : ∀ put ∈ puts, Entry.put put ∈ tried) :
    r.Leaves d d' (puts.map Entry.put ++ deletes.map Entry.delete) tried := by
  have hextends := (deleteAll_sameFolders hdelete).extends
  refine ⟨fun p hp => ?_, ?_⟩
  · rw [textAt?_deleteAll hdelete, List.foldl_append]
    refine Entry.foldl_apply_congr (textAt?_putAll_apply hput hextends fun put hmem => ?_) _
    exact hp (Entry.put put) (htried put hmem) rfl
  · rw [textAt?_deleteAll hdelete, List.foldl_append, textAt?_putAll hput]
    refine Within.foldl_apply (Within.foldl_written (fun _ => .inl rfl) fun put hmem => ?_) _
    exact locate?_of_putAll hput hextends hmem

/-- So do files that were written before one that could not be. -/
theorem leaves_of_not_replaced {puts : List (String × String)} {d₁ : Disk}
    (hput : r.putAll puts d = (true, d₁)) {failed : String × String}
    (hfail : d₁.replace (r.pathOf failed.1) failed.2 = (false, d')) :
    r.Leaves d d' (puts.map Entry.put) (puts.map Entry.put ++ [Entry.put failed]) := by
  have hstop := not_replaced_extends hfail
  have haside : d₁.leads (temporary (r.pathOf failed.1)) = r.asideOf d failed.1 :=
    (putAll_extends hput).leads _
  refine ⟨fun p hp => ?_, fun p => ?_⟩
  · have hsame : d'.textAt? p = d₁.textAt? p := by
      rcases textAt?_not_replaced hfail with hsame | hsame
      · rw [hsame]
      · rw [hsame, haside]
        exact Function.update_of_ne
          (hp (Entry.put failed) (List.mem_append_right _ List.mem_cons_self) rfl) _ _
    rw [hsame]
    refine textAt?_putAll_apply hput hstop fun put hmem => ?_
    exact hp (Entry.put put) (List.mem_append_left _ (List.mem_map_of_mem hmem)) rfl
  · have hwithin : Within d₁.textAt? ((puts.map Entry.put).foldl (Entry.apply r d') d.textAt?) := by
      rw [textAt?_putAll hput]
      exact Within.foldl_written (fun _ => .inl rfl) fun put hmem =>
        locate?_of_putAll hput hstop hmem
    rcases textAt?_not_replaced hfail with hsame | hsame
    · rw [hsame]
      exact hwithin p
    · rw [hsame, Function.update_apply]
      split
      · exact .inr rfl
      · exact hwithin p

/-- **A request that is not carried out in full is carried out up to the entry that failed.** -/
theorem carryOut_halts (h : r.carryOut request d = (false, d')) :
    Extends d d' ∧ ∃ done failed rest, request.entries = done ++ failed :: rest ∧
      r.Leaves d d' done (done ++ [failed]) := by
  unfold carryOut at h
  split at h
  · rename_i d₁ hput
    obtain ⟨before, path, after, hsplit, hdelete, -⟩ := deleteAll_halts h
    refine ⟨(putAll_extends hput).trans (deleteAll_sameFolders hdelete).extends,
      request.puts.map Entry.put ++ before.map Entry.delete, Entry.delete path,
      after.map Entry.delete, ?_, ?_⟩
    · rw [CommitRequest.entries, hsplit, List.map_append, List.map_cons, List.append_assoc]
    · refine leaves_of_deleteAll hput hdelete fun put hmem => ?_
      simp only [List.mem_append]
      exact .inl (.inl (List.mem_map_of_mem hmem))
  · rename_i stopped hput
    obtain rfl : d' = stopped := (Prod.mk.inj h).2.symm
    obtain ⟨before, put, after, d₁, hsplit, hbefore, hfail⟩ := putAll_halts hput
    refine ⟨(putAll_extends hbefore).trans (not_replaced_extends hfail), before.map Entry.put,
      Entry.put put, after.map Entry.put ++ request.deletes.map Entry.delete, ?_,
      leaves_of_not_replaced hbefore hfail⟩
    rw [CommitRequest.entries, hsplit, List.map_append, List.map_cons, List.append_assoc]
    rfl

/-! ### Commits -/

/-- A request is tried: it is about the repository and its head, and asks for something new. -/
def Tries (r : Repository) (d : Disk) (repository : String) (request : CommitRequest) : Prop :=
  repository = r.name ∧ r.head? d = some request.parent ∧ r.changesAnything d request = true

/-- A request that is not tried is refused, and leaves the disk as it is. -/
theorem commit_of_not_tried {repository : String} (h : ¬ r.Tries d repository request) :
    (r.commit d repository request).2 = d := by
  unfold commit
  split
  · rfl
  · rename_i hnone
    obtain ⟨hname, hhead⟩ := obstacle?_eq_none.1 hnone
    split
    · rename_i hchanges
      exact absurd ⟨hname, hhead, hchanges⟩ h
    · rfl

/-- A request that is tried and fails stopped half way, or there is no head after it. -/
theorem carryOut_of_tried {repository : String} {e : ClientError}
    (htries : r.Tries d repository request)
    (h : r.commit d repository request = (.error e, d')) :
    r.carryOut request d = (false, d') ∨
      r.carryOut request d = (true, d') ∧ r.head? d' = none := by
  obtain ⟨hname, hhead, hchanges⟩ := htries
  unfold commit at h
  rw [obstacle?_eq_none.2 ⟨hname, hhead⟩] at h
  simp only [hchanges, if_true] at h
  split at h
  · rename_i hcarry
    obtain rfl := (Prod.mk.inj h).2
    exact .inl hcarry
  · rename_i hcarry
    split at h
    · cases h
    · rename_i hnone
      obtain rfl := (Prod.mk.inj h).2
      exact .inr ⟨hcarry, hnone⟩

/-- **What a commit that fails leaves behind.** One that was not tried leaves everything. One that
was tried carried out its entries up to the one that failed, or all of them if it is the new head
that could not be taken. The head stays if the visible files have the texts that they had. -/
theorem commit_fails (hd : d.Sound) {repository : String} {e : ClientError}
    (h : r.commit d repository request = (.error e, d')) :
    (¬ r.Tries d repository request → d' = d) ∧
      (r.Tries d repository request → ∃ done rest, request.entries = done ++ rest ∧
        (rest = [] → r.head? d' = none) ∧ r.Leaves d d' done (done ++ rest.take 1)) ∧
      (r.Grounded d → (∀ steps, (∀ name ∈ steps, isHidden name = false) →
          d'.textAt? (d.leads r.folder ++ steps) = d.textAt? (d.leads r.folder ++ steps)) →
        r.head? d' = r.head? d) := by
  have hrefused : ¬ r.Tries d repository request → d' = d := by
    intro htries
    rw [← commit_of_not_tried htries, h]
  refine ⟨hrefused, fun htries => ?_, fun hground htexts => ?_⟩
  · rcases carryOut_of_tried htries h with hcarry | ⟨hcarry, hnone⟩
    · obtain ⟨-, done, failed, rest, hentries, hleaves⟩ := carryOut_halts hcarry
      exact ⟨done, failed :: rest, hentries, fun hnil => absurd hnil (List.cons_ne_nil _ _),
        hleaves⟩
    · obtain ⟨d₁, hput, hdelete⟩ := carryOut_eq_true hcarry
      refine ⟨request.entries, [], (List.append_nil _).symm, fun _ => hnone, ?_⟩
      refine leaves_of_deleteAll hput hdelete fun put hmem => ?_
      rw [List.take_nil, List.append_nil]
      exact List.mem_append_left _ (List.mem_map_of_mem hmem)
  · have hsound : d'.Sound := by
      have hfollows := commit_follows (r := r) hd repository request
      rw [h] at hfollows
      exact hfollows.sound
    have hextends : Extends d d' := by
      by_cases htries : r.Tries d repository request
      · rcases carryOut_of_tried htries h with hcarry | ⟨hcarry, -⟩
        · exact (carryOut_halts hcarry).1
        · exact carryOut_extends hcarry
      · exact hrefused htries ▸ Extends.refl d
    exact head?_congr_texts hd hsound hextends hground htexts

/-! ### A folder in the way -/

/-- The folder of a repository, with a folder where a file is to be written. -/
def blocked : Disk :=
  { nodes := [(["repo"], .folder), (["repo", "a.yaml"], .file "a: 1\n"), (["repo", "b"], .folder),
      (["repo", "b", "c.yaml"], .file "c: 1\n")] }

/-- The same after the first of two files was written. -/
def halfDone : Disk :=
  { nodes := [(["repo"], .folder), (["repo", "a.yaml"], .file "a: 2\n"), (["repo", "b"], .folder),
      (["repo", "b", "c.yaml"], .file "c: 1\n")] }

/-- A request to write both. -/
def twoFiles : CommitRequest where
  parent := (Shared.team.head? blocked).getD ""
  puts := [("a.yaml", "a: 2\n"), ("b", "b: 1\n")]
  deletes := ["b/c.yaml"]

theorem commit_fails_blocked :
    Shared.team.commit blocked "config" twoFiles = (.error (.failed .commit none), halfDone) ∧
      Shared.team.Tries blocked "config" twoFiles ∧
      (¬ Shared.team.Tries blocked "config" twoFiles → halfDone = blocked) ∧
      (Shared.team.Tries blocked "config" twoFiles → ∃ done rest,
        twoFiles.entries = done ++ rest ∧ (rest = [] → Shared.team.head? halfDone = none) ∧
          Shared.team.Leaves blocked halfDone done (done ++ rest.take 1)) ∧
      (Shared.team.Grounded blocked →
        (∀ steps, (∀ name ∈ steps, isHidden name = false) →
          halfDone.textAt? (blocked.leads Shared.team.folder ++ steps) =
            blocked.textAt? (blocked.leads Shared.team.folder ++ steps)) →
        Shared.team.head? halfDone = Shared.team.head? blocked) := by
  have hsound : blocked.Sound := by decide +kernel
  have hcommit : Shared.team.commit blocked "config" twoFiles =
      (.error (.failed .commit none), halfDone) := by decide +kernel
  exact ⟨hcommit, ⟨by decide +kernel, by decide +kernel, by decide +kernel⟩,
    commit_fails hsound hcommit⟩

/-- A commit that fails, and leaves a file with another text and a head that is another. -/
theorem commit_leaves_half :
    Shared.team.commit blocked "config" twoFiles = (.error (.failed .commit none), halfDone) ∧
      blocked.textAt? ["repo", "a.yaml"] = some "a: 1\n" ∧
      halfDone.textAt? ["repo", "a.yaml"] = some "a: 2\n" ∧
      Shared.team.head? halfDone ≠ Shared.team.head? blocked := by
  refine ⟨?_, ?_, ?_, ?_⟩
  all_goals decide +kernel

end OrgAlign.Files.Repository
