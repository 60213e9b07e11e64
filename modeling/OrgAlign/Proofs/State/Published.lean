import OrgAlign.Proofs.Json.RoundTrip
import OrgAlign.Proofs.Timestamp
import OrgAlign.State.Published

/-!
# The published state reads back

What a run publishes is what the next one compares against. Main statements:

* `readAccount?_toValue`, `readOu?_toValue`: the records read back from their values;
* `ofValue?_toValue`: so does the state;
* `parse?_text`: and so does its text.
-/

namespace OrgAlign

/-! ### Fields -/

namespace Fields

variable {δ α : Type} {fields : Fields δ} {name : String} {d : δ}

/-- A field given once is read. -/
theorem read?_of_all (h : fields.all name = [d]) (read : δ → Option α) :
    fields.read? name read = (read d).map some := by
  unfold read?
  rw [h]

/-- A field that must be there and is given once is read. -/
theorem required_of_all (h : fields.all name = [d]) (read : δ → Option α) :
    fields.required name read = read d := by
  unfold required
  rw [read?_of_all h]
  cases read d <;> rfl

/-- A field that may be missing and is given once is read. -/
theorem withDefault_of_all (h : fields.all name = [d]) (default : α) (read : δ → Option α) :
    fields.withDefault name default read = read d := by
  unfold withDefault
  rw [read?_of_all h]
  cases read d <;> rfl

end Fields

namespace PublishedState

/-! ### Records -/

/-- A record's fields are what it was made of. -/
theorem recordFields?_record (names : List String) (fields : List (String × Value)) :
    recordFields? names (.record fields) = some (fields.map fun f => (.name f.1, f.2)) := by
  change ((fields.map fun f => (Value.str f.1, f.2)).mapM fun e =>
    (Value.label? e.1).map (·, e.2)) = _
  induction fields with
  | nil => rfl
  | cons f fs ih =>
    rw [List.map_cons, List.mapM_cons, ih]
    rfl

/-- A list of values that each read back reads back. -/
theorem list?_map {α : Type} {read : Value → Option α} {toValue : α → Value}
    (h : ∀ a, read (toValue a) = some a) (as : List α) :
    Source.list? read (.seq (as.map toValue)) = some as := by
  change ((as.map toValue).mapM read) = some as
  induction as with
  | nil => rfl
  | cons a as ih => simp [List.mapM_cons, h, ih]

/-- An account's record reads back. -/
theorem readAccount?_toValue (a : CanonicalAccount) : readAccount? a.toValue = some a := by
  unfold readAccount? CanonicalAccount.toValue
  rw [recordFields?_record]
  obtain ⟨key, cloudId, name, email, ou, ouPath, isMandatory, role⟩ := a
  rcases cloudId with _ | id
  · rcases role with _ | r
    · rfl
    · cases r <;> rfl
  · rcases role with _ | r
    · rfl
    · cases r <;> rfl

/-- A unit's record reads back. -/
theorem readOu?_toValue (o : CanonicalOu) : readOu? o.toValue = some o := by
  unfold readOu? CanonicalOu.toValue
  rw [recordFields?_record]
  rfl

/-! ### The state -/

/-- The value of a list fits if those of its items do. -/
theorem fitsItems_map {α : Type} {n : Nat} {toValue : α → Value}
    (h : ∀ a, Json.fits n (toValue a) = true) (as : List α) :
    Json.fitsItems n (as.map toValue) = true := by
  induction as with
  | nil => rfl
  | cons a as ih => simp [Json.fitsItems, h, ih]

/-- The value of a state has no numbers and is not nested deep. -/
theorem fits_toValue (s : PublishedState) : Json.fits Json.nestingLimit s.toValue = true := by
  have haccount : ∀ a : CanonicalAccount, Json.fits 125 a.toValue = true := by
    rintro ⟨key, cloudId, name, email, ou, ouPath, isMandatory, role⟩
    rcases cloudId with _ | id <;> rcases role with _ | r <;> rfl
  have hou : ∀ o : CanonicalOu, Json.fits 125 o.toValue = true := fun _ => rfl
  have hwarning : ∀ text, Json.fits 125 (.str text) = true := fun _ => rfl
  simp [toValue, Value.record, Value.texts, Json.fits, Json.fitsEntries, fitsItems_map haccount,
    fitsItems_map hou, fitsItems_map hwarning, Json.nestingLimit]

/-- A state reads back from its value, if its time is one that there is. -/
theorem ofValue?_toValue {s : PublishedState} (h : s.publishedAt.Valid) :
    ofValue? s.toValue = some s := by
  let fields : Fields Value :=
    [(.name "publishedAt", .str s.publishedAt.text), (.name "commitId", .str s.commitId),
      (.name "accounts", .seq (s.accounts.map CanonicalAccount.toValue)),
      (.name "organizationalUnits", .seq (s.ous.map CanonicalOu.toValue)),
      (.name "warnings", .texts s.warnings)]
  have hfields : recordFields?
      ["publishedAt", "commitId", "accounts", "organizationalUnits", "warnings"] s.toValue =
      some fields := recordFields?_record _ _
  have hall : fields.all "publishedAt" = [.str s.publishedAt.text] ∧
      fields.all "commitId" = [.str s.commitId] ∧
      fields.all "accounts" = [.seq (s.accounts.map CanonicalAccount.toValue)] ∧
      fields.all "organizationalUnits" = [.seq (s.ous.map CanonicalOu.toValue)] ∧
      fields.all "warnings" = [.texts s.warnings] := ⟨rfl, rfl, rfl, rfl, rfl⟩
  obtain ⟨htime, hcommit, haccounts, hous, hwarnings⟩ := hall
  have htext : ∀ text, Source.text? (Value.str text) = some text := fun _ => rfl
  unfold ofValue?
  rw [hfields]
  simp only [Option.bind_eq_bind, Option.bind_some, Fields.required_of_all htime,
    Fields.required_of_all hcommit, Fields.required_of_all haccounts,
    Fields.required_of_all hous, Fields.withDefault_of_all hwarnings, htext,
    Timestamp.read?_text h, list?_map readAccount?_toValue, list?_map readOu?_toValue]
  rw [show Source.texts? (Value.texts s.warnings) = some s.warnings from list?_map htext s.warnings]
  rfl

/-- **A state reads back from its text**, if its time is one that there is. -/
theorem parse?_text {s : PublishedState} (h : s.publishedAt.Valid) : parse? s.text = some s := by
  obtain ⟨text, htext, hread⟩ := Json.read?_write? (fits_toValue s)
  unfold parse? PublishedState.text
  rw [htext, Option.getD_some, hread, Option.bind_some]
  exact ofValue?_toValue h

end PublishedState
end OrgAlign
