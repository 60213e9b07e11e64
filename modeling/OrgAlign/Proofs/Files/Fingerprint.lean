import OrgAlign.Files.Repository
import OrgAlign.Proofs.Path

/-!
# What a fingerprint is taken of

The head of a repository is the digest of one stream of bytes, in which a zero byte ends every path
and every text. Where neither paths nor texts have a zero character of their own, the stream says
which files there are. Main statements:

* `bytesOf_injective`, `zero_mem_bytesOf`: the bytes of a text determine it, and only the zero
  character gives a zero byte;
* `stream_injective`: the stream determines the files;
* `intercalate_injective`: a path determines the names on the way.
-/

namespace OrgAlign.Files

/-! ### Texts and their bytes -/

/-- The text has no zero character. -/
def ZeroFree (text : String) : Prop := Char.ofNat 0 ∉ text.toList

instance : DecidablePred ZeroFree := fun _ => inferInstanceAs (Decidable (¬ _))

theorem bytesOf_eq (text : String) : bytesOf text = text.toList.flatMap String.utf8EncodeChar := by
  have hencode : text.toByteArray = text.toList.utf8Encode := by
    rw [← String.toByteArray_ofList, String.ofList_toList]
  unfold bytesOf
  rw [String.toUTF8_eq_toByteArray, hencode, List.utf8Encode, List.data_toByteArray]

/-- The bytes of a text determine it. -/
theorem bytesOf_injective {s t : String} (h : bytesOf s = bytesOf t) : s = t := by
  unfold bytesOf at h
  rw [String.toUTF8_eq_toByteArray, String.toUTF8_eq_toByteArray] at h
  have hdata : s.toByteArray.data = t.toByteArray.data := Array.toList_inj.1 h
  exact String.toByteArray_inj.1 (ByteArray.ext hdata)

/-- A character other than zero has no zero byte: the first byte of a longer sequence has its upper
bits set, and so has each that follows. -/
theorem zero_mem_utf8EncodeChar {c : Char} (h : 0 ∈ String.utf8EncodeChar c) :
    c = Char.ofNat 0 := by
  have hnot : ∀ {n}, n < 256 → 0 < n → (0 : UInt8) ≠ UInt8.ofNat n := by
    intro n hn hpos heq
    have hnat : n % 256 = 0 := by simpa using (congrArg UInt8.toNat heq).symm
    omega
  unfold String.utf8EncodeChar at h
  simp only at h
  split at h
  · by_contra hne
    have hpos : 0 < c.val.toNat := by
      rcases Nat.eq_zero_or_pos c.val.toNat with hzero | hpos
      · exact absurd (Char.ext (UInt32.toNat_inj.1 hzero)) hne
      · exact hpos
    exact hnot (by omega) hpos (List.mem_singleton.1 h)
  · exfalso
    split at h
    · simp only [List.mem_cons, List.not_mem_nil, or_false] at h
      rcases h with h | h
      all_goals exact hnot (by omega) (by omega) h
    split at h
    · simp only [List.mem_cons, List.not_mem_nil, or_false] at h
      rcases h with h | h | h
      all_goals exact hnot (by omega) (by omega) h
    · simp only [List.mem_cons, List.not_mem_nil, or_false] at h
      rcases h with h | h | h | h
      all_goals exact hnot (by omega) (by omega) h

/-- Only the zero character gives a zero byte. -/
theorem zero_mem_bytesOf {text : String} (h : 0 ∈ bytesOf text) : ¬ ZeroFree text := by
  rw [bytesOf_eq, List.mem_flatMap] at h
  obtain ⟨c, hc, hzero⟩ := h
  exact not_not_intro (zero_mem_utf8EncodeChar hzero ▸ hc)

/-! ### Streams -/

/-- What comes before the first zero, and what comes behind it. -/
theorem append_zero_inj {as bs more more' : List UInt8} (ha : 0 ∉ as) (hb : 0 ∉ bs)
    (h : as ++ 0 :: more = bs ++ 0 :: more') : as = bs ∧ more = more' := by
  induction as generalizing bs with
  | nil =>
    cases bs with
    | nil => exact ⟨rfl, List.tail_eq_of_cons_eq h⟩
    | cons b bs => exact absurd (List.head_eq_of_cons_eq h ▸ List.mem_cons_self) hb
  | cons a as ih =>
    cases bs with
    | nil => exact absurd (List.head_eq_of_cons_eq h ▸ List.mem_cons_self) ha
    | cons b bs =>
      obtain ⟨rfl, rfl⟩ := ih (fun hmem => ha (List.mem_cons_of_mem a hmem))
        (fun hmem => hb (List.mem_cons_of_mem b hmem)) (List.tail_eq_of_cons_eq h)
      exact ⟨congrArg (· :: as) (List.head_eq_of_cons_eq h), rfl⟩

theorem stream_cons (f : String × String) (fs : List (String × String)) :
    stream (f :: fs) = bytesOf f.1 ++ 0 :: (bytesOf f.2 ++ 0 :: stream fs) := by
  unfold stream
  rw [List.flatMap_cons]
  simp only [List.append_assoc, List.cons_append, List.nil_append]

/-- **The stream determines the files**, where neither paths nor texts have a zero character. -/
theorem stream_injective {fs gs : List (String × String)}
    (hfs : ∀ f ∈ fs, ZeroFree f.1 ∧ ZeroFree f.2) (hgs : ∀ g ∈ gs, ZeroFree g.1 ∧ ZeroFree g.2)
    (h : stream fs = stream gs) : fs = gs := by
  have hzero : ∀ {text}, ZeroFree text → 0 ∉ bytesOf text :=
    fun hfree hmem => zero_mem_bytesOf hmem hfree
  induction fs generalizing gs with
  | nil =>
    cases gs with
    | nil => rfl
    | cons g gs =>
      rw [stream_cons] at h
      exact absurd h.symm (List.append_ne_nil_of_right_ne_nil _ (List.cons_ne_nil _ _))
  | cons f fs ih =>
    cases gs with
    | nil =>
      rw [stream_cons] at h
      exact absurd h (List.append_ne_nil_of_right_ne_nil _ (List.cons_ne_nil _ _))
    | cons g gs =>
      obtain ⟨hf, hfs⟩ := List.forall_mem_cons.1 hfs
      obtain ⟨hg, hgs⟩ := List.forall_mem_cons.1 hgs
      rw [stream_cons, stream_cons] at h
      obtain ⟨hpath, h⟩ := append_zero_inj (hzero hf.1) (hzero hg.1) h
      obtain ⟨htext, h⟩ := append_zero_inj (hzero hf.2) (hzero hg.2) h
      rw [ih hfs hgs h, Prod.ext (bytesOf_injective hpath) (bytesOf_injective htext)]

/-! ### Paths -/

/-- A name that a file or folder can have. -/
def IsFileName (name : String) : Prop := Path.IsName name ∧ ZeroFree name

instance : DecidablePred IsFileName := fun _ => inferInstanceAs (Decidable (_ ∧ _))

/-- The segments of names with slashes between them are the names. -/
theorem segments_intercalate {steps : List String} (h : ∀ name ∈ steps, Path.IsName name) :
    Path.segments (String.intercalate "/" steps) = steps := by
  induction steps with
  | nil => decide
  | cons name steps ih =>
    obtain ⟨hname, hsteps⟩ := List.forall_mem_cons.1 h
    cases steps with
    | nil => rw [String.intercalate_singleton, hname.segments]
    | cons next steps =>
      rw [String.intercalate_cons_cons, Path.segments_below, hname.segments, ih hsteps]
      rfl

/-- A path determines the names on the way. -/
theorem intercalate_injective {steps steps' : List String} (h : ∀ name ∈ steps, IsFileName name)
    (h' : ∀ name ∈ steps', IsFileName name)
    (heq : String.intercalate "/" steps = String.intercalate "/" steps') : steps = steps' := by
  rw [← segments_intercalate fun name hname => (h name hname).1, heq,
    segments_intercalate fun name hname => (h' name hname).1]

/-- A path of file names has no zero character. -/
theorem zeroFree_intercalate {steps : List String} (h : ∀ name ∈ steps, IsFileName name) :
    ZeroFree (String.intercalate "/" steps) := by
  induction steps with
  | nil => decide
  | cons name steps ih =>
    obtain ⟨hname, hsteps⟩ := List.forall_mem_cons.1 h
    cases steps with
    | nil =>
      rw [String.intercalate_singleton]
      exact hname.2
    | cons next steps =>
      have hrest := ih hsteps
      unfold ZeroFree at hrest ⊢
      rw [String.intercalate_cons_cons, String.toList_append, String.toList_append]
      simp only [List.mem_append, not_or]
      exact ⟨⟨hname.2, by decide⟩, hrest⟩

end OrgAlign.Files
