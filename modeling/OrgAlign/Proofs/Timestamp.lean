import Mathlib.Tactic.Common
import Mathlib.Tactic.IntervalCases
import OrgAlign.Timestamp

/-!
# Timestamps read back

The text of a point in time is read back as that point in time. Main statements:

* `dayNumber_dateOf`, `valid_dateOf`: every day has a date, and that date is that day's;
* `number?_padded`: a number reads back from its digits;
* `read?_text`: so does a timestamp.
-/

namespace OrgAlign.Timestamp

/-! ### The calendar -/

/-- A day of an era before its last one: the century, four years of it, and the days left. -/
theorem centuries {e : Int} (h₀ : 0 ≤ e) (h₁ : e < 146096) :
    ∃ c q r : Int, e = 36524 * c + 1461 * q + r ∧ 0 ≤ c ∧ c ≤ 3 ∧ 0 ≤ q ∧ q ≤ 24 ∧ 0 ≤ r ∧
      r ≤ 1460 ∧ (q = 24 → r < 1460) :=
  ⟨e / 36524, e % 36524 / 1461, e % 36524 % 1461, by omega⟩


/-- The year of an era, from March, that a day of the era is in, and when that year has a leap
day. -/
theorem yearOfEra_spec {e : Int} (h₀ : 0 ≤ e) (h₁ : e < 146097) (y : Int)
    (hy : y = (e - e / 1460 + e / 36524 - e / 146096) / 365) :
    0 ≤ y ∧ y ≤ 399 ∧ 365 * y + y / 4 - y / 100 ≤ e ∧ e ≤ 365 * y + y / 4 - y / 100 + 365 ∧
      (e = 365 * y + y / 4 - y / 100 + 365 →
        (y + 1) % 4 = 0 ∧ ((y + 1) % 100 ≠ 0 ∨ (y + 1) % 400 = 0)) := by
  by_cases hlast : e = 146096
  · subst hlast
    simp at hy
    subst hy
    simp
  obtain ⟨c, q, r, he, hc₀, hc₁, hq₀, hq₁, hr₀, hr₁, hqr⟩ := centuries h₀ (by omega)
  have hfour : e / 1460 = 25 * c + q + (24 * c + q + r) / 1460 := by omega
  have hcentury : e / 36524 = c := by omega
  have hera : e / 146096 = 0 := by omega
  obtain ⟨k, hk, hk₀, hk₁, hkr, hkr'⟩ : ∃ k : Int, y = 100 * c + 4 * q + k ∧ 0 ≤ k ∧ k ≤ 3 ∧
      365 * k ≤ r ∧ r ≤ 365 * k + 365 ∧ (r = 365 * k + 365 → k = 3) := by
    refine ⟨(r - (24 * c + q + r) / 1460) / 365, ?_⟩
    omega
  have hquarter : y / 4 = 25 * c + q := by omega
  have hhundred : y / 100 = c := by omega
  omega

/-- The month, from March, and the day of the month of a day of the year. -/
theorem monthOfYear_spec {d : Int} (h₀ : 0 ≤ d) (h₁ : d ≤ 365) (m : Int)
    (hm : m = (5 * d + 2) / 153) :
    0 ≤ m ∧ m ≤ 11 ∧ 1 ≤ d - (153 * m + 2) / 5 + 1 ∧ d - (153 * m + 2) / 5 + 1 ≤ 31 ∧
    (m = 11 → d - (153 * m + 2) / 5 + 1 ≤ 29 ∧ (d < 365 → d - (153 * m + 2) / 5 + 1 ≤ 28)) ∧
    (m = 1 ∨ m = 3 ∨ m = 6 ∨ m = 8 → d - (153 * m + 2) / 5 + 1 ≤ 30) := by
  have hlow : 0 ≤ m := by omega
  have hhigh : m ≤ 11 := by omega
  interval_cases m <;> omega

/-- A day taken apart: the era it is in, the year of that era, from March, and the day of the year,
its month and the day of the month. -/
theorem exists_dateOf (n : Int) : ∃ era y d m : Int,
    n + epochOffset = 146097 * era + (365 * y + y / 4 - y / 100) + d ∧ 0 ≤ y ∧ y ≤ 399 ∧
    0 ≤ d ∧ d ≤ 365 ∧
    (d = 365 → (y + 1) % 4 = 0 ∧ ((y + 1) % 100 ≠ 0 ∨ (y + 1) % 400 = 0)) ∧
    m = (5 * d + 2) / 153 ∧
    dateOf n = ⟨y + era * 400 + (if m < 10 then 0 else 1),
      (if m < 10 then m + 3 else m - 9).toNat, (d - (153 * m + 2) / 5 + 1).toNat⟩ := by
  have hera : 0 ≤ (n + epochOffset) % 146097 ∧ (n + epochOffset) % 146097 < 146097 := by omega
  obtain ⟨hy₀, hy₁, hlow, hhigh, hleap⟩ := yearOfEra_spec hera.1 hera.2 _ rfl
  refine ⟨(n + epochOffset) / 146097, _, _, _, ?_, hy₀, hy₁, sub_nonneg.2 hlow, ?_, ?_, rfl, ?_⟩
  · omega
  · omega
  · intro h
    exact hleap (by omega)
  · unfold dateOf eraDays
    simp only [Date.mk.injEq, and_true]
    congr 1
    split <;> split <;> omega

/-- The date of a day is that day's date. -/
theorem dayNumber_dateOf (n : Int) : dayNumber (dateOf n) = n := by
  obtain ⟨era, y, d, m, hn, hy₀, hy₁, hd₀, hd₁, -, hm, hdate⟩ := exists_dateOf n
  obtain ⟨hm₀, hm₁, hday, -⟩ := monthOfYear_spec hd₀ hd₁ m hm
  have hera : (y + era * 400) / 400 = era ∧ (y + era * 400) % 400 = y := by omega
  rw [hdate]
  unfold dayNumber eraDays
  simp only
  by_cases h : m < 10
  · have hmonth : ¬ (m + 3).toNat ≤ 2 := by omega
    have hshift : (((m + 3).toNat : Int) + 9) % 12 = m := by omega
    simp only [if_pos h, if_neg hmonth, hshift, Int.add_zero, hera.1, hera.2]
    omega
  · have hmonth : (m - 9).toNat ≤ 2 := by omega
    have hshift : (((m - 9).toNat : Int) + 9) % 12 = m := by omega
    simp only [if_neg h, if_pos hmonth, hshift, Int.add_sub_cancel, hera.1, hera.2]
    omega

/-- The date of a day exists, if its year is one that has dates. -/
theorem valid_dateOf {n : Int} (h : yearInRange (dateOf n).year = true) :
    (dateOf n).valid = true := by
  obtain ⟨era, y, d, m, hn, hy₀, hy₁, hd₀, hd₁, hleap, hm, hdate⟩ := exists_dateOf n
  obtain ⟨hm₀, hm₁, hday, hlong, hfebruary, hshort⟩ := monthOfYear_spec hd₀ hd₁ m hm
  rw [hdate] at h ⊢
  unfold Date.valid
  simp only [h, Bool.true_and, Bool.and_eq_true, decide_eq_true_eq]
  by_cases hmarch : m < 10
  · simp only [if_pos hmarch]
    refine ⟨⟨⟨by omega, by omega⟩, by omega⟩, ?_⟩
    have hmonth : (m + 3).toNat ≠ 2 := by omega
    unfold monthLength
    rw [if_neg hmonth]
    split
    · rename_i hthirty
      simp at hthirty
      omega
    · omega
  · simp only [if_neg hmarch]
    refine ⟨⟨⟨by omega, by omega⟩, by omega⟩, ?_⟩
    unfold monthLength
    by_cases hlast : m = 11
    · -- in February, the last day of the year is a leap day
      obtain ⟨hnine, height⟩ := hfebruary hlast
      have hmonth : (m - 9).toNat = 2 := by omega
      rw [if_pos hmonth]
      by_cases hd : d = 365
      · obtain ⟨hfour, hhundred⟩ := hleap hd
        have hyear : isLeap (y + era * 400 + 1) = true := by
          unfold isLeap
          simp only [Bool.and_eq_true, Bool.or_eq_true, decide_eq_true_eq]
          omega
        rw [if_pos hyear]
        omega
      · have hshort := height (by omega)
        split <;> omega
    · have hmonth : (m - 9).toNat = 1 := by omega
      rw [hmonth]
      simp
      omega

/-! ### Numbers -/

/-- Digits spell a number. -/
theorem number?_digits {ds : List Char} (h : ∀ c ∈ ds, c.isDigit = true) :
    Text.number? 10 Text.digit? ds = some (Nat.ofDigitChars 10 ds 0) := by
  have hall : ∀ n, ds.foldl (fun acc c => acc.bind fun n => (Text.digit? c).map (10 * n + ·))
      (some n) = some (Nat.ofDigitChars 10 ds n) := by
    induction ds with
    | nil => simp
    | cons c cs ih =>
      intro n
      have hc : Text.digit? c = some (c.toNat - '0'.toNat) := by
        unfold Text.digit?
        rw [if_pos (h c List.mem_cons_self)]
      rw [List.foldl_cons, Nat.ofDigitChars_cons, Option.bind_some, hc, Option.map_some]
      exact ih (fun d hd => h d (List.mem_cons_of_mem _ hd)) _
  exact hall 0

/-- A padded number is made of digits that spell it. -/
theorem padded_spec (width n : Nat) : (∀ c ∈ padded width n, c.isDigit = true) ∧
    Nat.ofDigitChars 10 (padded width n) 0 = n ∧ padded width n ≠ [] := by
  unfold padded
  refine ⟨fun c hc => ?_, ?_, ?_⟩
  · rcases List.mem_append.1 hc with hc | hc
    · rw [(List.mem_replicate.1 hc).2]
      rfl
    · exact Nat.isDigit_of_mem_toDigits (by decide) (by decide) hc
  · rw [Nat.ofDigitChars_append, Nat.ofDigitChars_replicate_zero]
    simp
  · simp

/-- A number is padded to its width, if that suffices. -/
theorem length_padded {width n : Nat} (hwidth : 0 < width) (h : n < 10 ^ width) :
    (padded width n).length = width := by
  have hdigits := (Nat.length_toDigits_le_iff (by decide) hwidth).2 h
  unfold padded
  simp only [List.length_append, List.length_replicate]
  omega

/-- Digits that are all taken, since the width is used up or no digit follows. -/
theorem takeWhile_digits {ds rest : List Char} (h : ∀ c ∈ ds, c.isDigit = true) {width : Nat}
    (hwidth : ds.length = width ∨ (ds.length ≤ width ∧ ∀ c ∈ rest.head?, c.isDigit = false)) :
    ((ds ++ rest).take width).takeWhile Char.isDigit = ds := by
  induction ds generalizing width with
  | nil =>
    rcases hwidth with hwidth | ⟨-, hstop⟩
    · simp [← hwidth]
    · cases rest with
      | nil => simp
      | cons c rest => cases width <;> simp [hstop c rfl]
  | cons c cs ih =>
    obtain ⟨k, rfl⟩ : ∃ k, width = k + 1 := ⟨width - 1, by simp at hwidth; omega⟩
    have hc : c.isDigit = true := h c List.mem_cons_self
    rw [List.cons_append, List.take_succ_cons, List.takeWhile_cons_of_pos hc]
    rw [ih (fun d hd => h d (List.mem_cons_of_mem _ hd)) (by simpa using hwidth)]

/-- A digit is no blank. -/
theorem isBlank_digit {c : Char} (h : c.isDigit = true) : Text.isBlank c = false := by
  have hrange : 48 ≤ c.toNat ∧ c.toNat ≤ 57 := by
    simp only [Char.isDigit, Bool.and_eq_true, decide_eq_true_eq, ge_iff_le,
      UInt32.le_iff_toNat_le] at h
    exact h
  rw [← Bool.not_eq_true]
  simp only [Text.isBlank, Text.blankRuns, List.any_cons, List.any_nil, Bool.or_false,
    Bool.or_eq_true, Bool.and_eq_true, decide_eq_true_eq]
  omega

/-- Where no blank is in front, none is dropped. -/
theorem dropBlanks_cons {c : Char} (h : Text.isBlank c = false) (cs : List Char) :
    Text.dropBlanks (c :: cs) = c :: cs := by
  unfold Text.dropBlanks
  rw [List.dropWhile_cons_of_neg (by simp [h])]

/-- Digits are no blanks. -/
theorem dropBlanks_digits {ds : List Char} (hne : ds ≠ []) (h : ∀ c ∈ ds, c.isDigit = true)
    (rest : List Char) : Text.dropBlanks (ds ++ rest) = ds ++ rest := by
  cases ds with
  | nil => exact absurd rfl hne
  | cons c cs => exact dropBlanks_cons (isBlank_digit (h c List.mem_cons_self)) _

/-- A number reads back from its digits, if all of them are taken. -/
theorem number?_padded {width n k : Nat} {rest : List Char}
    (h : (padded k n).length = width ∨
      ((padded k n).length ≤ width ∧ ∀ c ∈ rest.head?, c.isDigit = false)) :
    number? width (padded k n ++ rest) = some (n, rest) := by
  obtain ⟨hdigits, hvalue, hne⟩ := padded_spec k n
  unfold number?
  simp only [dropBlanks_digits hne hdigits, takeWhile_digits hdigits h, hne, if_false,
    number?_digits hdigits, hvalue, List.drop_left, Option.map_some]

/-- Two digits read back. -/
theorem number?_two {n : Nat} (h : n < 100) (rest : List Char) :
    number? 2 (padded 2 n ++ rest) = some (n, rest) :=
  number?_padded (.inl (length_padded (by decide) h))

/-! ### Parts -/

/-- A mark reads back. -/
theorem mark?_cons {c : Char} (h : Text.isBlank c = false) (rest : List Char) :
    mark? c (c :: rest) = some rest := by
  simp [mark?, dropBlanks_cons h]

/-- A padded number starts with a digit, so neither with a sign nor with a blank. -/
theorem exists_padded_eq_cons (width n : Nat) :
    ∃ c cs, padded width n = c :: cs ∧ c.isDigit = true := by
  obtain ⟨hdigits, -, hne⟩ := padded_spec width n
  obtain ⟨c, cs, hpadded⟩ := List.exists_cons_of_ne_nil hne
  exact ⟨c, cs, hpadded, hdigits c (hpadded ▸ List.mem_cons_self)⟩

/-- A year reads back. -/
theorem year?_yearText (year : Int) (rest : List Char) :
    year? (yearText year ++ '-' :: rest) = some (year, '-' :: rest) := by
  have hstop : ∀ c ∈ ('-' :: rest).head?, c.isDigit = false := by
    rintro c ⟨⟩
    rfl
  unfold yearText
  split
  · rename_i hyear
    have hlength : (padded 4 year.toNat).length = 4 := length_padded (by decide) (by omega)
    have hread : number? 4 (padded 4 year.toNat ++ '-' :: rest) = some (year.toNat, '-' :: rest) :=
      number?_padded (.inl hlength)
    obtain ⟨c, cs, hpadded, hc⟩ := exists_padded_eq_cons 4 year.toNat
    rw [hpadded, List.cons_append] at hread ⊢
    unfold year?
    simp only [dropBlanks_cons (isBlank_digit hc)]
    split
    · rename_i heq
      cases heq
      cases hc
    · rename_i heq
      cases heq
      cases hc
    · rw [hread, Option.map_some, Int.toNat_of_nonneg hyear.1]
  · have hread : ∀ n, number? (padded 4 n ++ '-' :: rest).length (padded 4 n ++ '-' :: rest) =
        some (n, '-' :: rest) := fun n => number?_padded (.inr ⟨by simp, hstop⟩)
    obtain ⟨c, cs, hpadded, hc⟩ := exists_padded_eq_cons 4 year.natAbs
    have hread' := hread year.natAbs
    rw [hpadded, List.cons_append] at hread'
    split
    · unfold year?
      simp only [List.cons_append, dropBlanks_cons (by decide : Text.isBlank '-' = false), hpadded,
        List.head?_cons, Option.any_some, hc, if_true, hread', Option.map_some, Option.some.injEq,
        Prod.mk.injEq, and_true]
      omega
    · unfold year?
      simp only [List.cons_append, dropBlanks_cons (by decide : Text.isBlank '+' = false), hpadded,
        List.head?_cons, Option.any_some, hc, if_true, hread', Option.map_some, Option.some.injEq,
        Prod.mk.injEq, and_true]
      omega

/-- A fraction of a second reads back. -/
theorem fraction?_fractionText {nano : Nat} (h : nano < 1000000000) :
    fraction? (fractionText nano ++ ['Z']) = some (nano, ['Z']) := by
  have hdigits : ∀ width n, 0 < width → width ≤ 9 → n < 10 ^ width →
      fraction? ('.' :: padded width n ++ ['Z']) =
        some (n * Nat.pow 10 (9 - width), ['Z']) := by
    intro width n hpos hwidth hn
    obtain ⟨hall, hvalue, hne⟩ := padded_spec width n
    have hlength := length_padded hpos hn
    have htaken : ((padded width n ++ ['Z']).take 9).takeWhile Char.isDigit = padded width n :=
      takeWhile_digits hall (.inr ⟨hlength.le.trans hwidth, by rintro c ⟨⟩; rfl⟩)
    have hrest : (padded width n ++ ['Z']).dropWhile Char.isDigit = ['Z'] := by
      rw [List.dropWhile_append_of_pos hall]
      rfl
    simp only [fraction?, List.cons_append, htaken, hne, if_false, number?_digits hall, hvalue,
      Option.map_some, hlength, hrest]
  unfold fractionText
  split
  · rename_i hzero
    rw [hzero]
    rfl
  split
  · rename_i hmilli
    rw [hdigits 3 _ (by decide) (by decide) (by omega)]
    simp
    omega
  split
  · rename_i hmicro
    rw [hdigits 6 _ (by decide) (by decide) (by omega)]
    simp
    omega
  · rw [hdigits 9 _ (by decide) (by decide) (by omega)]
    simp

/-- A point in time that there is: its day has a date, and its second is one of a day. A fraction
of a second or more belongs to a leap second. -/
structure Valid (t : Timestamp) : Prop where
  /-- The day has a date. -/
  day : yearInRange (dateOf t.day).year = true
  /-- The second is one of a day. -/
  second : t.second < 86400
  /-- The fraction is less than a second, or than two within a leap second. -/
  nano : t.nano < 1000000000 ∨ t.nano < 2000000000 ∧ t.second % 60 = 59

/-- A text is read part by part. -/
theorem read?_of_parts {cs₀ cs₁ cs₂ cs₃ cs₄ cs₅ cs₆ cs₇ cs₈ cs₉ cs₁₀ cs₁₁ : List Char}
    {year : Int} {month day hour minute second nano : Nat}
    (hyear : year? cs₀ = some (year, cs₁)) (hdash : mark? '-' cs₁ = some cs₂)
    (hmonth : number? 2 cs₂ = some (month, cs₃)) (hdash' : mark? '-' cs₃ = some cs₄)
    (hday : number? 2 cs₄ = some (day, 'T' :: cs₅)) (hhour : number? 2 cs₅ = some (hour, cs₆))
    (hcolon : mark? ':' cs₆ = some cs₇) (hminute : number? 2 cs₇ = some (minute, cs₈))
    (hcolon' : mark? ':' cs₈ = some cs₉) (hsecond : number? 2 cs₉ = some (second, cs₁₀))
    (hnano : fraction? cs₁₀ = some (nano, cs₁₁)) (hzone : cs₁₁ = ['Z']) :
    read? (String.ofList cs₀) = ofParts? ⟨year, month, day⟩ hour minute second nano 0 := by
  subst hzone
  unfold read?
  rw [String.toList_ofList, hyear]
  change (mark? '-' cs₁).bind _ = _
  rw [hdash]
  change (number? 2 cs₂).bind _ = _
  rw [hmonth]
  change (mark? '-' cs₃).bind _ = _
  rw [hdash']
  change (number? 2 cs₄).bind _ = _
  rw [hday]
  change (number? 2 cs₅).bind _ = _
  rw [hhour]
  change (mark? ':' cs₆).bind _ = _
  rw [hcolon]
  change (number? 2 cs₇).bind _ = _
  rw [hminute]
  change (mark? ':' cs₈).bind _ = _
  rw [hcolon']
  change (number? 2 cs₉).bind _ = _
  rw [hsecond]
  change (fraction? cs₁₀).bind _ = _
  rw [hnano]
  rfl

/-- **The text of a point in time reads back.** -/
theorem read?_text {t : Timestamp} (h : t.Valid) : read? t.text = some t := by
  have hvalid := valid_dateOf h.day
  have hdate := hvalid
  unfold Date.valid at hdate
  simp only [Bool.and_eq_true, decide_eq_true_eq] at hdate
  have hlength : monthLength (dateOf t.day).year (dateOf t.day).month ≤ 31 := by
    unfold monthLength
    split <;> split <;> decide
  obtain ⟨hday, hsecond, hnano⟩ := h
  have hparts : ofParts? (dateOf t.day) (t.second / 3600) (t.second / 60 % 60)
      (t.second % 60 + t.nano / 1000000000) (t.nano % 1000000000) 0 = some t := by
    -- a leap second is written as the sixtieth one
    have hleap : (if t.second % 60 + t.nano / 1000000000 = 60 then
        (59, t.nano % 1000000000 + 1000000000)
        else (t.second % 60 + t.nano / 1000000000, t.nano % 1000000000)) =
        (t.second % 60, t.nano) := by
      split
      · rw [Prod.mk.injEq]
        omega
      · rw [Prod.mk.injEq]
        omega
    have hclock : 3600 * (t.second / 3600) + 60 * (t.second / 60 % 60) + t.second % 60 =
        t.second := by omega
    have htotal : (t.day * 86400 + (t.second : Int) - 0) / 86400 = t.day ∧
        ((t.day * 86400 + (t.second : Int) - 0) % 86400).toNat = t.second := by omega
    have hclocked : ((dateOf t.day).valid && decide (t.second / 3600 < 24) &&
        decide (t.second / 60 % 60 < 60) &&
        decide (t.second % 60 + t.nano / 1000000000 ≤ 60)) = true := by
      simp only [hvalid, Bool.true_and, Bool.and_eq_true, decide_eq_true_eq]
      omega
    simp only [ofParts?, hclocked, if_true, hleap, dayNumber_dateOf, hclock, htotal.1, htotal.2,
      hday]
  rw [← hparts]
  unfold text
  simp only [List.append_assoc, List.cons_append]
  exact read?_of_parts (year?_yearText _ _) (mark?_cons (by decide) _) (number?_two (by omega) _)
    (mark?_cons (by decide) _) (number?_two (by omega) _) (number?_two (by omega) _)
    (mark?_cons (by decide) _) (number?_two (by omega) _) (mark?_cons (by decide) _)
    (number?_two (by omega) _) (fraction?_fractionText (by omega)) rfl

end OrgAlign.Timestamp
