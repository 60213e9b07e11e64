import Mathlib.Data.List.Basic
import Mathlib.Data.List.Forall2
import Mathlib.Tactic.Common
import OrgAlign.Json.Reader
import OrgAlign.Json.Writer

/-!
# JSON text reads back

What is written of a value without numbers, one entry a line, is read back as that value. A value is
spelled by a list of tokens: the text is cut into these tokens, and the reader makes the value of
them. Main statements:

* `unescape_escape`: what stands between two quotes is the text that was put there;
* `lexes_writeAt`: the text of a value is cut into the tokens that spell it;
* `foldlM_spell`: the reader makes the value of these tokens;
* `read?_write?`: so the text reads back.
-/

namespace OrgAlign.Json

/-! ### Values without numbers -/

mutual

/-- A value without numbers, whose collections are nested at most `n` deep and whose keys are
texts. -/
def fits : Nat → Value → Bool
  | _, .null => true
  | _, .bool _ => true
  | _, .str _ => true
  | n + 1, .seq items => fitsItems n items
  | n + 1, .map entries => fitsEntries n entries
  | _, _ => false

/-- `fits` for every item. -/
def fitsItems : Nat → List Value → Bool
  | _, [] => true
  | n, v :: vs => fits n v && fitsItems n vs

/-- `fits` for every entry. -/
def fitsEntries : Nat → List (Value × Value) → Bool
  | _, [] => true
  | n, (.str _, v) :: es => fits n v && fitsEntries n es
  | _, _ => false

end

mutual

/-- The tokens that spell a value. -/
def spell : Value → List Token
  | .str s => [.text s]
  | .seq items => .mark '[' :: (List.intercalate [.mark ','] (spellItems items) ++ [.mark ']'])
  | .map entries =>
    .mark '\x7b' :: (List.intercalate [.mark ','] (spellEntries entries) ++ [.mark '\x7d'])
  | v => [.word v]

/-- The tokens of each item. -/
def spellItems : List Value → List (List Token)
  | [] => []
  | v :: vs => spell v :: spellItems vs

/-- The tokens of each entry. -/
def spellEntries : List (Value × Value) → List (List Token)
  | [] => []
  | (.str s, v) :: es => (.text s :: .mark ':' :: spell v) :: spellEntries es
  | (_, v) :: es => spell v :: spellEntries es

end

/-! ### Escapes -/

/-- The four hexadecimal digits of a control character spell it. -/
theorem hex_control : ∀ n < 0x20, (Text.hex 4 n).length = 4 ∧
    Text.hexNumber? (Text.hex 4 n) = some n ∧
    (Text.hex 4 n).all (fun c => c ≠ '\\' && c ≠ '\x22') = true := by
  decide

/-- An escaped character is the character. -/
theorem unescape_escapeChar (c : Char) (rest : List Char) :
    unescape (escapeChar c ++ rest) = (unescape rest).map (c :: ·) := by
  unfold escapeChar
  split
  · subst_vars; simp [unescape, shortEscape?]
  split
  · subst_vars; simp [unescape, shortEscape?]
  split
  · subst_vars; simp [unescape, shortEscape?]
  split
  · subst_vars; simp [unescape, shortEscape?]
  split
  · subst_vars; simp [unescape, shortEscape?]
  split
  · subst_vars; simp [unescape, shortEscape?]
  split
  · subst_vars; simp [unescape, shortEscape?]
  split
  · rename_i hcontrol
    obtain ⟨hlength, hnumber, -⟩ := hex_control c.toNat hcontrol
    obtain ⟨a, b, d, e, hdigits⟩ := List.length_eq_four.1 hlength
    rw [hdigits] at hnumber ⊢
    have hlow : isLowSurrogate c.toNat = false := by
      unfold isLowSurrogate
      simp only [Bool.and_eq_false_iff, decide_eq_false_iff_not]
      omega
    have hhigh : isHighSurrogate c.toNat = false := by
      unfold isHighSurrogate
      simp only [Bool.and_eq_false_iff, decide_eq_false_iff_not]
      omega
    simp [unescape, hnumber, hlow, hhigh, Char.ofNat_toNat]
  · rename_i hbackslash _ _ _ _ _ hcontrol
    rw [List.singleton_append, unescape.eq_def]
    split
    · contradiction
    · simp_all
    · simp_all
    · rename_i heq
      cases heq
      exact if_neg (not_or.2 ⟨hcontrol, hbackslash⟩)

/-- What stands between two quotes is the text that was put there. -/
theorem unescape_escape (cs : List Char) : unescape (cs.flatMap escapeChar) = some cs := by
  induction cs with
  | nil => rfl
  | cons c cs ih => rw [List.flatMap_cons, unescape_escapeChar, ih]; rfl

/-! ### Cutting -/

/-- The cut may take a delimiter after these tokens, last first. -/
def Lexer.Ends (l : Lexer) (tokens : List Token) : Prop := l.closeWord = some ⟨tokens, .between⟩

/-- Characters between tokens that are cut into the given ones. -/
def Delimits (cs : List Char) (tokens : List Token) : Prop :=
  ∀ l before, Lexer.Ends l before →
    cs.foldlM Lexer.step l = some ⟨tokens.reverse ++ before, .between⟩

/-- Characters that are cut into the given tokens, if a delimiter stands before and behind them. -/
def Lexes (cs : List Char) (tokens : List Token) : Prop :=
  ∀ before, ∃ l, cs.foldlM Lexer.step ⟨before, .between⟩ = some l ∧
    l.Ends (tokens.reverse ++ before)

theorem Lexer.ends_between (before : List Token) : Lexer.Ends ⟨before, .between⟩ before := rfl

/-- A delimiter ends the word before it. -/
theorem Lexer.Ends.step {l : Lexer} {before : List Token} (h : l.Ends before) {c : Char}
    (hc : (isBlank c || isMark c) = true) :
    l.step c = some (Lexer.outside ⟨before, .between⟩ c) := by
  obtain ⟨tokens, cut⟩ := l
  unfold Lexer.Ends Lexer.closeWord at h
  cases cut with
  | between =>
    cases h
    rfl
  | inWord taken =>
    simp only [Lexer.step, hc, Bool.true_or, if_true]
    unfold Lexer.closeWord
    simp only at h ⊢
    rw [h]
    rfl
  | inText taken escaped => cases h

theorem delimits_blank {c : Char} (h : isBlank c = true) : Delimits [c] [] := by
  intro l before hl
  simp [hl.step (c := c) (by simp [h]), Lexer.outside, h]

theorem delimits_mark {c : Char} (h : isMark c = true) : Delimits [c] [.mark c] := by
  intro l before hl
  have hblank : isBlank c = false := by
    simp only [isMark, Bool.or_eq_true, decide_eq_true_eq] at h
    rcases h with ((((rfl | rfl) | rfl) | rfl) | rfl) | rfl <;> decide
  simp [hl.step (c := c) (by simp [h]), Lexer.outside, h, hblank]

theorem Delimits.append {cs ds : List Char} {ts us : List Token} (h : Delimits cs ts)
    (h' : Delimits ds us) : Delimits (cs ++ ds) (ts ++ us) := by
  intro l before hl
  rw [List.foldlM_append, h l before hl]
  simp [h' _ _ (Lexer.ends_between _)]

theorem Delimits.alone {cs : List Char} {ts : List Token} (h : Delimits cs ts) : Lexes cs ts :=
  fun before => ⟨_, h _ before (Lexer.ends_between before), Lexer.ends_between _⟩

theorem Delimits.lexes {cs ds : List Char} {ts us : List Token} (h : Delimits cs ts)
    (h' : Lexes ds us) : Lexes (cs ++ ds) (ts ++ us) := by
  intro before
  obtain ⟨l, hl, hends⟩ := h' (ts.reverse ++ before)
  refine ⟨l, ?_, by simpa using hends⟩
  rw [List.foldlM_append, h _ before (Lexer.ends_between _)]
  exact hl

theorem Lexes.delimits {cs ds : List Char} {ts us : List Token} (h : Lexes cs ts)
    (h' : Delimits ds us) : Lexes (cs ++ ds) (ts ++ us) := by
  intro before
  obtain ⟨l, hl, hends⟩ := h before
  refine ⟨_, ?_, Lexer.ends_between _⟩
  rw [List.foldlM_append, hl, List.reverse_append, List.append_assoc]
  exact h' l _ hends

theorem Lexes.separated {cs ds es : List Char} {ts us vs : List Token} (h : Lexes cs ts)
    (h' : Delimits ds us) (h'' : Lexes es vs) : Lexes (cs ++ (ds ++ es)) (ts ++ (us ++ vs)) := by
  intro before
  obtain ⟨l, hl, hends⟩ := h before
  obtain ⟨m, hm, hends'⟩ := h'' (us.reverse ++ (ts.reverse ++ before))
  refine ⟨m, ?_, by simpa using hends'⟩
  rw [List.foldlM_append, hl]
  change (ds ++ es).foldlM Lexer.step l = some m
  rw [List.foldlM_append, h' l _ hends]
  exact hm

/-! ### Texts and words -/

/-- Characters without a backslash or a quote are taken as they are. -/
theorem foldlM_inText {cs : List Char} (h : cs.all (fun c => c ≠ '\\' && c ≠ '\x22') = true)
    (before : List Token) (taken : List Char) :
    cs.foldlM Lexer.step ⟨before, .inText taken false⟩ =
      some ⟨before, .inText (cs.reverse ++ taken) false⟩ := by
  induction cs generalizing taken with
  | nil => rfl
  | cons c cs ih =>
    simp only [List.all_cons, Bool.and_eq_true, decide_eq_true_eq] at h
    obtain ⟨⟨hbackslash, hquote⟩, hrest⟩ := h
    simp only [List.foldlM_cons, Lexer.step, hbackslash, hquote, if_false, Bool.false_eq_true,
      Option.bind_eq_bind, Option.bind_some, List.reverse_cons, List.append_assoc]
    exact ih hrest (c :: taken)

/-- An escaped character is taken as it is. -/
theorem foldlM_escapeChar (c : Char) (before : List Token) (taken : List Char) :
    (escapeChar c).foldlM Lexer.step ⟨before, .inText taken false⟩ =
      some ⟨before, .inText ((escapeChar c).reverse ++ taken) false⟩ := by
  unfold escapeChar
  split
  · rfl
  split
  · rfl
  split
  · rfl
  split
  · rfl
  split
  · rfl
  split
  · rfl
  split
  · rfl
  split
  · rename_i hcontrol
    obtain ⟨-, -, hplain⟩ := hex_control c.toNat hcontrol
    have hrest := foldlM_inText hplain before ('u' :: '\\' :: taken)
    simpa [Lexer.step] using hrest
  · rename_i hquote hbackslash _ _ _ _ _ _
    exact foldlM_inText (by simp [hquote, hbackslash]) before taken

theorem foldlM_escape (cs : List Char) (before : List Token) (taken : List Char) :
    (cs.flatMap escapeChar).foldlM Lexer.step ⟨before, .inText taken false⟩ =
      some ⟨before, .inText ((cs.flatMap escapeChar).reverse ++ taken) false⟩ := by
  induction cs generalizing taken with
  | nil => rfl
  | cons c cs ih =>
    rw [List.flatMap_cons, List.foldlM_append, foldlM_escapeChar]
    change (cs.flatMap escapeChar).foldlM Lexer.step _ = _
    rw [ih, List.reverse_append, List.append_assoc]

/-- A text in quotes is one token. -/
theorem lexes_quote (s : String) : Lexes (quote s).toList [.text s] := by
  intro before
  have hchars : (quote s).toList = '\x22' :: (s.toList.flatMap escapeChar ++ ['\x22']) := by
    unfold quote
    rw [String.toList_ofList]
    congr 1
    induction s.toList with
    | nil => rfl
    | cons c cs ih => rw [List.foldr_cons, ih, List.flatMap_cons, List.append_assoc]
  refine ⟨⟨.text s :: before, .between⟩, ?_, rfl⟩
  rw [hchars, List.foldlM_cons]
  change (s.toList.flatMap escapeChar ++ ['\x22']).foldlM Lexer.step ⟨before, .inText [] false⟩ = _
  rw [List.foldlM_append, foldlM_escape]
  simp [Lexer.step, unescape_escape]

/-- A word is one token. -/
theorem lexes_word : Lexes "null".toList [.word .null] ∧
    ∀ b, Lexes (boolText b).toList [.word (.bool b)] := by
  refine ⟨fun before => ⟨_, rfl, rfl⟩, fun b before => ?_⟩
  cases b with
  | true => exact ⟨_, rfl, rfl⟩
  | false => exact ⟨_, rfl, rfl⟩

/-! ### Collections -/

/-- A new line delimits. -/
theorem delimits_line (depth : Nat) : Delimits (pretty.line depth).toList [] := by
  have hblanks : ∀ n, Delimits ('\n' :: List.replicate n ' ') [] := by
    intro n
    induction n with
    | zero => exact delimits_blank (by decide)
    | succ n ih =>
      rw [List.replicate_succ', ← List.cons_append]
      exact ih.append (delimits_blank (by decide))
  unfold pretty
  rw [String.toList_ofList]
  exact hblanks _

/-- Parts that are cut into tokens each, between brackets. -/
theorem lexes_enclose (depth : Nat) {first last : String} {c d : Char}
    (hfirst : first.toList = [c] ∧ isMark c = true) (hlast : last.toList = [d] ∧ isMark d = true)
    {parts : List String} {tokens : List (List Token)}
    (h : List.Forall₂ (fun p ts => Lexes p.toList ts) parts tokens) (hne : parts ≠ []) :
    Lexes (enclose pretty depth first last parts).toList
      (.mark c :: (List.intercalate [.mark ','] tokens ++ [.mark d])) := by
  have hline := delimits_line (depth + 1)
  have hcomma : Delimits ("," ++ pretty.line (depth + 1)).toList [.mark ','] := by
    rw [String.toList_append]
    exact (delimits_mark (by decide)).append hline
  have hparts : Lexes (String.intercalate ("," ++ pretty.line (depth + 1)) parts).toList
      (List.intercalate [.mark ','] tokens) := by
    rw [String.toList_intercalate]
    induction h with
    | nil => exact absurd rfl hne
    | @cons p ts ps tss hp hps ih =>
      cases hps with
      | nil => simpa using hp
      | cons hq hqs =>
        rw [List.map_cons, List.map_cons, List.intercalate_cons_cons, List.intercalate_cons_cons,
          List.append_assoc, List.append_assoc]
        exact hp.separated hcomma (ih (by simp))
  have hopen : Delimits (first ++ pretty.line (depth + 1)).toList [.mark c] := by
    rw [String.toList_append, hfirst.1]
    exact (delimits_mark hfirst.2).append hline
  have hclose : Delimits (pretty.line depth ++ last).toList [.mark d] := by
    rw [String.toList_append, hlast.1]
    exact (delimits_line depth).append (delimits_mark hlast.2)
  have hall := hopen.lexes (hparts.delimits hclose)
  unfold enclose
  simp only [String.toList_append, List.append_assoc] at hall ⊢
  exact hall

/-- Two brackets with nothing between them. -/
theorem lexes_empty : Lexes "[]".toList [.mark '[', .mark ']'] ∧
    Lexes "\x7b\x7d".toList [.mark '\x7b', .mark '\x7d'] :=
  ⟨((delimits_mark (by decide)).append (delimits_mark (by decide))).alone,
    ((delimits_mark (by decide)).append (delimits_mark (by decide))).alone⟩

/-! ### Writing -/

mutual

/-- The text of a value is cut into the tokens that spell it. -/
theorem lexes_writeAt : ∀ (v : Value) (n depth : Nat), fits n v = true →
    ∃ text, writeAt pretty depth v = some text ∧ Lexes text.toList (spell v)
  | .null, _, _, _ => ⟨_, by simp [writeAt], lexes_word.1⟩
  | .bool b, _, _, _ => ⟨_, by simp [writeAt], lexes_word.2 b⟩
  | .str s, _, _, _ => ⟨_, by simp [writeAt], lexes_quote s⟩
  | .int _, _, _, h => by simp [fits] at h
  | .float _, _, _, h => by simp [fits] at h
  | .seq items, 0, _, h => by simp [fits] at h
  | .map entries, 0, _, h => by simp [fits] at h
  | .seq items, n + 1, depth, h => by
    obtain ⟨parts, hparts, hall⟩ := lexes_writeItems items n (depth + 1) (by simpa [fits] using h)
    cases items with
    | nil =>
      refine ⟨"[]", by simp [writeAt], ?_⟩
      rw [spell, spellItems, List.intercalate_nil]
      exact lexes_empty.1
    | cons v vs =>
      refine ⟨enclose pretty depth "[" "]" parts, by simp [writeAt, hparts], ?_⟩
      have hne : parts ≠ [] := by
        rintro rfl
        simp [spellItems] at hall
      rw [spell]
      exact lexes_enclose depth ⟨rfl, rfl⟩ ⟨rfl, rfl⟩ hall hne
  | .map entries, n + 1, depth, h => by
    obtain ⟨parts, hparts, hall⟩ :=
      lexes_writeEntries entries n (depth + 1) (by simpa [fits] using h)
    cases entries with
    | nil =>
      refine ⟨"\x7b\x7d", by simp [writeAt], ?_⟩
      rw [spell, spellEntries, List.intercalate_nil]
      exact lexes_empty.2
    | cons e es =>
      refine ⟨enclose pretty depth "\x7b" "\x7d" parts, by simp [writeAt, hparts], ?_⟩
      have hne : parts ≠ [] := by
        rintro rfl
        obtain ⟨k, v⟩ := e
        cases k <;> simp [spellEntries] at hall
      rw [spell]
      exact lexes_enclose depth ⟨rfl, rfl⟩ ⟨rfl, rfl⟩ hall hne

theorem lexes_writeItems : ∀ (vs : List Value) (n depth : Nat), fitsItems n vs = true →
    ∃ parts, writeItems pretty depth vs = some parts ∧
      List.Forall₂ (fun p ts => Lexes p.toList ts) parts (spellItems vs)
  | [], _, _, _ => ⟨[], by simp [writeItems], by simp [spellItems]⟩
  | v :: vs, n, depth, h => by
    simp only [fitsItems, Bool.and_eq_true] at h
    obtain ⟨text, htext, hfirst⟩ := lexes_writeAt v n depth h.1
    obtain ⟨parts, hparts, hrest⟩ := lexes_writeItems vs n depth h.2
    exact ⟨text :: parts, by simp [writeItems, htext, hparts], .cons hfirst hrest⟩

theorem lexes_writeEntries : ∀ (es : List (Value × Value)) (n depth : Nat),
    fitsEntries n es = true → ∃ parts, writeEntries pretty depth es = some parts ∧
      List.Forall₂ (fun p ts => Lexes p.toList ts) parts (spellEntries es)
  | [], _, _, _ => ⟨[], by simp [writeEntries], by simp [spellEntries]⟩
  | (.str s, v) :: es, n, depth, h => by
    simp only [fitsEntries, Bool.and_eq_true] at h
    obtain ⟨text, htext, hfirst⟩ := lexes_writeAt v n depth h.1
    obtain ⟨parts, hparts, hrest⟩ := lexes_writeEntries es n depth h.2
    refine ⟨(quote s ++ pretty.colon ++ text) :: parts, by simp [writeEntries, key?, htext, hparts],
      .cons ?_ hrest⟩
    have hcolon : Delimits pretty.colon.toList [.mark ':'] :=
      (delimits_mark (c := ':') (by decide)).append (delimits_blank (c := ' ') (by decide))
    rw [String.toList_append, String.toList_append, List.append_assoc]
    exact (lexes_quote s).separated hcolon hfirst
  | (.null, _) :: _, _, _, h => by simp [fitsEntries] at h
  | (.bool _, _) :: _, _, _, h => by simp [fitsEntries] at h
  | (.int _, _) :: _, _, _, h => by simp [fitsEntries] at h
  | (.float _, _) :: _, _, _, h => by simp [fitsEntries] at h
  | (.seq _, _) :: _, _, _, h => by simp [fitsEntries] at h
  | (.map _, _) :: _, _, _, h => by simp [fitsEntries] at h

end

/-- The text of a value is cut into the tokens that spell it. -/
theorem tokens?_write? {n : Nat} {v : Value} (h : fits n v = true) :
    ∃ text, write? pretty v = some text ∧ tokens? text.toList = some (spell v) := by
  obtain ⟨text, htext, hlexes⟩ := lexes_writeAt v n 0 h
  obtain ⟨l, hl, hends⟩ := hlexes []
  refine ⟨text, htext, ?_⟩
  unfold Lexer.Ends at hends
  unfold tokens?
  rw [hl, Option.bind_some, hends]
  simp

/-! ### Reading -/

/-- Where a value goes does not depend on what may come next. -/
theorem Reader.put_congr {r r' : Reader} (h : r.opened = r'.opened) (v : Value) :
    r.put v = r'.put v := by
  unfold put
  rw [h]

/-- A mark opens a collection where a value may come next. -/
theorem Reader.mark_opens {r : Reader} (hr : r.wantsValue = true)
    (hroom : r.opened.length < nestingLimit) :
    r.mark '[' = some ⟨.list [] :: r.opened, .valueOrEnd, none⟩ ∧
      r.mark '\x7b' = some ⟨.record [] :: r.opened, .keyOrEnd, none⟩ := by
  simp [mark, hr, begin, hroom]

/-- A mark closes a list. -/
theorem Reader.mark_closes_list (r : Reader) (items : List Value) {e : Expected}
    (h : e = .valueOrEnd ∨ e = .commaOrEnd) :
    Reader.mark ⟨.list items :: r.opened, e, none⟩ ']' = r.put (.seq items.reverse) := by
  rcases h with rfl | rfl
  · exact Reader.put_congr rfl _
  · exact Reader.put_congr rfl _

/-- A mark closes a record. -/
theorem Reader.mark_closes_record (r : Reader) (entries : List (Value × Value)) {e : Expected}
    (h : e = .keyOrEnd ∨ e = .commaOrEnd) :
    Reader.mark ⟨.record entries :: r.opened, e, none⟩ '\x7d' = r.put (.map entries.reverse) := by
  rcases h with rfl | rfl
  · exact Reader.put_congr rfl _
  · exact Reader.put_congr rfl _

/-- A text is a value where one may come next. -/
theorem Reader.text_of_wantsValue {r : Reader} (h : r.wantsValue = true) (s : String) :
    r.text s = r.put (.str s) := by
  unfold text
  split
  · rename_i hkey _
    simp [wantsValue, hkey] at h
  · rename_i hkey _
    simp [wantsValue, hkey] at h
  · rw [if_pos h]

mutual

/-- The reader makes the value of the tokens that spell it. -/
theorem foldlM_spell : ∀ (v : Value) (n : Nat) (r : Reader), fits n v = true →
    r.wantsValue = true → r.opened.length + n ≤ nestingLimit →
    (spell v).foldlM Reader.step r = r.put v
  | .null, _, r, _, hr, _ => by simp [spell, Reader.step, hr]
  | .bool b, _, r, _, hr, _ => by simp [spell, Reader.step, hr]
  | .str s, _, r, _, hr, _ => by simp [spell, Reader.step, Reader.text_of_wantsValue hr]
  | .int _, _, _, h, _, _ => by simp [fits] at h
  | .float _, _, _, h, _, _ => by simp [fits] at h
  | .seq _, 0, _, h, _, _ => by simp [fits] at h
  | .map _, 0, _, h, _, _ => by simp [fits] at h
  | .seq items, n + 1, r, h, hr, hroom => by
    have hopen := (Reader.mark_opens hr (by omega)).1
    have hitems := foldlM_spellItems items n [] r.opened .valueOrEnd (by simpa [fits] using h)
      (by omega) (.inr rfl)
    simp only [spell, List.foldlM_cons, Reader.step, hopen, Option.bind_eq_bind, Option.bind_some,
      List.foldlM_append]
    cases items with
    | nil =>
      have hclose := r.mark_closes_list [] (.inl rfl)
      simp [spellItems, hclose]
    | cons v vs =>
      have hclose := r.mark_closes_list (v :: vs).reverse (.inr rfl)
      rw [List.reverse_reverse] at hclose
      rw [hitems (List.cons_ne_nil v vs), List.append_nil, Option.bind_some, hclose]
      cases r.put (.seq (v :: vs)) <;> rfl
  | .map entries, n + 1, r, h, hr, hroom => by
    have hopen := (Reader.mark_opens hr (by omega)).2
    have hentries := foldlM_spellEntries entries n [] r.opened .keyOrEnd (by simpa [fits] using h)
      (by omega) (.inr rfl)
    simp only [spell, List.foldlM_cons, Reader.step, hopen, Option.bind_eq_bind, Option.bind_some,
      List.foldlM_append]
    cases entries with
    | nil =>
      have hclose := r.mark_closes_record [] (.inl rfl)
      simp [spellEntries, hclose]
    | cons v vs =>
      have hclose := r.mark_closes_record (v :: vs).reverse (.inr rfl)
      rw [List.reverse_reverse] at hclose
      rw [hentries (List.cons_ne_nil v vs), List.append_nil, Option.bind_some, hclose]
      cases r.put (.map (v :: vs)) <;> rfl

/-- The reader puts the items of a list into it, the last one first. -/
theorem foldlM_spellItems : ∀ (vs : List Value) (n : Nat) (items : List Value)
    (outer : List Open) (e : Expected), fitsItems n vs = true →
    outer.length + 1 + n ≤ nestingLimit → e = .value ∨ e = .valueOrEnd → vs ≠ [] →
    (List.intercalate [.mark ','] (spellItems vs)).foldlM Reader.step
        ⟨.list items :: outer, e, none⟩ =
      some ⟨.list (vs.reverse ++ items) :: outer, .commaOrEnd, none⟩
  | [], _, _, _, _, _, _, _, h => absurd rfl h
  | v :: vs, n, items, outer, e, h, hroom, he, _ => by
    simp only [fitsItems, Bool.and_eq_true] at h
    have hwants : Reader.wantsValue ⟨.list items :: outer, e, none⟩ = true := by
      rcases he with rfl | rfl <;> rfl
    have hfirst :=
      foldlM_spell v n ⟨.list items :: outer, e, none⟩ h.1 hwants (by simpa using hroom)
    cases vs with
    | nil =>
      rw [spellItems, spellItems, List.intercalate_singleton, hfirst]
      rfl
    | cons u us =>
      have hrest := foldlM_spellItems (u :: us) n (v :: items) outer .value h.2 hroom (.inl rfl)
        (List.cons_ne_nil u us)
      rw [spellItems] at hrest
      rw [spellItems, spellItems, List.intercalate_cons_cons, List.append_assoc,
        List.foldlM_append, hfirst]
      simpa [Reader.put, Reader.step, Reader.mark] using hrest

/-- The reader puts the entries of a record into it, the last one first. -/
theorem foldlM_spellEntries : ∀ (es : List (Value × Value)) (n : Nat)
    (entries : List (Value × Value)) (outer : List Open) (e : Expected),
    fitsEntries n es = true → outer.length + 1 + n ≤ nestingLimit → e = .key ∨ e = .keyOrEnd →
    es ≠ [] → (List.intercalate [.mark ','] (spellEntries es)).foldlM Reader.step
        ⟨.record entries :: outer, e, none⟩ =
      some ⟨.record (es.reverse ++ entries) :: outer, .commaOrEnd, none⟩
  | [], _, _, _, _, _, _, _, h => absurd rfl h
  | (.str s, v) :: es, n, entries, outer, e, h, hroom, he, _ => by
    simp only [fitsEntries, Bool.and_eq_true] at h
    have hkey : Reader.text ⟨.record entries :: outer, e, none⟩ s =
        some ⟨.field entries s :: outer, .colon, none⟩ := by
      rcases he with rfl | rfl <;> rfl
    have hvalue := foldlM_spell v n ⟨.field entries s :: outer, .value, none⟩ h.1 rfl
      (by simpa using hroom)
    -- key, colon and value make one entry
    have hfirst : (Token.text s :: .mark ':' :: spell v).foldlM Reader.step
        ⟨.record entries :: outer, e, none⟩ =
        some ⟨.record ((.str s, v) :: entries) :: outer, .commaOrEnd, none⟩ := by
      simpa [Reader.step, hkey, Reader.mark, Reader.put] using hvalue
    cases es with
    | nil =>
      rw [spellEntries, spellEntries, List.intercalate_singleton, hfirst]
      rfl
    | cons f fs =>
      have hrest := foldlM_spellEntries (f :: fs) n ((.str s, v) :: entries) outer .key h.2 hroom
        (.inl rfl) (List.cons_ne_nil f fs)
      have hmore : ∃ t ts, spellEntries (f :: fs) = t :: ts := by
        obtain ⟨k, u⟩ := f
        cases k <;> exact ⟨_, _, rfl⟩
      obtain ⟨t, ts, hmore⟩ := hmore
      rw [hmore] at hrest
      rw [spellEntries, hmore, List.intercalate_cons_cons, List.append_assoc, List.foldlM_append,
        hfirst]
      simpa [Reader.step, Reader.mark] using hrest
  | (.null, _) :: _, _, _, _, _, h, _, _, _ => by simp [fitsEntries] at h
  | (.bool _, _) :: _, _, _, _, _, h, _, _, _ => by simp [fitsEntries] at h
  | (.int _, _) :: _, _, _, _, _, h, _, _, _ => by simp [fitsEntries] at h
  | (.float _, _) :: _, _, _, _, _, h, _, _, _ => by simp [fitsEntries] at h
  | (.seq _, _) :: _, _, _, _, _, h, _, _, _ => by simp [fitsEntries] at h
  | (.map _, _) :: _, _, _, _, _, h, _, _, _ => by simp [fitsEntries] at h

end

/-- **What is written of a value without numbers reads back**, unless its collections are nested too
deep. -/
theorem read?_write? {v : Value} (h : fits nestingLimit v = true) :
    ∃ text, write? pretty v = some text ∧ read? text = some v := by
  obtain ⟨text, htext, htokens⟩ := tokens?_write? h
  refine ⟨text, htext, ?_⟩
  unfold read?
  rw [htokens, Option.bind_some, foldlM_spell v nestingLimit _ h rfl (by simp)]
  rfl

end OrgAlign.Json
