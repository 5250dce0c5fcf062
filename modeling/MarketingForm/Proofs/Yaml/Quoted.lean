import MarketingForm.Proofs.Text.Numeral
import MarketingForm.Proofs.Yaml.Gap
import MarketingForm.Yaml.Token.Quoted

/-!
# Quoted scalars are read back

Each character of a word is written so that it is read as itself, whatever follows (`quotedWord_single`,
`quotedWord_double`). A text in quotes is written as words with gaps between them (`Body`), and its
words are put together again (`quotedScalar_body`).
-/

namespace MarketingForm.Yaml

/-! ## Escapes -/

theorem hexDigits_spec {k n : Nat} (h : n < 16 ^ (k + 1)) :
    (hexDigits (k + 1) n).length = k + 1 ∧
      Text.readNumeral? 16 (hexDigits (k + 1) n) = some n := by
  have hlength : ((Text.numeral 16 n).map Char.toUpper).length ≤ k + 1 := by
    rw [List.length_map]
    exact Text.length_numeral_le (by decide) h
  have hread : Text.readDigits 16 0 ((Text.numeral 16 n).map Char.toUpper) = some n :=
    Text.readDigits_numeral (by decide) (fun d hd => Text.digitValue?_toUpper hd) n
  have hne : hexDigits (k + 1) n ≠ [] := by
    simp [hexDigits, Text.numeral_ne_nil]
  refine ⟨?_, ?_⟩
  · simp only [hexDigits, List.length_append, List.length_replicate]
    omega
  · rw [Text.readNumeral?_of_ne_nil hne]
    exact (Text.readDigits_zeros (by decide) _ _).trans hread

theorem charOfCode?_toNat (c : Char) : charOfCode? c.toNat = some c := by
  have hvalid : c.toNat.isValidChar := c.valid
  rw [charOfCode?, if_pos hvalid, Char.ofNat_toNat]

/-- An escape of hexadecimal digits. -/
theorem readEscape_hex {x c : Char} {k : Nat} (hx : letterEscape? x = none)
    (hlength : hexEscapeLength? x = some (k + 1)) (hc : c.toNat < 16 ^ (k + 1)) (t : List Char) :
    readEscape (x :: hexDigits (k + 1) c.toNat ++ t) =
      some (c, (x :: hexDigits (k + 1) c.toNat).length) := by
  obtain ⟨hdigits, hread⟩ := hexDigits_spec hc
  have htake : (hexDigits (k + 1) c.toNat ++ t).take (k + 1) = hexDigits (k + 1) c.toNat := by
    rw [List.take_append_of_le_length (Nat.le_of_eq hdigits.symm), List.take_of_length_le
      (Nat.le_of_eq hdigits)]
  have hlong : ¬ (hexDigits (k + 1) c.toNat ++ t).length < k + 1 := by
    rw [List.length_append]
    omega
  rw [List.cons_append, readEscape]
  simp only [hx, hlength, hlong, ↓reduceIte, htake, hread, Option.bind_some, charOfCode?_toNat,
    Option.map_some, List.length_cons, hdigits]

theorem toNat_lt_pow (c : Char) : c.toNat < 16 ^ (7 + 1) := by
  have hvalid : c.toNat.isValidChar := c.valid
  unfold Nat.isValidChar at hvalid
  omega

theorem escapeHex_spec {x c : Char} {k : Nat} (hx : letterEscape? x = none)
    (hlength : hexEscapeLength? x = some (k + 1)) (hbreak : isBreak x = false)
    (hc : c.toNat < 16 ^ (k + 1)) : ∃ e, '\\' :: x :: hexDigits (k + 1) c.toNat = '\\' :: e ∧
      ∀ t, readEscape (e ++ t) = some (c, e.length) ∧ (e ++ t).head?.any isBreak = false :=
  ⟨_, rfl, fun t => ⟨readEscape_hex hx hlength hc t, hbreak⟩⟩

/-- An escape is read as the character that it stands for, and it is not the escape of a break. -/
theorem escapeChar_spec (c : Char) : ∃ e, escapeChar c = '\\' :: e ∧ ∀ t,
    readEscape (e ++ t) = some (c, e.length) ∧ (e ++ t).head?.any isBreak = false := by
  unfold escapeChar
  split
  case h_15 =>
    simp only
    split
    · exact escapeHex_spec (k := 1) (by decide) (by decide) (by decide) (by omega)
    · split
      · exact escapeHex_spec (k := 3) (by decide) (by decide) (by decide) (by omega)
      · exact escapeHex_spec (k := 7) (by decide) (by decide) (by decide) (toNat_lt_pow c)
  all_goals exact ⟨_, rfl, fun t => ⟨rfl, rfl⟩⟩

/-- A character that is seen on its line. -/
def IsInk (c : Char) : Prop := isPrintable c = true ∧ isBreak c = false

instance (c : Char) : Decidable (IsInk c) := inferInstanceAs (Decidable (_ ∧ _))

theorem isInk_hexDigits {k n : Nat} {c : Char} (hc : c ∈ hexDigits k n) : IsInk c := by
  rcases List.mem_append.1 hc with hc | hc
  · rw [List.eq_of_mem_replicate hc]
    decide
  · obtain ⟨e, he, rfl⟩ := List.mem_map.1 hc
    exact Text.forall_mem_numeral (by decide) (fun c => IsInk c.toUpper) (by decide) he

theorem isInk_escapeChar {c d : Char} (hd : d ∈ escapeChar c) : IsInk d := by
  have hhex : ∀ {k n : Nat} {x : Char}, IsInk x → d ∈ '\\' :: x :: hexDigits k n → IsInk d := by
    intro k n x hx hd
    rcases List.mem_cons.1 hd with rfl | hd
    · decide
    · rcases List.mem_cons.1 hd with rfl | hd
      · exact hx
      · exact isInk_hexDigits hd
  have hshort : ∀ {x : Char}, IsInk x → d ∈ ['\\', x] → IsInk d := by
    intro x hx hd
    rcases List.mem_cons.1 hd with rfl | hd
    · decide
    · rwa [List.mem_singleton.1 hd]
  unfold escapeChar at hd
  split at hd
  case h_15 =>
    simp only at hd
    split at hd
    · exact hhex (by decide) hd
    · split at hd
      · exact hhex (by decide) hd
      · exact hhex (by decide) hd
  all_goals exact hshort (by decide) hd

theorem two_le_utf8Size {c : Char} (h : ¬ c.toNat ≤ 0xFFFF) : 2 ≤ c.utf8Size := by
  unfold Char.utf8Size
  simp only
  split
  · rename_i hle
    rw [UInt32.le_iff_toNat_le] at hle
    exact absurd (Nat.le_trans hle (by decide)) h
  · split
    · exact Nat.le_refl 2
    · split <;> decide

/-- An escape takes at most six characters for each byte. -/
theorem length_escapeChar_le (c : Char) : (escapeChar c).length ≤ 6 * c.utf8Size := by
  have hpos := c.utf8Size_pos
  have hhex : ∀ {k : Nat} {x : Char}, c.toNat < 16 ^ (k + 1) →
      ('\\' :: x :: hexDigits (k + 1) c.toNat).length = k + 3 := by
    intro k x hc
    simp [(hexDigits_spec hc).1]
  unfold escapeChar
  split
  case h_15 =>
    simp only
    split
    · rw [hhex (by omega)]
      omega
    · split
      · rw [hhex (by omega)]
        omega
      · rename_i hlarge
        rw [hhex (toNat_lt_pow c)]
        have := two_le_utf8Size hlarge
        omega
  all_goals exact Nat.le_trans (by decide) (Nat.mul_le_mul_left 6 hpos)

/-! ## Words -/

/-- A character in single quotes. -/
def singleChar (c : Char) : List Char := if c = '\'' then ['\'', '\''] else [c]

theorem quotedWord_single {c : Char} (hgap : isGap c = false) (hbreak : isBreak c = false)
    (t : List Char) (fuel : Nat) :
    quotedWord true (singleChar c ++ t) (fuel + 1) =
      (quotedWord true t fuel).cons c (singleChar c).length := by
  unfold singleChar
  split
  · rename_i hc
    subst hc
    rfl
  · rename_i hc
    rw [List.singleton_append, quotedWord]
    simp [hgap, hbreak, hc]

theorem quotedWord_double {c : Char} (hc : c ≠ ' ') (t : List Char) (fuel : Nat) :
    quotedWord false (doubleChar c ++ t) (fuel + 1) =
      (quotedWord false t fuel).cons c (doubleChar c).length := by
  unfold doubleChar
  split
  · obtain ⟨e, he, hread⟩ := escapeChar_spec c
    obtain ⟨hescape, hbreak⟩ := hread t
    have hdrop : (e ++ t).drop e.length = t := by simp
    have hgap : (isGap '\\' || isBreak '\\') = false := by decide
    have hquote : ('\\' == '"') = false := by decide
    rw [he, List.cons_append, quotedWord]
    simp only [hgap, Bool.false_eq_true, ↓reduceIte, hquote, BEq.rfl, hbreak, hescape, hdrop,
      List.length_cons]
  · rename_i hplain
    simp only [Bool.or_eq_true, Bool.not_eq_eq_eq_not, Bool.not_true, beq_iff_eq, not_or,
      Bool.not_eq_false, Bool.not_eq_true] at hplain
    obtain ⟨⟨⟨hprintable, hbreak⟩, hquote⟩, hslash⟩ := hplain
    have hgap : isGap c = false := by
      rw [Bool.eq_false_iff]
      exact fun h => hc (eq_space_of_isPrintable hprintable h)
    rw [List.singleton_append, quotedWord]
    simp [hgap, hbreak, hquote, hslash]

/-- How the characters of a word are written in quotes. -/
def quoteChar (single : Bool) (c : Char) : List Char :=
  if single then singleChar c else doubleChar c

/-- The characters that a word in quotes may have. -/
def InWord (single : Bool) (c : Char) : Prop :=
  if single then isGap c = false ∧ isBreak c = false else c ≠ ' '

theorem quotedWord_char {single : Bool} {c : Char} (h : InWord single c) (t : List Char)
    (fuel : Nat) : quotedWord single (quoteChar single c ++ t) (fuel + 1) =
      (quotedWord single t fuel).cons c (quoteChar single c).length := by
  cases single with
  | true => exact quotedWord_single h.1 h.2 t fuel
  | false => exact quotedWord_double h t fuel

theorem quoteChar_ne_nil (single : Bool) (c : Char) : quoteChar single c ≠ [] := by
  have hescape : escapeChar c ≠ [] := by
    obtain ⟨e, he, -⟩ := escapeChar_spec c
    simp [he]
  unfold quoteChar singleChar doubleChar
  split <;> split <;> simp [hescape]

theorem length_le_flatMap_quoteChar (single : Bool) (w : List Char) :
    w.length ≤ (w.flatMap (quoteChar single)).length := by
  induction w with
  | nil => exact Nat.le_refl _
  | cons c w ih =>
    have := List.length_pos_iff.2 (quoteChar_ne_nil single c)
    rw [List.flatMap_cons, List.length_append, List.length_cons]
    omega

/-- A word is read up to what ends it. -/
theorem quotedWord_word {single : Bool} {w t : List Char} (hw : ∀ c ∈ w, InWord single c)
    {stop : QuotedEnd} (ht : ∀ fuel, quotedWord single t (fuel + 1) = ⟨[], 0, stop⟩) {fuel : Nat}
    (hfuel : w.length < fuel) :
    quotedWord single (w.flatMap (quoteChar single) ++ t) fuel =
      ⟨w, (w.flatMap (quoteChar single)).length, stop⟩ := by
  induction w generalizing fuel with
  | nil =>
    obtain ⟨fuel, rfl⟩ : ∃ n, fuel = n + 1 := ⟨fuel - 1, by omega⟩
    exact ht fuel
  | cons c w ih =>
    obtain ⟨fuel, rfl⟩ : ∃ n, fuel = n + 1 := ⟨fuel - 1, by omega⟩
    rw [List.flatMap_cons, List.append_assoc, quotedWord_char (hw c List.mem_cons_self),
      ih (fun d hd => hw d (List.mem_cons_of_mem c hd)) (by simpa using hfuel)]
    simp [QuotedWord.cons]

/-! ## Texts -/

/-- The quote of a style. -/
def quoteMark (single : Bool) : Char := if single then '\'' else '"'

/-- How a text is written between quotes: words with spaces between them or, in single quotes, with
breaks that are followed by an indentation. -/
inductive Body (single : Bool) : List Char → List Char → Prop
  | last {w : List Char} (hw : ∀ c ∈ w, InWord single c) :
      Body single w (w.flatMap (quoteChar single))
  | spaces {w g s b : List Char} (hw : ∀ c ∈ w, InWord single c) (hg : ∀ c ∈ g, c = ' ')
      (hne : g ≠ []) (hs : ∀ c ∈ s.head?, InWord single c) (hb : Body single s b) :
      Body single (w ++ g ++ s) (w.flatMap (quoteChar single) ++ g ++ b)
  | breaks {w g s b : List Char} {k : Nat} (hsingle : single = true)
      (hw : ∀ c ∈ w, InWord single c) (hg : ∀ c ∈ g, c = '\u2028' ∨ c = '\u2029') (hne : g ≠ [])
      (hk : 0 < k) (hs : ∀ c ∈ s.head?, InWord single c) (hb : Body single s b) :
      Body single (w ++ g ++ s) (w.flatMap (quoteChar single) ++ (g ++ List.replicate k ' ') ++ b)

theorem quoteMark_solid (single : Bool) (r : List Char) : Solid (quoteMark single :: r) := by
  intro c hc
  cases hc
  cases single <;> decide

theorem solid_quoteChar {single : Bool} {c : Char} (h : InWord single c) (t : List Char) :
    Solid (quoteChar single c ++ t) := by
  cases single with
  | true =>
    intro d hd
    unfold quoteChar singleChar at hd
    simp only [↓reduceIte] at hd
    split at hd
    · cases hd
      decide
    · cases hd
      exact h
  | false =>
    intro d hd
    unfold quoteChar doubleChar at hd
    simp only [Bool.false_eq_true, ↓reduceIte] at hd
    split at hd
    · obtain ⟨e, he, -⟩ := escapeChar_spec c
      rw [he] at hd
      cases hd
      decide
    · rename_i hplain
      cases hd
      simp only [Bool.or_eq_true, Bool.not_eq_eq_eq_not, Bool.not_true, not_or, Bool.not_eq_false,
        Bool.not_eq_true] at hplain
      refine ⟨?_, hplain.1.1.2⟩
      rw [Bool.eq_false_iff]
      exact fun hgap => h (eq_space_of_isPrintable hplain.1.1.1 hgap)

theorem solid_word {single : Bool} {w : List Char} (hne : w ≠ []) (hw : ∀ c ∈ w, InWord single c)
    (t : List Char) : Solid (w.flatMap (quoteChar single) ++ t) := by
  obtain ⟨c, w, rfl⟩ := List.exists_cons_of_ne_nil hne
  rw [List.flatMap_cons, List.append_assoc]
  exact solid_quoteChar (hw c List.mem_cons_self) _

theorem not_inWord_space (single : Bool) : ¬ InWord single ' ' := by
  cases single with
  | true => exact fun h => absurd h.1 (by decide)
  | false => exact fun h => absurd rfl h

/-- What is written for a text whose first character belongs to a word starts with neither a gap nor
a break. -/
theorem Body.solid {single : Bool} {s b : List Char} (h : Body single s b)
    (hs : ∀ c ∈ s.head?, InWord single c) (r : List Char) :
    Solid (b ++ quoteMark single :: r) := by
  -- a text that starts with a word
  have hmore : ∀ w g t : List Char, (∀ c ∈ w, InWord single c) → g ≠ [] →
      (∀ c ∈ g, ¬ InWord single c) → (∀ c ∈ (w ++ g ++ t).head?, InWord single c) → w ≠ [] := by
    rintro w g t hw hne hg hhead rfl
    obtain ⟨c, g, rfl⟩ := List.exists_cons_of_ne_nil hne
    exact hg c List.mem_cons_self (hhead c rfl)
  cases h with
  | last hw =>
    by_cases hne : s = []
    · subst hne
      exact quoteMark_solid single r
    · exact solid_word hne hw _
  | @spaces w g t b hw hg hne _ _ =>
    have hwne : w ≠ [] := hmore w g t hw hne (fun c hc => by
      rw [hg c hc]
      exact not_inWord_space single) hs
    rw [List.append_assoc, List.append_assoc]
    exact solid_word hwne hw _
  | @breaks w g t b k hsingle hw hg hne _ _ _ =>
    have hwne : w ≠ [] := hmore w g t hw hne (fun c hc h => by
      subst hsingle
      rcases hg c hc with rfl | rfl
      · exact absurd h.2 (by decide)
      · exact absurd h.2 (by decide)) hs
    rw [List.append_assoc, List.append_assoc]
    exact solid_word hwne hw _

/-! ## Reading -/

theorem Gap.read_moreBreaks (indent : Nat) {g : List Char} (hg : ∀ c ∈ g, IsSoftBreak c)
    (lead trail t : List Char) {m : Mark} (hm : m.column = 0) (fuel : Nat) :
    ∃ m', m.line ≤ m'.line ∧ m'.column = 0 ∧
      Gap.read indent ⟨[], true, lead, trail⟩ ⟨m, g ++ t⟩ (g.length + fuel) =
        Gap.read indent ⟨[], true, lead, trail ++ g⟩ ⟨m', t⟩ fuel := by
  induction g generalizing trail m with
  | nil => exact ⟨m, Nat.le_refl _, hm, by simp⟩
  | cons b g ih =>
    obtain ⟨m', hline, hcolumn, hread⟩ := ih (fun c hc => hg c (List.mem_cons_of_mem b hc))
      (trail ++ [b]) (m := m.nextLine 1) rfl
    refine ⟨m', Nat.le_trans (Nat.le_succ _) hline, hcolumn, ?_⟩
    rw [List.cons_append, List.length_cons, Nat.add_right_comm,
      Gap.read_break indent _ m (hg b List.mem_cons_self)]
    have hadd : (Gap.mk [] true lead trail).addBreak [b] = ⟨[], true, lead, trail ++ [b]⟩ := rfl
    rw [hadd, hread]
    simp

/-- Breaks that keep their identity stand for themselves. -/
theorem Gap.read_separators (indent : Nat) {g t : List Char}
    (hg : ∀ c ∈ g, c = '\u2028' ∨ c = '\u2029') (hne : g ≠ []) (k : Nat) (ht : Solid t) (m : Mark)
    (fuel : Nat) (hfuel : (g ++ List.replicate k ' ').length < fuel) :
    ∃ gap m', gap.fold = g ∧ m.line ≤ m'.line ∧ m'.column = k ∧
      Gap.read indent .empty ⟨m, g ++ (List.replicate k ' ' ++ t)⟩ fuel = some (gap, ⟨m', t⟩) := by
  obtain ⟨b, g, rfl⟩ := List.exists_cons_of_ne_nil hne
  have hsoft : ∀ c ∈ b :: g, IsSoftBreak c := fun c hc => .inr (hg c hc)
  have hspaces : ∀ c ∈ List.replicate k ' ', c = ' ' := fun c hc => List.eq_of_mem_replicate hc
  simp only [List.length_append, List.length_cons, List.length_replicate] at hfuel
  obtain ⟨fuel, rfl⟩ : ∃ n, fuel = g.length + n + 1 := ⟨fuel - g.length - 1, by omega⟩
  obtain ⟨m', hline, hcolumn, hread⟩ := Gap.read_moreBreaks indent
    (fun c hc => hsoft c (List.mem_cons_of_mem b hc)) [b] [] (List.replicate k ' ' ++ t)
    (m := m.nextLine 1) rfl fuel
  refine ⟨⟨[], true, [b], g⟩, m'.advance k, ?_, Nat.le_trans (Nat.le_succ _) hline, ?_, ?_⟩
  · have hfirst : b ≠ '\n' := by
      rcases hg b List.mem_cons_self with rfl | rfl <;> decide
    simp [Gap.fold, hfirst]
  · simp [Mark.advance, hcolumn]
  · rw [List.cons_append, Gap.read_break indent _ m (hsoft b List.mem_cons_self)]
    have hadd : Gap.empty.addBreak [b] = ⟨[], true, [b], []⟩ := rfl
    rw [hadd, hread, List.nil_append, Gap.read_spaces indent _ m' hspaces ht (by
      rw [List.length_replicate]
      omega), List.length_replicate]
    rfl

variable {single : Bool} {w t text : List Char} {m : Mark}

/-- The fuel for what is written is enough for a word at its start. -/
theorem quotedWord_start {r : List Char} (hw : ∀ c ∈ w, InWord single c) {stop : QuotedEnd}
    (hr : ∀ fuel, quotedWord single r (fuel + 1) = ⟨[], 0, stop⟩) :
    quotedWord single (w.flatMap (quoteChar single) ++ r)
        ((w.flatMap (quoteChar single) ++ r).length + 1) =
      ⟨w, (w.flatMap (quoteChar single)).length, stop⟩ := by
  refine quotedWord_word hw hr ?_
  have := length_le_flatMap_quoteChar single w
  rw [List.length_append]
  omega

theorem quotedFrom_last (hw : ∀ c ∈ w, InWord single c) (hm : 0 < m.column)
    (ht : t.head? ≠ some '\'') (fuel : Nat) :
    quotedFrom single text ⟨m, w.flatMap (quoteChar single) ++ quoteMark single :: t⟩ (fuel + 1) =
      some (text ++ w, ⟨m.advance ((w.flatMap (quoteChar single)).length + 1), t⟩) := by
  have hend : ∀ fuel, quotedWord single (quoteMark single :: t) (fuel + 1) = ⟨[], 0, .quote⟩ := by
    intro fuel
    have hgap : (isGap '\'' || isBreak '\'') = false := by decide
    have hnext : (t.head? == some '\'') = false := by simpa using ht
    cases single with
    | true =>
      rw [quoteMark, if_pos rfl, quotedWord]
      simp only [hgap, Bool.false_eq_true, ↓reduceIte, BEq.rfl, hnext]
    | false => rfl
  have hword := quotedWord_start hw hend
  have hempty : (w.flatMap (quoteChar single) ++ quoteMark single :: t).isEmpty = false := by simp
  rw [quotedFrom]
  simp only [not_atDocumentMarker hm, hempty, Bool.or_self, Bool.false_eq_true, ↓reduceIte, hword]
  rw [Cursor.skip_append]
  simp [Cursor.skip]

/-- A word with a gap behind it. -/
theorem quotedFrom_gap {x : List Char} (text : List Char) (hw : ∀ c ∈ w, InWord single c) (hm : 0 < m.column)
    (hx : ∃ c ∈ x.head?, (isGap c || isBreak c) = true) {gap : Gap} {m' : Mark}
    (hread : Gap.read 0 .empty ⟨m.advance (w.flatMap (quoteChar single)).length, x ++ t⟩
      ((x ++ t).length + 1) = some (gap, ⟨m', t⟩)) (fuel : Nat) :
    quotedFrom single text ⟨m, w.flatMap (quoteChar single) ++ (x ++ t)⟩ (fuel + 1) =
      quotedFrom single (text ++ w ++ gap.fold) ⟨m', t⟩ fuel := by
  obtain ⟨c, hc, hgap⟩ := hx
  obtain ⟨r, hcons⟩ := List.head?_eq_some_iff.1 hc
  have hend : ∀ fuel, quotedWord single (x ++ t) (fuel + 1) = ⟨[], 0, .gap⟩ := by
    intro fuel
    rw [hcons, List.cons_append, quotedWord]
    simp only [hgap, ↓reduceIte]
  have hword := quotedWord_start hw hend
  have hempty : (w.flatMap (quoteChar single) ++ (x ++ t)).isEmpty = false := by simp [hcons]
  rw [quotedFrom]
  simp only [not_atDocumentMarker hm, hempty, Bool.or_self, Bool.false_eq_true, ↓reduceIte, hword]
  rw [Cursor.skip_append, hread]

/-- Spaces between words are read as they are. -/
theorem quotedFrom_spaces {g : List Char} (text : List Char) (hw : ∀ c ∈ w, InWord single c)
    (hm : 0 < m.column) (hg : ∀ c ∈ g, c = ' ') (hne : g ≠ []) (ht : Solid t) (fuel : Nat) :
    quotedFrom single text ⟨m, w.flatMap (quoteChar single) ++ (g ++ t)⟩ (fuel + 1) =
      quotedFrom single (text ++ w ++ g)
        ⟨m.advance ((w.flatMap (quoteChar single)).length + g.length), t⟩ fuel := by
  have hfirst : ∃ c ∈ g.head?, (isGap c || isBreak c) = true := by
    obtain ⟨c, g, rfl⟩ := List.exists_cons_of_ne_nil hne
    exact ⟨c, rfl, by rw [hg c List.mem_cons_self]; decide⟩
  have hread : Gap.read 0 .empty ⟨m.advance (w.flatMap (quoteChar single)).length, g ++ t⟩
      ((g ++ t).length + 1) = some (Gap.empty.addBlanks g,
        ⟨(m.advance (w.flatMap (quoteChar single)).length).advance g.length, t⟩) :=
    Gap.read_spaces 0 .empty _ hg ht (by rw [List.length_append]; omega)
  rw [quotedFrom_gap text hw hm hfirst hread, Gap.fold_spaces, Mark.advance_advance]

/-- Separators between words are read as they are, without the indentation behind them. -/
theorem quotedFrom_separators {g : List Char} (text : List Char) (hw : ∀ c ∈ w, InWord single c)
    (hm : 0 < m.column) (hg : ∀ c ∈ g, c = '\u2028' ∨ c = '\u2029') (hne : g ≠ []) (k : Nat)
    (ht : Solid t) (fuel : Nat) :
    ∃ m', quotedFrom single text
        ⟨m, w.flatMap (quoteChar single) ++ (g ++ List.replicate k ' ' ++ t)⟩ (fuel + 1) =
          quotedFrom single (text ++ w ++ g) ⟨m', t⟩ fuel ∧ m.line ≤ m'.line ∧ m'.column = k := by
  obtain ⟨c, r, hcons⟩ := List.exists_cons_of_ne_nil hne
  have hbreak : isBreak c = true := IsSoftBreak.isBreak (.inr (hg c (by simp [hcons])))
  have hfirst : ∃ c ∈ (g ++ List.replicate k ' ').head?, (isGap c || isBreak c) = true :=
    ⟨c, by rw [hcons]; rfl, by rw [hbreak, Bool.or_true]⟩
  obtain ⟨gap, m', hfold, hline, hcolumn, hread⟩ := Gap.read_separators 0 hg hne k ht
    (m.advance (w.flatMap (quoteChar single)).length)
    ((g ++ List.replicate k ' ' ++ t).length + 1) (by
      simp only [List.length_append]
      omega)
  rw [← List.append_assoc] at hread
  exact ⟨m', by rw [quotedFrom_gap text hw hm hfirst hread, hfold], hline, hcolumn⟩

/-- A text is read back from its words; on one line the mark moves on by what is written. -/
theorem quotedFrom_body {s b : List Char} (h : Body single s b) (text : List Char) (m : Mark)
    (fuel : Nat) (hm : 0 < m.column) (ht : t.head? ≠ some '\'') (hfuel : b.length < fuel) :
    ∃ m', quotedFrom single text ⟨m, b ++ quoteMark single :: t⟩ fuel =
        some (text ++ s, ⟨m', t⟩) ∧ m.line ≤ m'.line ∧
      ((∀ c ∈ b, isBreak c = false) → m' = m.advance (b.length + 1)) := by
  induction h generalizing text m fuel with
  | @last w hw =>
    obtain ⟨fuel, rfl⟩ : ∃ n, fuel = n + 1 := ⟨fuel - 1, by omega⟩
    exact ⟨_, quotedFrom_last hw hm ht fuel, Nat.le_refl _, fun _ => rfl⟩
  | @spaces w g s b hw hg hne hs hb ih =>
    obtain ⟨fuel, rfl⟩ : ∃ n, fuel = n + 1 := ⟨fuel - 1, by omega⟩
    have hstep := quotedFrom_spaces text hw hm hg hne (hb.solid hs t) fuel
    have hpos := List.length_pos_iff.2 hne
    simp only [List.length_append] at hfuel
    obtain ⟨m', hrest, hline, hsame⟩ := ih (text ++ w ++ g)
      (m.advance ((w.flatMap (quoteChar single)).length + g.length)) fuel
      (Nat.lt_of_lt_of_le hm (by simp only [Mark.advance]; omega)) (by omega)
    refine ⟨m', ?_, hline, fun hb => ?_⟩
    · rw [hrest] at hstep
      simpa only [List.append_assoc] using hstep
    · rw [hsame fun c hc => hb c (List.mem_append_right _ hc)]
      simp only [Mark.advance_advance, List.length_append, Nat.add_assoc]
  | @breaks w g s b k hsingle hw hg hne hk hs hb ih =>
    obtain ⟨fuel, rfl⟩ : ∃ n, fuel = n + 1 := ⟨fuel - 1, by omega⟩
    obtain ⟨m₁, hstep, hline₁, hcolumn⟩ :=
      quotedFrom_separators text hw hm hg hne k (hb.solid hs t) fuel
    have hpos := List.length_pos_iff.2 hne
    simp only [List.length_append] at hfuel
    obtain ⟨m', hrest, hline, -⟩ := ih (text ++ w ++ g) m₁ fuel (by rwa [hcolumn]) (by omega)
    refine ⟨m', ?_, Nat.le_trans hline₁ hline, fun hb => ?_⟩
    · rw [hrest] at hstep
      simpa only [List.append_assoc] using hstep
    · -- a separator is a break, so the text has more than one line
      obtain ⟨c, r, rfl⟩ := List.exists_cons_of_ne_nil hne
      have hbreak : isBreak c = true := IsSoftBreak.isBreak (.inr (hg c List.mem_cons_self))
      rw [hb c (by simp)] at hbreak
      cases hbreak

theorem quotedScalar_body {s b : List Char} (h : Body single s b) (ht : t.head? ≠ some '\'') :
    ∃ m', quotedScalar single ⟨m, quoteMark single :: (b ++ quoteMark single :: t)⟩ =
        some (s, ⟨m', t⟩) ∧ m.line ≤ m'.line ∧
      ((∀ c ∈ b, isBreak c = false) → m' = m.advance (b.length + 2)) := by
  have hcolumn : 0 < (m.advance 1).column := Nat.lt_add_left m.column Nat.one_pos
  obtain ⟨m', hread, hline, hsame⟩ := quotedFrom_body h [] (m.advance 1)
    ((quoteMark single :: (b ++ quoteMark single :: t)).length + 1) hcolumn ht (by
      rw [List.length_cons, List.length_append]
      omega)
  refine ⟨m', hread, hline, fun hb => ?_⟩
  rw [hsame hb, Mark.advance_advance]
  congr 1
  omega

/-! ## Writing -/

theorem flatMap_of_eq {f : Char → List Char} {g : List Char} (h : ∀ c ∈ g, f c = [c]) :
    g.flatMap f = g := by
  induction g with
  | nil => rfl
  | cons c g ih =>
    rw [List.flatMap_cons, h c List.mem_cons_self, ih fun d hd => h d (List.mem_cons_of_mem c hd)]
    rfl

theorem body_double (s : List Char) : Body false s (s.flatMap doubleChar) := by
  have hin : ∀ c, isSpace c = false → InWord false c := by
    rintro _ h rfl
    cases h
  induction s using words_induction isSpace with
  | last w hw => exact .last fun c hc => hin c (hw c hc)
  | more w g s hw hne hg hs ih =>
    have hspaces : ∀ c ∈ g, c = ' ' := fun c hc => by simpa [isSpace] using hg c hc
    have hgap : g.flatMap doubleChar = g := flatMap_of_eq fun c hc => by
      rw [hspaces c hc]
      decide
    rw [List.flatMap_append, List.flatMap_append, hgap]
    exact .spaces (fun c hc => hin c (hw c hc)) hspaces hne (fun c hc => hin c (hs c hc)) ih

theorem singleBody_unbroken (indent : Nat) {w : List Char} (hw : ∀ c ∈ w, isBreak c = false)
    (t : List Char) :
    singleBody indent false (w ++ t) = w.flatMap singleChar ++ singleBody indent false t := by
  induction w with
  | nil => rfl
  | cons c w ih =>
    rw [List.cons_append, singleBody, hw c List.mem_cons_self,
      ih fun d hd => hw d (List.mem_cons_of_mem c hd)]
    simp [singleChar]

theorem singleBody_breaks (indent : Nat) {g : List Char} (hg : ∀ c ∈ g, isBreak c = true)
    (hne : g ≠ []) (fresh : Bool) (t : List Char) :
    singleBody indent fresh (g ++ t) = g ++ singleBody indent true t := by
  induction g generalizing fresh with
  | nil => exact absurd rfl hne
  | cons c g ih =>
    rw [List.cons_append, singleBody, if_pos (hg c List.mem_cons_self)]
    cases g with
    | nil => rfl
    | cons d g =>
      rw [ih (fun e he => hg e (List.mem_cons_of_mem c he)) (List.cons_ne_nil d g)]
      rfl

theorem singleBody_fresh (indent : Nat) {t : List Char} (ht : ∀ c ∈ t.head?, isBreak c = false) :
    singleBody indent true t = List.replicate indent ' ' ++ singleBody indent false t := by
  cases t with
  | nil => simp [singleBody]
  | cons c t =>
    rw [singleBody, singleBody, ht c rfl]
    simp

/-- What may be written in single quotes. -/
structure IsSingle (s : List Char) : Prop where
  printable : ∀ c ∈ s, isPrintable c = true
  feeds : '\n' ∉ s
  before : hasSpaceBeforeBreak s = false
  after : hasSpaceAfterBreak s = false

theorem IsSingle.of_append {a b : List Char} (h : IsSingle (a ++ b)) : IsSingle b where
  printable c hc := h.printable c (List.mem_append_right a hc)
  feeds hc := h.feeds (List.mem_append_right a hc)
  before := hasPair_of_append h.before
  after := hasPair_of_append h.after

/-- A gap has spaces only or breaks only. -/
theorem IsSingle.gap {g t : List Char} (h : IsSingle (g ++ t))
    (hg : ∀ c ∈ g, (isSpace c || isBreak c) = true) :
    (∀ c ∈ g, isSpace c = true) ∨ ∀ c ∈ g, isBreak c = true := by
  induction g with
  | nil => exact .inl nofun
  | cons c g ih =>
    have hrest : IsSingle (g ++ t) := IsSingle.of_append (a := [c]) h
    have hc := hg c List.mem_cons_self
    rw [Bool.or_eq_true] at hc
    cases g with
    | nil =>
      refine hc.imp (fun hc d hd => ?_) fun hc d hd => ?_
      · rwa [List.mem_singleton.1 hd]
      · rwa [List.mem_singleton.1 hd]
    | cons d g =>
      have hbefore : (isSpace c && isBreak d) = false := hasPair_eq_false (a := []) h.before rfl
      have hafter : (isBreak c && isSpace d) = false := hasPair_eq_false (a := []) h.after rfl
      rcases ih hrest fun e he => hg e (List.mem_cons_of_mem c he) with hspaces | hbreaks
      · rw [hspaces d List.mem_cons_self, Bool.and_true] at hafter
        rw [hafter] at hc
        exact .inl (List.forall_mem_cons.2 ⟨by simpa using hc, hspaces⟩)
      · rw [hbreaks d List.mem_cons_self, Bool.and_true] at hbefore
        rw [hbefore] at hc
        exact .inr (List.forall_mem_cons.2 ⟨by simpa using hc, hbreaks⟩)

theorem inWord_of_isPrintable {c : Char} (hc : isPrintable c = true)
    (hsep : (isSpace c || isBreak c) = false) : InWord true c := by
  rw [Bool.or_eq_false_iff] at hsep
  refine ⟨?_, hsep.2⟩
  rw [Bool.eq_false_iff]
  intro hgap
  rw [eq_space_of_isPrintable hc hgap] at hsep
  exact absurd hsep.1 (by decide)

theorem body_single {s : List Char} (h : IsSingle s) {indent : Nat} (hindent : 0 < indent) :
    Body true s (singleBody indent false s) := by
  induction s using words_induction (fun c => isSpace c || isBreak c) with
  | last w hw =>
    have hbody := singleBody_unbroken indent (fun c hc => (Bool.or_eq_false_iff.1 (hw c hc)).2) []
    rw [List.append_nil] at hbody
    rw [hbody]
    simp only [singleBody, Bool.false_eq_true, ↓reduceIte, List.append_nil]
    exact .last fun c hc => inWord_of_isPrintable (h.printable c hc) (hw c hc)
  | more w g s hw hne hg hs ih =>
    have hrest : IsSingle s := h.of_append
    have hgap : IsSingle (g ++ s) := by
      rw [List.append_assoc] at h
      exact h.of_append
    have hword : ∀ c ∈ w, InWord true c := fun c hc =>
      inWord_of_isPrintable (h.printable c (by simp [hc])) (hw c hc)
    have hnext : ∀ c ∈ s.head?, InWord true c := fun c hc =>
      inWord_of_isPrintable (hrest.printable c (List.mem_of_head? hc)) (hs c hc)
    rw [List.append_assoc, singleBody_unbroken indent fun c hc => (hword c hc).2,
      ← List.append_assoc w g s]
    rcases hgap.gap hg with hspaces | hbreaks
    · have hspaces' : ∀ c ∈ g, c = ' ' := fun c hc => by simpa [isSpace] using hspaces c hc
      have hsame : g.flatMap singleChar = g := flatMap_of_eq fun c hc => by
        rw [hspaces' c hc]
        decide
      rw [singleBody_unbroken indent (fun c hc => by rw [hspaces' c hc]; decide), hsame,
        ← List.append_assoc]
      exact .spaces hword hspaces' hne hnext (ih hrest)
    · have hsoft : ∀ c ∈ g, c = '\u2028' ∨ c = '\u2029' := by
        intro c hc
        refine (isSoftBreak_of_isPrintable (hgap.printable c (List.mem_append_left s hc))
          (hbreaks c hc)).resolve_left ?_
        rintro rfl
        exact hgap.feeds (List.mem_append_left s hc)
      rw [singleBody_breaks indent hbreaks hne, singleBody_fresh indent fun c hc => (hnext c hc).2,
        ← List.append_assoc g, ← List.append_assoc (w.flatMap singleChar)]
      exact .breaks rfl hword hsoft hne hindent hnext (ih hrest)

/-! ## What is written -/

theorem isInk_doubleChar {c d : Char} (hd : d ∈ doubleChar c) : IsInk d := by
  unfold doubleChar at hd
  split at hd
  · exact isInk_escapeChar hd
  · rename_i hplain
    simp only [Bool.or_eq_true, Bool.not_eq_eq_eq_not, Bool.not_true, not_or, Bool.not_eq_false,
      Bool.not_eq_true] at hplain
    rw [List.mem_singleton.1 hd]
    exact ⟨hplain.1.1.1, hplain.1.1.2⟩

theorem mem_singleChar {c d : Char} (hd : d ∈ singleChar c) : d = c := by
  unfold singleChar at hd
  split at hd
  · rename_i hc
    simpa [hc] using hd
  · exact List.mem_singleton.1 hd

theorem isBreak_of_mem_quoteChar {single : Bool} {c d : Char} (hc : isBreak c = false)
    (hd : d ∈ quoteChar single c) : isBreak d = false := by
  cases single with
  | true => rwa [mem_singleChar hd]
  | false => exact (isInk_doubleChar hd).2

theorem length_flatMap_quoteChar_le (single : Bool) (s : List Char) :
    (s.flatMap (quoteChar single)).length ≤ 6 * Text.utf8Length s := by
  have hchar : ∀ c, (quoteChar single c).length ≤ 6 * c.utf8Size := by
    intro c
    have hsix : 6 ≤ 6 * c.utf8Size := Nat.le_mul_of_pos_right 6 c.utf8Size_pos
    unfold quoteChar singleChar doubleChar
    split
    · split
      · exact Nat.le_trans (by decide : 2 ≤ 6) hsix
      · exact Nat.le_trans (by decide : 1 ≤ 6) hsix
    · split
      · exact length_escapeChar_le c
      · exact Nat.le_trans (by decide : 1 ≤ 6) hsix
  induction s with
  | nil => exact Nat.le_refl _
  | cons c s ih =>
    have := hchar c
    rw [List.flatMap_cons, List.length_append, Text.utf8Length]
    omega

end MarketingForm.Yaml
