import Mathlib.Data.List.Induction
import MarketingForm.Yaml.Spelling
import MarketingForm.Yaml.Token.Plain

/-!
# Words and gaps

A text is a row of words with gaps between them (`words_induction`). What a reader does with a gap of
spaces or with a break is said here once for all styles; a plain scalar is then read back word by
word (`plainScalar_key`, `plainScalar_line`).
-/

namespace MarketingForm.Yaml

/-! ## Characters -/

theorem isAllowed_of_isPrintable {c : Char} (h : isPrintable c = true) : isAllowed c = true := by
  simp only [isPrintable, isAllowed, Bool.or_eq_true, Bool.and_eq_true, beq_iff_eq, bne_iff_ne,
    decide_eq_true_eq] at h ⊢
  omega

/-- The breaks that a text can have without escapes. -/
def IsSoftBreak (c : Char) : Prop := c = '\n' ∨ c = '\u2028' ∨ c = '\u2029'

theorem isSoftBreak_of_isPrintable {c : Char} (h : isPrintable c = true) (hb : isBreak c = true) :
    IsSoftBreak c := by
  simp only [isBreak, Bool.or_eq_true, beq_iff_eq] at hb
  rcases hb with (((rfl | rfl) | rfl) | rfl) | rfl
  · exact .inl rfl
  · exact absurd h (by decide)
  · exact absurd h (by decide)
  · exact .inr (.inl rfl)
  · exact .inr (.inr rfl)

theorem IsSoftBreak.isBreak {c : Char} (h : IsSoftBreak c) : isBreak c = true := by
  rcases h with rfl | rfl | rfl <;> decide

theorem IsSoftBreak.not_isGap {c : Char} (h : IsSoftBreak c) : isGap c = false := by
  rcases h with rfl | rfl | rfl <;> decide

theorem eq_space_of_isPrintable {c : Char} (h : isPrintable c = true) (hg : isGap c = true) :
    c = ' ' := by
  simp only [isGap, Bool.or_eq_true, beq_iff_eq] at hg
  rcases hg with rfl | rfl
  · rfl
  · exact absurd h (by decide)

/-- A text that is over or starts with neither a gap nor a break. -/
def Solid (t : List Char) : Prop := ∀ c ∈ t.head?, isGap c = false ∧ isBreak c = false

/-! ## Texts -/

/-- A text is read word by word: words without characters of a sort, rows of such characters between
them. -/
theorem words_induction {P : List Char → Prop} (p : Char → Bool)
    (last : ∀ w : List Char, (∀ c ∈ w, p c = false) → P w)
    (more : ∀ w g s : List Char, (∀ c ∈ w, p c = false) → g ≠ [] → (∀ c ∈ g, p c = true) →
      (∀ c ∈ s.head?, p c = false) → P s → P (w ++ g ++ s)) (s : List Char) : P s := by
  induction h : s.length using Nat.strongRecOn generalizing s with
  | _ n ih =>
    have hw : ∀ c ∈ s.takeWhile (!p ·), p c = false := fun c hc => by
      simpa using List.all_eq_true.1 List.all_takeWhile c hc
    generalize hrest : s.dropWhile (!p ·) = rest
    have hs : s = s.takeWhile (!p ·) ++ rest := by rw [← hrest, List.takeWhile_append_dropWhile]
    cases rest with
    | nil =>
      rw [hs, List.append_nil]
      exact last _ hw
    | cons c r =>
      have hc : p c = true := by
        have := List.head?_dropWhile_not (!p ·) s
        rw [hrest] at this
        simpa using this
      have hsplit : c :: r = (c :: r).takeWhile p ++ (c :: r).dropWhile p :=
        List.takeWhile_append_dropWhile.symm
      have hg : (c :: r).takeWhile p ≠ [] := by simp [hc]
      rw [hs, hsplit, ← List.append_assoc]
      refine more _ _ _ hw hg ?_ ?_ (ih _ ?_ _ rfl)
      · exact fun d hd => List.all_eq_true.1 List.all_takeWhile d hd
      · intro d hd
        have := List.head?_dropWhile_not p (c :: r)
        rw [hd] at this
        simpa using this
      · have hlength := congrArg List.length hs
        have hlength' := congrArg List.length hsplit
        have hpos := List.length_pos_iff.2 hg
        simp only [List.length_append] at hlength hlength'
        omega

theorem exists_concat {s : List Char} (h : s ≠ []) : ∃ r c, s = r ++ [c] :=
  ⟨s.dropLast, s.getLast h, (List.dropLast_concat_getLast h).symm⟩

theorem hasPair_eq_false {p q : Char → Bool} {s a b : List Char} {c d : Char}
    (h : hasPair p q s = false) (hs : s = a ++ c :: d :: b) : (p c && q d) = false := by
  subst hs
  induction a with
  | nil =>
    rw [List.nil_append, hasPair, Bool.or_eq_false_iff] at h
    exact h.1
  | cons x a ih =>
    refine ih ?_
    cases a with
    | nil =>
      rw [List.cons_append, List.nil_append, hasPair, Bool.or_eq_false_iff] at h
      exact h.2
    | cons y a =>
      rw [List.cons_append, List.cons_append, hasPair, Bool.or_eq_false_iff] at h
      exact h.2

theorem endsWord_of_hasKeyMark {s a b : List Char} (h : hasKeyMark s = false)
    (hs : s = a ++ ':' :: b) : endsWord b = false := by
  subst hs
  induction a with
  | nil =>
    rw [List.nil_append, hasKeyMark, Bool.or_eq_false_iff] at h
    simpa using h.1
  | cons x a ih =>
    rw [List.cons_append, hasKeyMark, Bool.or_eq_false_iff] at h
    exact ih h.2

theorem hasPair_of_append {p q : Char → Bool} {a b : List Char} (h : hasPair p q (a ++ b) = false) :
    hasPair p q b = false := by
  induction a with
  | nil => exact h
  | cons c a ih =>
    refine ih ?_
    rw [List.cons_append] at h
    generalize a ++ b = s at h
    cases s with
    | nil => rfl
    | cons d s =>
      rw [hasPair, Bool.or_eq_false_iff] at h
      exact h.2

theorem hasKeyMark_of_append {a b : List Char} (h : hasKeyMark (a ++ b) = false) :
    hasKeyMark b = false := by
  induction a with
  | nil => exact h
  | cons c a ih =>
    rw [List.cons_append, hasKeyMark, Bool.or_eq_false_iff] at h
    exact ih h.2

theorem endsWord_append {s t : List Char} (h : endsWord s = false) : endsWord (s ++ t) = false := by
  cases s with
  | nil => cases h
  | cons c r => exact h

/-! ## Places -/

@[simp] theorem Mark.advance_zero (m : Mark) : m.advance 0 = m := rfl

@[simp] theorem Mark.advance_advance (m : Mark) (i j : Nat) :
    (m.advance i).advance j = m.advance (i + j) := by
  simp [Mark.advance, Nat.add_assoc]

theorem Cursor.skip_append (m : Mark) (w t : List Char) :
    Cursor.skip ⟨m, w ++ t⟩ w.length = ⟨m.advance w.length, t⟩ := by
  simp [Cursor.skip]

theorem Cursor.span_append {p : Char → Bool} {w t : List Char} (hw : ∀ c ∈ w, p c = true)
    (ht : ∀ c ∈ t.head?, p c = false) (m : Mark) :
    Cursor.span ⟨m, w ++ t⟩ p = (w, ⟨m.advance w.length, t⟩) := by
  have htake : (w ++ t).takeWhile p = w := by
    rw [List.takeWhile_append_of_pos hw]
    cases t with
    | nil => simp
    | cons c t => simp [ht c rfl]
  unfold Cursor.span
  simp only [htake, List.drop_left]

theorem Cursor.readBreak_of_isSoftBreak {b : Char} (h : IsSoftBreak b) (m : Mark) (r : List Char) :
    Cursor.readBreak ⟨m, b :: r⟩ = ([b], ⟨m.nextLine 1, r⟩) := by
  rcases h with rfl | rfl | rfl <;> rfl

/-! ## Gaps -/

namespace Gap

/-- The gap with some spaces more. -/
def addBlanks (g : Gap) (cs : List Char) : Gap :=
  if g.broken then g else { g with blanks := g.blanks ++ cs }

/-- Spaces that end no line are kept. -/
theorem fold_spaces (cs : List Char) : (empty.addBlanks cs).fold = cs := by
  simp [addBlanks, empty, fold]

theorem read_spaces (indent : Nat) (g : Gap) (m : Mark) {cs t : List Char}
    (hcs : ∀ c ∈ cs, c = ' ') (ht : Solid t) {fuel : Nat} (hfuel : cs.length < fuel) :
    read indent g ⟨m, cs ++ t⟩ fuel = some (g.addBlanks cs, ⟨m.advance cs.length, t⟩) := by
  induction cs generalizing g m fuel with
  | nil =>
    obtain ⟨fuel, rfl⟩ := Nat.exists_eq_add_of_lt hfuel
    have hsame : g.addBlanks [] = g := by
      unfold addBlanks
      split <;> simp
    rw [hsame]
    cases t with
    | nil => rfl
    | cons d r =>
      obtain ⟨hgap, hbreak⟩ := ht d rfl
      simp [read, hgap, hbreak]
  | cons c cs ih =>
    obtain ⟨fuel, rfl⟩ : ∃ n, fuel = n + 1 := ⟨fuel - 1, by omega⟩
    obtain rfl := hcs c List.mem_cons_self
    have hspace : isGap ' ' = true := by decide
    have htab : ¬ ' ' = '\t' := by decide
    rw [List.cons_append, read]
    simp only [hspace, htab, and_false, ↓reduceIte]
    have hskip : Cursor.skip ⟨m, ' ' :: (cs ++ t)⟩ 1 = ⟨m.advance 1, cs ++ t⟩ := rfl
    rw [hskip, ih _ _ (fun d hd => hcs d (List.mem_cons_of_mem _ hd))
      (by simp only [List.length_cons] at hfuel; omega)]
    have hadd : (g.addBlank ' ').addBlanks cs = g.addBlanks (' ' :: cs) := by
      unfold addBlanks addBlank
      by_cases hb : g.broken = true <;> simp [hb]
    rw [hadd, Mark.advance_advance, List.length_cons, Nat.add_comm]

theorem read_break (indent : Nat) (g : Gap) (m : Mark) {b : Char} (hb : IsSoftBreak b)
    (r : List Char) (fuel : Nat) :
    read indent g ⟨m, b :: r⟩ (fuel + 1) = read indent (g.addBreak [b]) ⟨m.nextLine 1, r⟩ fuel := by
  rw [read]
  simp only [hb.not_isGap, Bool.false_eq_true, ↓reduceIte, hb.isBreak,
    Cursor.readBreak_of_isSoftBreak hb]

end Gap

/-! ## Plain scalars -/

/-- The characters of a word: no gaps and no breaks, and no colon ends a word in them or where the
text goes on. -/
structure IsWord (w t : List Char) : Prop where
  chars : ∀ c ∈ w, isGap c = false ∧ isBreak c = false
  colons : ∀ a b, w = a ++ ':' :: b → endsWord (b ++ t) = false

theorem plainWord_append {w t : List Char} (hw : IsWord w t) :
    plainWord false (w ++ t) = (w ++ (plainWord false t).1, (plainWord false t).2) := by
  induction w with
  | nil => rfl
  | cons c w ih =>
    obtain ⟨hgap, hbreak⟩ := hw.chars c List.mem_cons_self
    have hcolon : (c == ':' && endsWord (w ++ t)) = false := by
      by_cases hc : c = ':'
      · subst hc
        rw [hw.colons [] w rfl]
        rfl
      · simp [hc]
    have hrest : IsWord w t :=
      ⟨fun d hd => hw.chars d (List.mem_cons_of_mem c hd), fun a b hab => by
        refine hw.colons (c :: a) b ?_
        rw [hab]
        rfl⟩
    rw [List.cons_append, plainWord]
    simp [hgap, hbreak, hcolon, ih hrest]

theorem plainFrom_word {indent : Nat} {text w t : List Char} {stop m : Mark} {gap : Gap} {fuel : Nat}
    (hw : IsWord w t) (hne : w ≠ []) (hhash : w.head? ≠ some '#')
    (hmarker : Cursor.atDocumentMarker ⟨m, w ++ t⟩ = false) {how : WordEnd}
    (ht : plainWord false t = ([], how)) :
    plainFrom false indent text stop gap ⟨m, w ++ t⟩ (fuel + 1) =
      let text := text ++ gap.fold ++ w
      let stop := m.advance w.length
      match how with
      | .misplacedColon => none
      | .scalar => some ⟨text, stop, false, ⟨stop, t⟩⟩
      | .gap =>
        if t.isEmpty then some ⟨text, stop, false, ⟨stop, t⟩⟩
        else
          match Gap.read indent .empty ⟨stop, t⟩ (t.length + 1) with
          | none => none
          | some (gap, c) =>
            if c.mark.column < indent then some ⟨text, stop, gap.broken, c⟩
            else plainFrom false indent text stop gap c fuel := by
  have hword : plainWord false (w ++ t) = (w, how) := by
    rw [plainWord_append hw, ht, List.append_nil]
  have hstart : (Cursor.atDocumentMarker ⟨m, w ++ t⟩ || (w ++ t).head? == some '#') = false := by
    obtain ⟨c, r, rfl⟩ := List.exists_cons_of_ne_nil hne
    rw [hmarker, Bool.false_or]
    simpa using hhash
  have hempty : w.isEmpty = false := by simpa using hne
  rw [plainFrom]
  simp only [hstart, Bool.false_eq_true, ↓reduceIte, hword, Cursor.skip_append, hempty, Gap.empty,
    Bool.not_false, Bool.true_and, decide_eq_true_eq]
  cases how <;> rfl

/-- What a plain scalar may be made of: the rest of one that begins with a word. -/
structure IsPlain (s : List Char) : Prop where
  printable : ∀ c ∈ s, isPrintable c = true
  unbroken : ∀ c ∈ s, isBreak c = false
  colons : hasKeyMark s = false
  comments : hasPair (fun c => isGap c || isBreak c) (· == '#') s = false
  last : s.getLast?.any isSpace = false

theorem IsPlain.of_append {a b : List Char} (h : IsPlain (a ++ b)) (hb : b ≠ []) : IsPlain b where
  printable c hc := h.printable c (List.mem_append_right a hc)
  unbroken c hc := h.unbroken c (List.mem_append_right a hc)
  colons := hasKeyMark_of_append h.colons
  comments := hasPair_of_append h.comments
  last := by
    have hlast := h.last
    obtain ⟨b, c, rfl⟩ := exists_concat hb
    simpa [← List.append_assoc] using hlast

theorem IsPlain.isWord {w b : List Char} (h : IsPlain (w ++ b)) (hw : ∀ c ∈ w, isSpace c = false)
    (t : List Char) : IsWord w (b ++ t) where
  chars c hc := by
    refine ⟨?_, h.unbroken c (List.mem_append_left b hc)⟩
    rw [Bool.eq_false_iff]
    intro hgap
    have hspace := hw c hc
    rw [eq_space_of_isPrintable (h.printable c (List.mem_append_left b hc)) hgap] at hspace
    cases hspace
  colons a d had := by
    have hcolons := endsWord_of_hasKeyMark h.colons
      (show w ++ b = a ++ ':' :: (d ++ b) by rw [had]; simp)
    simpa using endsWord_append hcolons (t := t)

theorem IsPlain.solid {s : List Char} (h : IsPlain s) (hne : s ≠ [])
    (hhead : ∀ c ∈ s.head?, isSpace c = false) (t : List Char) : Solid (s ++ t) := by
  obtain ⟨c, r, rfl⟩ := List.exists_cons_of_ne_nil hne
  have hword := h.isWord (w := [c]) (b := r) (fun d hd => by
    rw [List.mem_singleton.1 hd]
    exact hhead c rfl) t
  intro d hd
  cases hd
  exact hword.chars c List.mem_cons_self

theorem not_atDocumentMarker {m : Mark} {t : List Char} (h : 0 < m.column) :
    Cursor.atDocumentMarker ⟨m, t⟩ = false := by
  have hcolumn : (m.column == 0) = false := by
    rw [beq_eq_false_iff_ne]
    omega
  unfold Cursor.atDocumentMarker
  simp only [hcolumn, Bool.false_and]

/-- A plain scalar of several words: its first word is no comment, and neither is what is left of it. -/
theorem IsPlain.words {w g s : List Char} (hs : IsPlain (w ++ g ++ s))
    (hhead : ∀ c ∈ (w ++ g ++ s).head?, isSpace c = false ∧ c ≠ '#') (hgne : g ≠ [])
    (hg : ∀ c ∈ g, c = ' ') (hshead : ∀ c ∈ s.head?, isSpace c = false) :
    (w ≠ [] ∧ w.head? ≠ some '#') ∧ s ≠ [] ∧ ∀ c ∈ s.head?, isSpace c = false ∧ c ≠ '#' := by
  obtain ⟨g, d, rfl⟩ := exists_concat hgne
  obtain rfl := hg d (by simp)
  have hwne : w ≠ [] := by
    rintro rfl
    obtain ⟨c, r, hcons⟩ := List.exists_cons_of_ne_nil hgne
    obtain rfl := hg c (by rw [hcons]; exact List.mem_cons_self)
    have := (hhead ' ' (by rw [hcons]; rfl)).1
    cases this
  refine ⟨⟨hwne, fun h => ?_⟩, ?_, fun c hc => ⟨hshead c hc, ?_⟩⟩
  · obtain ⟨c, r, rfl⟩ := List.exists_cons_of_ne_nil hwne
    exact (hhead '#' h).2 rfl
  · rintro rfl
    have hlast := hs.last
    rw [List.append_nil, ← List.append_assoc, List.getLast?_concat] at hlast
    cases hlast
  · rintro rfl
    obtain ⟨r, hr⟩ := List.head?_eq_some_iff.1 hc
    have hsplit : w ++ (g ++ [' ']) ++ s = (w ++ g) ++ ' ' :: '#' :: r := by rw [hr]; simp
    cases hasPair_eq_false hs.comments hsplit

/-- A word and the spaces behind it are read. -/
theorem plainFrom_spaces {indent : Nat} {text w g t : List Char} {stop m : Mark} {gap : Gap}
    {fuel : Nat} (hw : IsWord w (g ++ t)) (hne : w ≠ []) (hhash : w.head? ≠ some '#')
    (hmarker : Cursor.atDocumentMarker ⟨m, w ++ (g ++ t)⟩ = false) (hgne : g ≠ [])
    (hg : ∀ c ∈ g, c = ' ') (ht : Solid t) (hcolumn : indent ≤ m.column + 1) :
    plainFrom false indent text stop gap ⟨m, w ++ (g ++ t)⟩ (fuel + 1) =
      plainFrom false indent (text ++ gap.fold ++ w) (m.advance w.length) (Gap.empty.addBlanks g)
        ⟨m.advance (w.length + g.length), t⟩ fuel := by
  have hend : plainWord false (g ++ t) = ([], .gap) := by
    obtain ⟨c, r, hcons⟩ := List.exists_cons_of_ne_nil hgne
    obtain rfl := hg c (by rw [hcons]; exact List.mem_cons_self)
    rw [hcons, List.cons_append, plainWord]
    rfl
  have hempty : (g ++ t).isEmpty = false := by simp [hgne]
  have hread : Gap.read indent .empty ⟨m.advance w.length, g ++ t⟩ ((g ++ t).length + 1) =
      some (Gap.empty.addBlanks g, ⟨(m.advance w.length).advance g.length, t⟩) :=
    Gap.read_spaces indent .empty (m.advance w.length) hg ht
      (by simp only [List.length_append]; omega)
  have hcolumn' : indent ≤ ((m.advance w.length).advance g.length).column := by
    have := List.length_pos_iff.2 hne
    simp only [Mark.advance]
    omega
  rw [plainFrom_word hw hne hhash hmarker hend]
  simp only [hempty, Bool.false_eq_true, ↓reduceIte, hread]
  rw [if_neg (Nat.not_lt.2 hcolumn'), Mark.advance_advance]

/-- The words of a plain scalar are read up to its last one, and then it ends. -/
theorem plainFrom_text {indent : Nat} {t : List Char} (result : List Char → Mark → PlainScalar)
    (hresult : ∀ (text w : List Char) (stop m : Mark) (gap : Gap) (fuel : Nat), IsWord w t →
      w ≠ [] → w.head? ≠ some '#' → Cursor.atDocumentMarker ⟨m, w ++ t⟩ = false →
        plainFrom false indent text stop gap ⟨m, w ++ t⟩ (fuel + 1) =
          some (result (text ++ gap.fold ++ w) (m.advance w.length)))
    {s : List Char} (hs : IsPlain s) (hne : s ≠ [])
    (hhead : ∀ c ∈ s.head?, isSpace c = false ∧ c ≠ '#') {text : List Char} {stop m : Mark}
    {gap : Gap} {fuel : Nat} (hmarker : Cursor.atDocumentMarker ⟨m, s ++ t⟩ = false)
    (hcolumn : indent ≤ m.column + 1) (hfuel : s.length < fuel) :
    plainFrom false indent text stop gap ⟨m, s ++ t⟩ fuel =
      some (result (text ++ gap.fold ++ s) (m.advance s.length)) := by
  induction s using words_induction isSpace generalizing text stop m gap fuel with
  | last w hw =>
    obtain ⟨fuel, rfl⟩ : ∃ n, fuel = n + 1 := ⟨fuel - 1, by omega⟩
    have hword := IsPlain.isWord (b := []) (by rwa [List.append_nil]) hw t
    refine hresult text w stop m gap fuel hword hne (fun h => ?_) hmarker
    exact (hhead '#' (by rw [h]; rfl)).2 rfl
  | more w g s hw hgne hg hshead ih =>
    obtain ⟨fuel, rfl⟩ : ∃ n, fuel = n + 1 := ⟨fuel - 1, by omega⟩
    have hspaces : ∀ c ∈ g, c = ' ' := fun c hc => by simpa [isSpace] using hg c hc
    obtain ⟨⟨hwne, hhash⟩, hsne, hhead'⟩ := hs.words hhead hgne hspaces hshead
    have hplain : IsPlain s := hs.of_append hsne
    have hword : IsWord w (g ++ (s ++ t)) := by
      rw [List.append_assoc] at hs
      simpa only [List.append_assoc] using hs.isWord hw t
    have hlength := List.length_pos_iff.2 hwne
    have hmarker' : Cursor.atDocumentMarker ⟨m.advance (w.length + g.length), s ++ t⟩ = false := by
      refine not_atDocumentMarker ?_
      simp only [Mark.advance]
      omega
    have hcolumn' : indent ≤ (m.advance (w.length + g.length)).column + 1 := by
      simp only [Mark.advance]
      omega
    have htext : w ++ g ++ s ++ t = w ++ (g ++ (s ++ t)) := by simp only [List.append_assoc]
    simp only [List.length_append] at hfuel
    rw [htext] at hmarker ⊢
    rw [plainFrom_spaces hword hwne hhash hmarker hgne hspaces (hplain.solid hsne hshead t) hcolumn,
      ih hplain hsne hhead' hmarker' hcolumn' (by omega), Gap.fold_spaces, Mark.advance_advance]
    simp only [List.append_assoc, List.length_append, Nat.add_assoc]

theorem plainScalar_key {s r : List Char} (hs : IsPlain s) (hne : s ≠ [])
    (hhead : ∀ c ∈ s.head?, isSpace c = false ∧ c ≠ '#') (hr : endsWord r = true) {indent : Nat}
    {m : Mark} (hmarker : Cursor.atDocumentMarker ⟨m, s ++ ':' :: r⟩ = false)
    (hcolumn : indent ≤ m.column + 1) :
    plainScalar false indent ⟨m, s ++ ':' :: r⟩ =
      some ⟨s, m.advance s.length, false, ⟨m.advance s.length, ':' :: r⟩⟩ := by
  have hend : plainWord false (':' :: r) = ([], .scalar) := by
    rw [plainWord, hr]
    rfl
  unfold plainScalar
  rw [plainFrom_text (fun text m => ⟨text, m, false, ⟨m, ':' :: r⟩⟩) ?_ hs hne hhead hmarker hcolumn
    (by simp only [List.length_append]; omega)]
  · rfl
  · intro text w stop m gap fuel hw hwne hhash hmarker
    rw [plainFrom_word hw hwne hhash hmarker hend]

/-- A plain scalar at the end of a line ends there if the next line is indented too little. -/
theorem plainScalar_line {s r : List Char} (hs : IsPlain s) (hne : s ≠ [])
    (hhead : ∀ c ∈ s.head?, isSpace c = false ∧ c ≠ '#') (hr : Solid r) {indent column : Nat}
    (hindent : column < indent) {m : Mark}
    (hmarker : Cursor.atDocumentMarker ⟨m, s ++ '\n' :: (List.replicate column ' ' ++ r)⟩ = false)
    (hcolumn : indent ≤ m.column + 1) :
    plainScalar false indent ⟨m, s ++ '\n' :: (List.replicate column ' ' ++ r)⟩ =
      some ⟨s, m.advance s.length, true, ⟨((m.advance s.length).nextLine 1).advance column, r⟩⟩ := by
  have hend : plainWord false ('\n' :: (List.replicate column ' ' ++ r)) = ([], .gap) := by
    rw [plainWord]
    rfl
  unfold plainScalar
  rw [plainFrom_text (fun text m => ⟨text, m, true, ⟨(m.nextLine 1).advance column, r⟩⟩) ?_ hs hne
    hhead hmarker hcolumn (by simp only [List.length_append]; omega)]
  · rfl
  · intro text w stop m gap fuel hw hwne hhash hmarker
    have hspaces : ∀ c ∈ List.replicate column ' ', c = ' ' :=
      fun c hc => List.eq_of_mem_replicate hc
    have hread : Gap.read indent (Gap.empty.addBreak ['\n'])
        ⟨(m.advance w.length).nextLine 1, List.replicate column ' ' ++ r⟩
        ('\n' :: (List.replicate column ' ' ++ r)).length =
          some ((Gap.empty.addBreak ['\n']).addBlanks (List.replicate column ' '),
            ⟨((m.advance w.length).nextLine 1).advance (List.replicate column ' ').length, r⟩) :=
      Gap.read_spaces indent _ _ hspaces hr
        (by simp only [List.length_cons, List.length_append]; omega)
    rw [List.length_replicate] at hread
    rw [plainFrom_word hw hwne hhash hmarker hend]
    simp only [List.isEmpty_cons, Bool.false_eq_true, ↓reduceIte, Gap.read_break _ _ _ (.inl rfl),
      hread]
    rw [if_pos (by simpa [Mark.advance, Mark.nextLine] using hindent)]
    rfl

end MarketingForm.Yaml
