import MarketingForm.Proofs.Yaml.Gap
import MarketingForm.Yaml.Block
import MarketingForm.Yaml.Token.Block

/-!
# Literal blocks are read back

A text in a literal block is read line by line: a line with the break that ends it, and then the breaks
of the blank lines up to the next line (`blockLines_lines`). The indicators in the header say how the
text starts and how it ends (`blockScalar_header`, `chomped_eq`).
-/

namespace MarketingForm.Yaml

open Block (pad endLine)

/-! ## Lines -/

/-- The line feed behind a text that does not end in a break. -/
def closing (s : List Char) : List Char := if s.getLast?.any isBreak then [] else ['\n']

theorem endLine_eq (s : List Char) : endLine s = s ++ closing s := by
  unfold endLine closing
  split <;> simp

theorem indentLines_line (indent : Nat) {w : List Char} (hw : ∀ c ∈ w, isBreak c = false)
    (t : List Char) : indentLines indent false (w ++ t) = w ++ indentLines indent false t := by
  induction w with
  | nil => rfl
  | cons c w ih =>
    rw [List.cons_append, indentLines, hw c List.mem_cons_self,
      ih fun d hd => hw d (List.mem_cons_of_mem c hd)]
    rfl

theorem indentLines_breaks (indent : Nat) {g : List Char} (hg : ∀ c ∈ g, isBreak c = true)
    (hne : g ≠ []) (fresh : Bool) (t : List Char) :
    indentLines indent fresh (g ++ t) = g ++ indentLines indent true t := by
  induction g generalizing fresh with
  | nil => exact absurd rfl hne
  | cons c g ih =>
    rw [List.cons_append, indentLines, if_pos (hg c List.mem_cons_self)]
    cases g with
    | nil => rfl
    | cons d g =>
      rw [ih (fun e he => hg e (List.mem_cons_of_mem c he)) (List.cons_ne_nil d g)]
      rfl

theorem indentLines_fresh (indent : Nat) {t : List Char} (hne : t ≠ [])
    (ht : ∀ c ∈ t.head?, isBreak c = false) :
    indentLines indent true t = pad indent ++ indentLines indent false t := by
  cases t with
  | nil => exact absurd rfl hne
  | cons c t =>
    rw [indentLines, indentLines, ht c rfl]
    rfl

theorem head?_indentLines (indent : Nat) {t : List Char} (hne : t ≠ [])
    (ht : ∀ c ∈ t.head?, isBreak c = false) (x : List Char) :
    (indentLines indent false t ++ x).head? = t.head? := by
  obtain ⟨c, t, rfl⟩ := List.exists_cons_of_ne_nil hne
  rw [indentLines, ht c rfl]
  rfl

/-! ## Blank lines -/

theorem blankLines_break (indent : Nat) (breaks : List Char) (deepest : Nat) (m : Mark) {b : Char}
    (hb : IsSoftBreak b) (t : List Char) (fuel : Nat) :
    ∃ d, blankLines (some indent) breaks deepest ⟨m, b :: t⟩ (fuel + 1) =
      blankLines (some indent) (breaks ++ [b]) d ⟨m.nextLine 1, t⟩ fuel := by
  have hspace : (b == ' ') = false := by
    rcases hb with rfl | rfl | rfl <;> decide
  have htab : (b == '\t') = false := by
    rcases hb with rfl | rfl | rfl <;> decide
  refine ⟨max deepest m.column, ?_⟩
  rw [blankLines]
  simp only [List.takeWhile_cons, hspace, Bool.false_eq_true, ↓reduceIte, List.length_nil,
    Nat.zero_min, Cursor.skip, Mark.advance_zero, List.drop_zero, htab, Bool.and_false, hb.isBreak,
    Cursor.readBreak_of_isSoftBreak hb]

theorem takeWhile_pad (j : Nat) (y : List Char) :
    ((pad j ++ y).takeWhile (· == ' ')).length = j + (y.takeWhile (· == ' ')).length := by
  unfold pad
  rw [List.takeWhile_append_of_pos fun c hc => by rw [List.eq_of_mem_replicate hc]; rfl]
  simp

theorem Cursor.skip_pad (m : Mark) (j : Nat) (y : List Char) :
    Cursor.skip ⟨m, pad j ++ y⟩ j = ⟨m.advance j, y⟩ := by
  have := Cursor.skip_append m (pad j) y
  rwa [pad, List.length_replicate] at this

/-- Blank lines end at a line with the indentation that is given, and where the text is indented
less. -/
theorem blankLines_end (indent : Nat) (breaks : List Char) (deepest : Nat) {m : Mark}
    (hm : m.column = 0) {j : Nat} {y : List Char} (hj : j = indent ∨ j ≤ indent ∧ Solid y)
    (hy : ∀ c ∈ y.head?, isBreak c = false) (fuel : Nat) :
    ∃ d, blankLines (some indent) breaks deepest ⟨m, pad j ++ y⟩ (fuel + 1) =
      some ⟨breaks, d, ⟨m.advance j, y⟩⟩ := by
  have hskip : min ((pad j ++ y).takeWhile (· == ' ')).length (indent - m.column) = j := by
    rw [takeWhile_pad, hm, Nat.sub_zero]
    rcases hj with rfl | ⟨hle, hsolid⟩
    · omega
    · have hnone : y.takeWhile (· == ' ') = [] := by
        cases y with
        | nil => rfl
        | cons c y =>
          have hgap := (hsolid c rfl).1
          have hc : (c == ' ') = false := by
            rw [isGap, Bool.or_eq_false_iff] at hgap
            exact hgap.1
          simp [hc]
      rw [hnone, List.length_nil]
      omega
  refine ⟨max deepest (m.advance j).column, ?_⟩
  rw [blankLines]
  simp only [hskip, Cursor.skip_pad]
  cases y with
  | nil => rfl
  | cons c y =>
    have htab : (Option.all (fun n => decide ((m.advance j).column < n)) (some indent) &&
        c == '\t') = false := by
      rcases hj with rfl | ⟨-, hsolid⟩
      · have hcolumn : ¬ (m.advance j).column < j := by simp [Mark.advance]
        simp [hcolumn]
      · have hgap := (hsolid c rfl).1
        rw [isGap, Bool.or_eq_false_iff] at hgap
        rw [hgap.2, Bool.and_false]
    simp only [htab, Bool.false_eq_true, ↓reduceIte, hy c rfl]

theorem blankLines_breaks (indent : Nat) (breaks : List Char) (deepest : Nat) {m : Mark}
    (hm : m.column = 0) {g : List Char} (hg : ∀ c ∈ g, IsSoftBreak c) {j : Nat} {y : List Char}
    (hj : j = indent ∨ j ≤ indent ∧ Solid y) (hy : ∀ c ∈ y.head?, isBreak c = false) (fuel : Nat)
    (hfuel : g.length < fuel) :
    ∃ d m', blankLines (some indent) breaks deepest ⟨m, g ++ (pad j ++ y)⟩ fuel =
      some ⟨breaks ++ g, d, ⟨m', y⟩⟩ ∧ m'.column = j ∧ m.line ≤ m'.line := by
  induction g generalizing breaks deepest m fuel with
  | nil =>
    obtain ⟨fuel, rfl⟩ : ∃ n, fuel = n + 1 := ⟨fuel - 1, by omega⟩
    obtain ⟨d, hend⟩ := blankLines_end indent breaks deepest hm hj hy fuel
    exact ⟨d, m.advance j, by rw [List.append_nil]; exact hend, by simp [Mark.advance, hm],
      Nat.le_refl _⟩
  | cons b g ih =>
    obtain ⟨fuel, rfl⟩ : ∃ n, fuel = n + 1 := ⟨fuel - 1, by omega⟩
    obtain ⟨d, hbreak⟩ := blankLines_break indent breaks deepest m (hg b List.mem_cons_self)
      (g ++ (pad j ++ y)) fuel
    obtain ⟨d', m', hrest, hcolumn, hline⟩ := ih (breaks ++ [b]) d (m := m.nextLine 1) rfl
      (fun c hc => hg c (List.mem_cons_of_mem b hc)) fuel (by simpa using hfuel)
    refine ⟨d', m', ?_, hcolumn, Nat.le_trans (Nat.le_succ _) hline⟩
    rw [List.cons_append, hbreak, hrest]
    simp

/-- Without a given indentation the first line gives it. -/
theorem blankLines_first {m : Mark} (hm : m.column = 0) {j : Nat} {y : List Char} (hne : y ≠ [])
    (hy : Solid y) (fuel : Nat) :
    blankLines none [] 0 ⟨m, pad j ++ y⟩ (fuel + 1) = some ⟨[], j, ⟨m.advance j, y⟩⟩ := by
  obtain ⟨c, y, rfl⟩ := List.exists_cons_of_ne_nil hne
  obtain ⟨hgap, hbreak⟩ := hy c rfl
  rw [isGap, Bool.or_eq_false_iff] at hgap
  have hskip : ((pad j ++ c :: y).takeWhile (· == ' ')).length = j := by
    rw [takeWhile_pad]
    simp [hgap.1]
  rw [blankLines]
  simp only [hskip, Cursor.skip_pad, hgap.2, Bool.and_false, Bool.false_eq_true, ↓reduceIte, hbreak]
  simp [Mark.advance, hm]

/-! ## The text of the lines -/

/-- A text ends in a row of breaks behind a character that is none. -/
structure EndsIn (s body breaks : List Char) : Prop where
  text : s = body ++ breaks
  breaks : ∀ c ∈ breaks, isBreak c = true
  last : ∃ x d, body = x ++ [d] ∧ isBreak d = false

theorem endsIn_line {w breaks : List Char} (hne : w ≠ []) (hw : ∀ c ∈ w, isBreak c = false)
    (hbreaks : ∀ c ∈ breaks, isBreak c = true) : EndsIn (w ++ breaks) w breaks := by
  obtain ⟨x, d, rfl⟩ := exists_concat hne
  exact ⟨rfl, hbreaks, x, d, rfl, hw d (by simp)⟩

theorem EndsIn.append {s body breaks : List Char} (h : EndsIn s body breaks) (a : List Char) :
    EndsIn (a ++ s) (a ++ body) breaks := by
  obtain ⟨x, d, rfl, hd⟩ := h.last
  exact ⟨by rw [List.append_assoc a, ← h.text], h.breaks, a ++ x, d, by simp, hd⟩

/-- The lines of a text have been read: the breaks at its end are kept apart, and the last line has
been ended in any case. -/
structure HasRead (b : BlockLines) (before body breaks : List Char) : Prop where
  text : b.text = before ++ body
  ended : b.leading ++ b.trailing = if breaks = [] then ['\n'] else breaks
  leading : b.leading.length = 1

theorem blockLines_step {indent : Nat} (b : BlockLines) {m : Mark} (hm : m.column = indent)
    {w : List Char} (hw : ∀ c ∈ w, isBreak c = false) {first : Char} (hfirst : IsSoftBreak first)
    {g : List Char} (hg : ∀ c ∈ g, IsSoftBreak c) {j : Nat} {y : List Char}
    (hj : j = indent ∨ j ≤ indent ∧ Solid y) (hy : ∀ c ∈ y.head?, isBreak c = false) (fuel : Nat) :
    ∃ m' indented, blockLines true indent b ⟨m, w ++ first :: (g ++ (pad j ++ y))⟩ (fuel + 1) =
        blockLines true indent
          ⟨b.text ++ b.leading ++ b.trailing ++ w, [first], g, indented⟩ ⟨m', y⟩ fuel ∧
      m'.column = j ∧ m.line < m'.line := by
  obtain ⟨d, m', hblank, hcolumn, hline⟩ := blankLines_breaks indent [] 0
    (m := (m.advance w.length).nextLine 1) rfl hg hj hy ((g ++ (pad j ++ y)).length + 1)
    (by rw [List.length_append]; omega)
  have hspan : Cursor.span ⟨m, w ++ first :: (g ++ (pad j ++ y))⟩ (fun d => !isBreak d) =
      (w, ⟨m.advance w.length, first :: (g ++ (pad j ++ y))⟩) := by
    refine Cursor.span_append (fun c hc => by rw [hw c hc]; rfl) (fun c hc => ?_) m
    cases hc
    rw [hfirst.isBreak]
    rfl
  have hgo : ¬ (m.column ≠ indent ∨ (w ++ first :: (g ++ (pad j ++ y))).isEmpty = true) := by
    simp [hm]
  refine ⟨m', (w ++ first :: (g ++ (pad j ++ y))).head?.any isGap, ?_, hcolumn, hline⟩
  rw [blockLines, if_neg hgo]
  simp only [hspan, Cursor.readBreak_of_isSoftBreak hfirst, hblank, List.nil_append]
  rfl

theorem blockLines_stop {indent : Nat} (b : BlockLines) {c : Cursor} (hc : c.mark.column < indent)
    (fuel : Nat) : blockLines true indent b c fuel = some (b, c) := by
  cases fuel with
  | zero => rfl
  | succ fuel => rw [blockLines, if_pos (.inl (Nat.ne_of_lt hc))]

theorem closing_append {a b : List Char} (hb : b ≠ []) : closing (a ++ b) = closing b := by
  obtain ⟨b, c, rfl⟩ := exists_concat hb
  simp [closing, ← List.append_assoc]

theorem closing_of_breaks {g : List Char} (hg : ∀ c ∈ g, isBreak c = true) (hne : g ≠ []) :
    closing g = [] := by
  obtain ⟨g, c, rfl⟩ := exists_concat hne
  simp [closing, hg c (by simp)]

theorem closing_of_line {w : List Char} (hw : ∀ c ∈ w, isBreak c = false) : closing w = ['\n'] := by
  by_cases hne : w = []
  · subst hne
    rfl
  · obtain ⟨w, c, rfl⟩ := exists_concat hne
    simp [closing, hw c (by simp)]

/-- The last line is read with the blank lines behind it, up to where the text is indented less. -/
theorem blockLines_last {indent column : Nat} (hcolumn : column < indent) {w g r : List Char}
    (hw : ∀ c ∈ w, isBreak c = false) (hg : ∀ c ∈ g, IsSoftBreak c) (hr : Solid r) (b : BlockLines)
    {m : Mark} (hm : m.column = indent) (fuel : Nat) :
    ∃ b' m', HasRead b' (b.text ++ b.leading ++ b.trailing) w g ∧
      blockLines true indent b ⟨m, w ++ ((if g = [] then ['\n'] else g) ++ (pad column ++ r))⟩
        (fuel + 1) = some (b', ⟨m', r⟩) ∧ m'.column = column ∧ m.line < m'.line := by
  obtain ⟨first, rest, hfirst, hrest, hbreaks⟩ : ∃ first rest, IsSoftBreak first ∧
      (∀ c ∈ rest, IsSoftBreak c) ∧ (if g = [] then ['\n'] else g) = first :: rest := by
    cases g with
    | nil => exact ⟨'\n', [], .inl rfl, nofun, rfl⟩
    | cons c g =>
      exact ⟨c, g, hg c List.mem_cons_self, fun d hd => hg d (List.mem_cons_of_mem c hd), rfl⟩
  obtain ⟨m', indented, hstep, hcolumn', hline⟩ := blockLines_step b hm hw hfirst hrest
    (.inr ⟨Nat.le_of_lt hcolumn, hr⟩) (fun c hc => (hr c hc).2) fuel
  refine ⟨⟨b.text ++ b.leading ++ b.trailing ++ w, [first], rest, indented⟩, m',
    ⟨rfl, hbreaks.symm, rfl⟩, ?_, hcolumn', hline⟩
  rw [hbreaks, List.cons_append, hstep, blockLines_stop _ (by rwa [hcolumn'])]

/-- How the last line of a text is written. -/
theorem indentLines_last (indent : Nat) {w g : List Char} (hw : ∀ c ∈ w, isBreak c = false)
    (hg : ∀ c ∈ g, isBreak c = true) (t : List Char) :
    indentLines indent false (w ++ g) ++ (closing (w ++ g) ++ t) =
      w ++ ((if g = [] then ['\n'] else g) ++ t) := by
  rw [indentLines_line indent hw]
  by_cases hne : g = []
  · subst hne
    rw [if_pos rfl, List.append_nil, closing_of_line hw, indentLines, List.append_nil]
  · have hbreaks := indentLines_breaks indent hg hne false []
    rw [List.append_nil, indentLines, List.append_nil] at hbreaks
    rw [if_neg hne, hbreaks, closing_append hne, closing_of_breaks hg hne, List.nil_append,
      List.append_assoc]

/-- The lines of a text are read up to where the text is indented less. -/
theorem blockLines_lines {indent column : Nat} (hcolumn : column < indent) {s r : List Char}
    (hs : ∀ c ∈ s, isPrintable c = true) (hne : s ≠ []) (hhead : ∀ c ∈ s.head?, isBreak c = false)
    (hr : Solid r) (b : BlockLines) {m : Mark} (hm : m.column = indent) (fuel : Nat)
    (hfuel : s.length < fuel) :
    ∃ b' m' body breaks, EndsIn s body breaks ∧
      HasRead b' (b.text ++ b.leading ++ b.trailing) body breaks ∧
      blockLines true indent b ⟨m, indentLines indent false s ++ (closing s ++ (pad column ++ r))⟩
        fuel = some (b', ⟨m', r⟩) ∧ m'.column = column ∧ m.line < m'.line := by
  induction s using words_induction isBreak generalizing b m fuel with
  | last w hw =>
    obtain ⟨fuel, rfl⟩ : ∃ n, fuel = n + 1 := ⟨fuel - 1, by omega⟩
    obtain ⟨b', m', hread, hlast, hplace⟩ := blockLines_last hcolumn hw (g := []) nofun hr b hm fuel
    have hends : EndsIn (w ++ []) w [] := endsIn_line hne hw nofun
    have hlines := indentLines_last indent hw (g := []) nofun (pad column ++ r)
    rw [List.append_nil] at hends hlines
    refine ⟨b', m', w, [], hends, hread, ?_, hplace⟩
    rw [hlines]
    exact hlast
  | more w g s hw hgne hg hshead ih =>
    obtain ⟨fuel, rfl⟩ : ∃ n, fuel = n + 1 := ⟨fuel - 1, by omega⟩
    have hwne : w ≠ [] := by
      rintro rfl
      obtain ⟨c, g, rfl⟩ := List.exists_cons_of_ne_nil hgne
      have := hhead c rfl
      rw [hg c List.mem_cons_self] at this
      cases this
    have hsoft : ∀ c ∈ g, IsSoftBreak c := fun c hc =>
      isSoftBreak_of_isPrintable (hs c (by simp [hc])) (hg c hc)
    by_cases hsne : s = []
    · subst hsne
      obtain ⟨b', m', hread, hlast, hplace⟩ := blockLines_last hcolumn hw hsoft hr b hm fuel
      rw [List.append_nil, indentLines_last indent hw hg]
      exact ⟨b', m', w, g, endsIn_line hwne hw hg, hread, hlast, hplace⟩
    · have hlines : indentLines indent false (w ++ g ++ s) =
          w ++ (g ++ indentLines indent true s) := by
        rw [List.append_assoc, indentLines_line indent hw, indentLines_breaks indent hg hgne]
      obtain ⟨first, g, rfl⟩ := List.exists_cons_of_ne_nil hgne
      have hnext : ∀ c ∈ (indentLines indent false s ++ (closing s ++ (pad column ++ r))).head?,
          isBreak c = false := by
        rw [head?_indentLines indent hsne hshead]
        exact hshead
      obtain ⟨m₁, indented, hstep, hcolumn₁, hline₁⟩ := blockLines_step b hm hw
        (hsoft first List.mem_cons_self) (fun c hc => hsoft c (List.mem_cons_of_mem first hc))
        (.inl rfl) hnext fuel
      obtain ⟨b', m', body, breaks, hends, hread, hrest, hcolumn', hline⟩ := ih
        (fun c hc => hs c (List.mem_append_right _ hc)) hsne hshead
        ⟨b.text ++ b.leading ++ b.trailing ++ w, [first], g, indented⟩ hcolumn₁ fuel (by
          simp only [List.length_append, List.length_cons] at hfuel
          omega)
      refine ⟨b', m', w ++ first :: g ++ body, breaks, hends.append _,
        ⟨?_, hread.ended, hread.leading⟩, ?_, hcolumn', Nat.lt_trans hline₁ hline⟩
      · rw [hread.text]
        simp
      · rw [hlines, closing_append hsne, indentLines_fresh indent hsne hshead]
        simp only [List.append_assoc, List.cons_append] at hstep hrest ⊢
        rw [hstep, hrest]

/-! ## Headers -/

/-- What becomes of the breaks at the end of a text. -/
def chompOf (s : List Char) : Chomp :=
  match s.reverse with
  | [] => .strip
  | [c] => if isBreak c then .keep else .strip
  | c :: d :: _ => if !isBreak c then .strip else if isBreak d then .keep else .clip

/-- Whether the indentation of a text is written down. -/
def isHinted (s : List Char) : Bool := s.head?.any fun c => isSpace c || isBreak c

/-- The sign that a header gives. -/
def Chomp.sign : Chomp → List Char
  | strip => ['-']
  | clip => []
  | keep => ['+']

theorem literalHeader_eq (s : List Char) :
    literalHeader s = '|' :: ((if isHinted s then ['2'] else []) ++ (chompOf s).sign) := by
  have hsign : (match s.reverse with
      | [] => ['-']
      | [c] => if isBreak c then ['+'] else ['-']
      | c :: d :: _ => if !isBreak c then ['-'] else if isBreak d then ['+'] else []) =
      (chompOf s).sign := by
    unfold chompOf
    split
    · rfl
    · split <;> rfl
    · split
      · rfl
      · split <;> rfl
  exact congrArg (('|' :: if isHinted s then ['2'] else []) ++ ·) hsign

theorem readHeader_sign (hinted : Bool) (chomp : Chomp) (m : Mark) (t : List Char) :
    readHeader ⟨m, (if hinted then ['2'] else []) ++ chomp.sign ++ '\n' :: t⟩ =
      some (⟨chomp, if hinted then 2 else 0⟩,
        ⟨m.advance ((if hinted then 1 else 0) + chomp.sign.length), '\n' :: t⟩) := by
  cases hinted <;> cases chomp <;> rfl

theorem skipLineEnd_feed (m : Mark) (t : List Char) :
    Cursor.skipLineEnd ⟨m, '\n' :: t⟩ = some ⟨m.nextLine 1, t⟩ := rfl

theorem chompOf_of_endsIn {s body breaks : List Char} (h : EndsIn s body breaks) :
    chompOf s = if breaks = [] then .strip else if breaks.length = 1 then .clip else .keep := by
  obtain ⟨rfl, hbreaks, x, d, rfl, hd⟩ := h
  by_cases hne : breaks = []
  · subst hne
    unfold chompOf
    simp only [List.append_nil, List.reverse_append, List.reverse_singleton, List.singleton_append,
      ↓reduceIte]
    cases x.reverse <;> simp [hd]
  · obtain ⟨g, c, rfl⟩ := exists_concat hne
    have hc : isBreak c = true := hbreaks c (by simp)
    unfold chompOf
    by_cases hg : g = []
    · subst hg
      simp [hc, hd]
    · obtain ⟨g, e, rfl⟩ := exists_concat hg
      have he : isBreak e = true := hbreaks e (by simp)
      simp [hc, he]

theorem chompOf_of_breaks {s : List Char} (hne : s ≠ []) (h : ∀ c ∈ s, isBreak c = true) :
    chompOf s = .keep := by
  obtain ⟨g, c, rfl⟩ := exists_concat hne
  have hc : isBreak c = true := h c (by simp)
  unfold chompOf
  by_cases hg : g = []
  · subst hg
    simp [hc]
  · obtain ⟨g, e, rfl⟩ := exists_concat hg
    have he : isBreak e = true := h e (by simp)
    simp [hc, he]

/-- The text that is left of the lines. -/
def chomped (chomp : Chomp) (b : BlockLines) : List Char :=
  match chomp with
  | .strip => b.text
  | .clip => b.text ++ b.leading
  | .keep => b.text ++ b.leading ++ b.trailing

theorem chomped_eq {b : BlockLines} {s before body breaks : List Char} (hs : EndsIn s body breaks)
    (hb : HasRead b before body breaks) : chomped (chompOf s) b = before ++ s := by
  rw [chompOf_of_endsIn hs, hs.text]
  have hended := hb.ended
  by_cases hne : breaks = []
  · simp [hne, chomped, hb.text]
  · rw [if_neg hne] at hended ⊢
    by_cases hone : breaks.length = 1
    · have hlength := congrArg List.length hended
      rw [List.length_append, hb.leading, hone] at hlength
      have htrailing : b.trailing = [] := List.eq_nil_of_length_eq_zero (by omega)
      rw [htrailing, List.append_nil] at hended
      simp [hone, chomped, hb.text, hended]
    · simp [hone, chomped, hb.text, hended]

/-! ## Texts -/

theorem blockScalar_header (parent : Nat) (s t : List Char) (m : Mark) :
    ∃ m', m'.column = 0 ∧ m.line < m'.line ∧
      blockScalar true parent ⟨m, literalHeader s ++ '\n' :: t⟩ =
        (blankLines (if isHinted s then some (parent + 2) else none) [] 0 ⟨m', t⟩
          (t.length + 1)).bind fun blank =>
            (blockLines true
              (if isHinted s then parent + 2 else max blank.deepest (max (parent + 1) 1))
              ⟨[], [], blank.breaks, false⟩ blank.cursor (blank.cursor.rest.length + 1)).map
                fun p => (chomped (chompOf s) p.1, p.2) := by
  have hheader := readHeader_sign (isHinted s) (chompOf s) (m.advance 1) t
  generalize hm' : (m.advance 1).advance ((if isHinted s then 1 else 0) + (chompOf s).sign.length) =
    m' at hheader
  refine ⟨m'.nextLine 1, rfl, ?_, ?_⟩
  · rw [← hm']
    exact Nat.lt_succ_self m.line
  · have hskip : Cursor.skip ⟨m, literalHeader s ++ '\n' :: t⟩ 1 =
        ⟨m.advance 1, (if isHinted s then ['2'] else []) ++ (chompOf s).sign ++ '\n' :: t⟩ := by
      rw [literalHeader_eq]
      rfl
    have hparent : ((parent : Int) + 1).toNat = parent + 1 := by omega
    unfold blockScalar
    rw [hskip, hheader]
    simp only [bind, Option.bind, skipLineEnd_feed, Int.natCast_nonneg, ↓reduceIte, Int.toNat_natCast,
      hparent]
    have htwo : (2 = 0) = False := by decide
    cases isHinted s with
    | true =>
      simp only [↓reduceIte, htwo, Option.getD_some]
      cases blankLines (some (parent + 2)) [] 0 ⟨m'.nextLine 1, t⟩ (t.length + 1) with
      | none => rfl
      | some blank =>
        simp only
        cases blockLines true (parent + 2) ⟨[], [], blank.breaks, false⟩ blank.cursor
          (blank.cursor.rest.length + 1) <;> rfl
    | false =>
      simp only [Bool.false_eq_true, ↓reduceIte, Option.getD_none]
      cases blankLines none [] 0 ⟨m'.nextLine 1, t⟩ (t.length + 1) with
      | none => rfl
      | some blank =>
        simp only
        cases blockLines true (max blank.deepest (max (parent + 1) 1))
          ⟨[], [], blank.breaks, false⟩ blank.cursor (blank.cursor.rest.length + 1) <;> rfl

/-- The breaks that a text starts with are blank lines before its first line. -/
theorem exists_firstLine (s : List Char) : ∃ g t, s = g ++ t ∧ (∀ c ∈ g, isBreak c = true) ∧
    ∀ c ∈ t.head?, isBreak c = false := by
  refine ⟨s.takeWhile isBreak, s.dropWhile isBreak, List.takeWhile_append_dropWhile.symm, ?_, ?_⟩
  · exact fun c hc => List.all_eq_true.1 List.all_takeWhile c hc
  · intro c hc
    have := List.head?_dropWhile_not isBreak s
    rw [hc] at this
    simpa using this

/-- The blank lines before the first line, and its indentation. -/
theorem blankLines_start (indent : Nat) {g t : List Char} (hs : ∀ c ∈ g ++ t, isPrintable c = true)
    (hg : ∀ c ∈ g, isBreak c = true) (hne : t ≠ []) (ht : ∀ c ∈ t.head?, isBreak c = false) {m : Mark}
    (hm : m.column = 0) (x : List Char) (fuel : Nat) (hfuel : g.length < fuel) :
    ∃ d m', blankLines (if isHinted (g ++ t) then some indent else none) [] 0
        ⟨m, g ++ (pad indent ++ (indentLines indent false t ++ x))⟩ fuel =
          some ⟨g, d, ⟨m', indentLines indent false t ++ x⟩⟩ ∧
      m'.column = indent ∧ m.line ≤ m'.line ∧ (isHinted (g ++ t) = false → d = indent) := by
  have hhead := head?_indentLines indent hne ht x
  cases hhint : isHinted (g ++ t) with
  | true =>
    obtain ⟨d, m', hblank, hcolumn, hline⟩ := blankLines_breaks indent [] 0 hm
      (fun c hc => isSoftBreak_of_isPrintable (hs c (List.mem_append_left t hc)) (hg c hc))
      (.inl rfl) (by rwa [hhead]) fuel hfuel
    exact ⟨d, m', hblank, hcolumn, hline, nofun⟩
  | false =>
    obtain rfl : g = [] := by
      cases g with
      | nil => rfl
      | cons c g => simp [isHinted, hg c List.mem_cons_self] at hhint
    have hsolid : Solid (indentLines indent false t ++ x) := by
      intro c hc
      rw [hhead] at hc
      refine ⟨?_, ht c hc⟩
      rw [Bool.eq_false_iff]
      intro hgap
      obtain rfl := eq_space_of_isPrintable (hs c (List.mem_of_head? hc)) hgap
      rw [isHinted, List.nil_append, Option.mem_def.1 hc] at hhint
      exact absurd hhint (by decide)
    have hne' : indentLines indent false t ++ x ≠ [] := by
      intro h
      rw [h] at hhead
      exact hne (List.head?_eq_none_iff.1 hhead.symm)
    obtain ⟨fuel, rfl⟩ : ∃ n, fuel = n + 1 := ⟨fuel - 1, by omega⟩
    exact ⟨indent, m.advance indent, blankLines_first hm hne' hsolid fuel,
      by simp [Mark.advance, hm], Nat.le_refl _, fun _ => rfl⟩

theorem length_le_indentLines (indent : Nat) (fresh : Bool) (s : List Char) :
    s.length ≤ (indentLines indent fresh s).length := by
  induction s generalizing fresh with
  | nil => exact Nat.le_refl _
  | cons c s ih =>
    have hfresh := ih true
    have hrest := ih false
    rw [indentLines]
    split <;> simp only [List.length_cons, List.length_append] <;> omega

/-- A literal scalar all of whose lines are blank. -/
theorem blockScalar_blank {parent column : Nat} (hcolumn : column ≤ parent) {s r : List Char}
    (hs : ∀ c ∈ s, isPrintable c = true) (hne : s ≠ []) (hbreaks : ∀ c ∈ s, isBreak c = true)
    (hr : Solid r) (m : Mark) :
    ∃ m', blockScalar true parent ⟨m, literalHeader s ++ '\n' :: (indentLines (parent + 2) true s ++
        (closing s ++ (pad column ++ r)))⟩ = some (s, ⟨m', r⟩) ∧
      m'.column = column ∧ m.line < m'.line := by
  obtain ⟨m₀, hm₀, hline₀, hblock⟩ := blockScalar_header parent s
    (indentLines (parent + 2) true s ++ (closing s ++ (pad column ++ r))) m
  have hlines : indentLines (parent + 2) true s = s := by
    have := indentLines_breaks (parent + 2) hbreaks hne true []
    rwa [List.append_nil, indentLines, List.append_nil] at this
  have hhint : isHinted s = true := by
    obtain ⟨c, s, rfl⟩ := List.exists_cons_of_ne_nil hne
    simp [isHinted, hbreaks c List.mem_cons_self]
  have hle : column ≤ parent + 2 := by omega
  obtain ⟨d, m', hblank, hcolumn', hline⟩ := blankLines_breaks (parent + 2) [] 0 hm₀
    (fun c hc => isSoftBreak_of_isPrintable (hs c hc) (hbreaks c hc)) (.inr ⟨hle, hr⟩)
    (fun c hc => (hr c hc).2) ((s ++ (pad column ++ r)).length + 1)
    (by rw [List.length_append]; omega)
  refine ⟨m', ?_, hcolumn', Nat.lt_of_lt_of_le hline₀ hline⟩
  rw [hblock, hlines, hhint, closing_of_breaks hbreaks hne, List.nil_append, if_pos rfl, hblank,
    Option.bind_some, if_pos rfl, blockLines_stop _ (by rw [hcolumn']; omega), Option.map_some,
    chompOf_of_breaks hne hbreaks]
  rfl

/-- A literal scalar with a line that is not blank, behind some that are. -/
theorem blockScalar_lines {parent column : Nat} (hcolumn : column ≤ parent) {g t r : List Char}
    (hs : ∀ c ∈ g ++ t, isPrintable c = true) (hg : ∀ c ∈ g, isBreak c = true) (hne : t ≠ [])
    (ht : ∀ c ∈ t.head?, isBreak c = false) (hr : Solid r) (m : Mark) :
    ∃ m', blockScalar true parent ⟨m, literalHeader (g ++ t) ++
        '\n' :: (indentLines (parent + 2) true (g ++ t) ++
          (closing (g ++ t) ++ (pad column ++ r)))⟩ = some (g ++ t, ⟨m', r⟩) ∧
      m'.column = column ∧ m.line < m'.line := by
  obtain ⟨m₀, hm₀, hline₀, hblock⟩ := blockScalar_header parent (g ++ t)
    (indentLines (parent + 2) true (g ++ t) ++ (closing (g ++ t) ++ (pad column ++ r))) m
  have hlines : indentLines (parent + 2) true (g ++ t) =
      g ++ (pad (parent + 2) ++ indentLines (parent + 2) false t) := by
    by_cases hgne : g = []
    · subst hgne
      exact indentLines_fresh (parent + 2) hne ht
    · rw [indentLines_breaks (parent + 2) hg hgne, indentLines_fresh (parent + 2) hne ht]
  have hwhole : indentLines (parent + 2) true (g ++ t) ++ (closing (g ++ t) ++ (pad column ++ r)) =
      g ++ (pad (parent + 2) ++
        (indentLines (parent + 2) false t ++ (closing t ++ (pad column ++ r)))) := by
    rw [hlines, closing_append hne, List.append_assoc, List.append_assoc]
  obtain ⟨d, m₁, hblank, hcolumn₁, hline₁, hd⟩ := blankLines_start (parent + 2) hs hg hne ht hm₀
    (closing t ++ (pad column ++ r)) ((g ++ (pad (parent + 2) ++
      (indentLines (parent + 2) false t ++ (closing t ++ (pad column ++ r))))).length + 1) (by
        rw [List.length_append]
        omega)
  have hindent : (if isHinted (g ++ t) then parent + 2 else max d (max (parent + 1) 1)) =
      parent + 2 := by
    split
    · rfl
    · rename_i hhint
      rw [hd (by simpa using hhint)]
      omega
  obtain ⟨b, m', body, breaks, hends, hread, hrest, hcolumn₂, hline₂⟩ := blockLines_lines
    (show column < parent + 2 by omega) (fun c hc => hs c (List.mem_append_right g hc)) hne ht hr
    ⟨[], [], g, false⟩ hcolumn₁
    ((indentLines (parent + 2) false t ++ (closing t ++ (pad column ++ r))).length + 1) (by
      have := length_le_indentLines (parent + 2) false t
      rw [List.length_append]
      omega)
  have hread' : HasRead b [] (g ++ body) breaks :=
    ⟨by rw [hread.text]; rfl, hread.ended, hread.leading⟩
  have htext : chomped (chompOf (g ++ t)) b = g ++ t := chomped_eq (hends.append g) hread'
  refine ⟨m', ?_, hcolumn₂, Nat.lt_of_lt_of_le hline₀ (Nat.le_trans hline₁ (Nat.le_of_lt hline₂))⟩
  rw [hblock, hwhole, hblank, Option.bind_some, hindent, hrest, Option.map_some, htext]

/-- A literal scalar is read back, up to where the text is indented less. -/
theorem blockScalar_literal {parent column : Nat} (hcolumn : column ≤ parent) {s r : List Char}
    (hs : ∀ c ∈ s, isPrintable c = true) (hne : s ≠ []) (hr : Solid r) (m : Mark) :
    ∃ m', blockScalar true parent ⟨m, literalHeader s ++ '\n' :: (indentLines (parent + 2) true s ++
        (closing s ++ (pad column ++ r)))⟩ = some (s, ⟨m', r⟩) ∧
      m'.column = column ∧ m.line < m'.line := by
  obtain ⟨g, t, rfl, hg, ht⟩ := exists_firstLine s
  by_cases htne : t = []
  · subst htne
    rw [List.append_nil] at hne hs ⊢
    exact blockScalar_blank hcolumn hs hne hg hr m
  · exact blockScalar_lines hcolumn hs hg htne ht hr m

end MarketingForm.Yaml
