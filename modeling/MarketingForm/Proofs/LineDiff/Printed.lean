import MarketingForm.Proofs.LineDiff.Hunks
import MarketingForm.Proofs.Text.Numeral

/-!
# Printed hunks are read back

A text prints lines of a patch (`Printed`) if it consists of them with their ends, the last line of a
file with its mark. Such a text is read back line by line: no line of a file can be taken for the head of
a hunk or for a mark, since a sign stands before it, and a carriage return at its end is not joined to
the next line, which begins with a sign too (`Printed.read`).
-/

namespace MarketingForm.LineDiff

/-! ## Lines -/

/-- Characters that may stand before the end of a line. -/
def IsBody (l : List Char) : Prop := ∀ c ∈ l, c ≠ '\n' ∧ c ≠ '\r'

/-- An end of a line in front of a text. -/
inductive Ends (rest : List Char) : List Char → Prop where
  | lf : Ends rest ['\n']
  | crlf : Ends rest ['\r', '\n']
  | cr (h : rest.head? ≠ some '\n') : Ends rest ['\r']

/-- A line of a text; the last one may have no end. -/
inductive IsLine : List Char → Prop where
  | ended {l e : List Char} (hl : IsBody l) (he : Ends [] e) : IsLine (l ++ e)
  | unended {l : List Char} (hl : IsBody l) : IsLine l

theorem IsBody.cons {c : Char} {l : List Char} (hc : c ≠ '\n' ∧ c ≠ '\r') (hl : IsBody l) :
    IsBody (c :: l) :=
  List.forall_mem_cons.2 ⟨hc, hl⟩

theorem IsBody.append {l m : List Char} (hl : IsBody l) (hm : IsBody m) : IsBody (l ++ m) :=
  List.forall_mem_append.2 ⟨hl, hm⟩

theorem lines_break {c : Char} {r : List Char} (hc : c = '\n' ∨ c = '\r')
    (hr : c = '\r' → r.head? ≠ some '\n') : lines (c :: r) = [c] :: lines r := by
  rw [lines.eq_def]
  split
  · rename_i h
    cases h
  · rename_i h
    obtain ⟨rfl, rfl⟩ := List.cons.inj h
    exact absurd rfl (hr rfl)
  · rename_i h
    obtain ⟨rfl, rfl⟩ := List.cons.inj h
    exact if_pos hc

theorem lines_char {c : Char} {r l : List Char} {ls : List (List Char)} (hc : c ≠ '\n' ∧ c ≠ '\r')
    (hr : lines r = l :: ls) : lines (c :: r) = (c :: l) :: ls := by
  rw [lines.eq_def]
  split
  · rename_i h
    cases h
  · rename_i h
    exact absurd (List.cons.inj h).1 hc.2
  · rename_i h
    obtain ⟨rfl, rfl⟩ := List.cons.inj h
    rw [if_neg (not_or.2 hc), hr]
    cases r with
    | nil => cases hr
    | cons d r => rfl

theorem isBody_of_all {l : List Char} (h : l.all (fun c => c != '\n' && c != '\r') = true) :
    IsBody l := by
  intro c hc
  have hboth := List.all_eq_true.1 h c hc
  rw [Bool.and_eq_true, bne_iff_ne, bne_iff_ne] at hboth
  exact hboth

/-- A line with an end is cut off a text. -/
theorem lines_of_ends {l e rest : List Char} (hl : IsBody l) (he : Ends rest e) :
    lines (l ++ (e ++ rest)) = (l ++ e) :: lines rest := by
  induction l with
  | nil =>
    cases he with
    | lf => exact lines_break (.inl rfl) (fun h => absurd h (by decide))
    | crlf => rfl
    | cr h => exact lines_break (.inr rfl) (fun _ => h)
  | cons c l ih =>
    obtain ⟨hc, hl⟩ := List.forall_mem_cons.1 hl
    exact lines_char hc (ih hl)

theorem isLine_of_mem_lines {s l : List Char} (hl : l ∈ lines s) : IsLine l := by
  have hnil : IsBody [] := List.forall_mem_nil _
  fun_induction lines s generalizing l with
  | case1 => cases hl
  | case2 r ih =>
    rcases List.mem_cons.1 hl with rfl | hl
    · exact .ended hnil .crlf
    · exact ih hl
  | case3 c r _ hc ih =>
    rcases List.mem_cons.1 hl with rfl | hl
    · rcases hc with rfl | rfl
      · exact .ended hnil .lf
      · exact .ended hnil (.cr (by simp))
    · exact ih hl
  | case4 c hend d r m ls _ hls ih =>
    rw [hls] at ih hl
    rcases List.mem_cons.1 hl with rfl | hl
    · cases ih List.mem_cons_self with
      | ended hbody he => exact .ended (hbody.cons (not_or.1 hend)) he
      | unended hbody => exact .unended (hbody.cons (not_or.1 hend))
    · exact ih (List.mem_cons_of_mem m hl)
  | case5 c r _ hend hnone ih =>
    cases r with
    | nil =>
      obtain rfl : l = [c] := List.mem_singleton.1 hl
      exact .unended (hnil.cons (not_or.1 hend))
    | cons d r =>
      have hflatten := flatten_lines (d :: r)
      cases hls : lines (d :: r) with
      | nil =>
        rw [hls] at hflatten
        cases hflatten
      | cons m ls => exact absurd hls (hnone d r m ls rfl)

/-! ## Printed lines -/

/-- A text prints lines of a patch. -/
inductive Printed : List Char → List PatchLine → Prop where
  | nil : Printed [] []
  | line {l e rest : List Char} {p : PatchLine} {ps : List PatchLine} (hl : IsBody l)
      (he : Ends rest e) (hread : PatchLine.read? (l ++ e) = some p) (hrest : Printed rest ps) :
      Printed (l ++ (e ++ rest)) (p :: ps)
  | marked {l rest : List Char} {p : PatchLine} {ps : List PatchLine} (hl : IsBody l)
      (hread : PatchLine.read? l = some p) (hrest : Printed rest ps) :
      Printed (l ++ (['\n'] ++ (noNewline ++ rest))) (p :: ps)

/-- A line that is read begins with a sign. -/
theorem sign_of_read {l : List Char} {p : PatchLine} (h : PatchLine.read? l = some p) :
    ∃ c r, l = c :: r ∧ c ≠ '\n' ∧ c ≠ '\r' ∧ c ≠ '\\' := by
  unfold PatchLine.read? at h
  split at h
  · exact ⟨'@', _, rfl, by decide⟩
  · exact ⟨' ', _, rfl, by decide⟩
  · exact ⟨'-', _, rfl, by decide⟩
  · exact ⟨'+', _, rfl, by decide⟩
  · cases h

theorem isBody_noNewline : IsBody noNewline.dropLast := isBody_of_all (by decide)

namespace Printed

variable {t : List Char} {ps : List PatchLine}

theorem head?_ne (h : Printed t ps) : t.head? ≠ some '\n' := by
  cases h with
  | nil => exact Option.some_ne_none _ ∘ Eq.symm
  | @line l e rest p ps hl he hread =>
    obtain ⟨c, r, hcr, hc, -⟩ := sign_of_read hread
    rw [← List.append_assoc, hcr]
    exact fun h => hc (Option.some.inj h)
  | marked hl hread =>
    obtain ⟨c, r, rfl, hc, -⟩ := sign_of_read hread
    exact fun h => hc (Option.some.inj h)

/-- What is printed first is no mark. -/
theorem head?_lines_ne (h : Printed t ps) : (lines t).head? ≠ some noNewline := by
  cases h with
  | nil => exact Option.some_ne_none _ ∘ Eq.symm
  | line hl he hread =>
    obtain ⟨c, r, hcr, -, -, hc⟩ := sign_of_read hread
    rw [lines_of_ends hl he, hcr]
    exact fun h => hc (List.cons.inj (Option.some.inj h)).1
  | marked hl hread =>
    obtain ⟨c, r, rfl, -, -, hc⟩ := sign_of_read hread
    rw [lines_of_ends hl .lf]
    exact fun h => hc (List.cons.inj (Option.some.inj h)).1

theorem joinMarked_cons {l : List Char} {ls : List (List Char)} (h : ls.head? ≠ some noNewline) :
    joinMarked (l :: ls) = l :: joinMarked ls := by
  cases ls with
  | nil => rfl
  | cons m r => exact if_neg fun hm => h (congrArg some hm)

/-- Printed lines are read back. -/
theorem read (h : Printed t ps) : (joinMarked (lines t)).mapM PatchLine.read? = some ps := by
  induction h with
  | nil => rfl
  | line hl he hread hrest ih =>
    rw [lines_of_ends hl he, joinMarked_cons hrest.head?_lines_ne, List.mapM_cons, hread, ih]
    rfl
  | @marked l rest p ps hl hread hrest ih =>
    have hmark : lines (noNewline ++ rest) = noNewline :: lines rest :=
      lines_of_ends isBody_noNewline .lf
    have hjoin : joinMarked ((l ++ ['\n']) :: noNewline :: lines rest) =
        l :: joinMarked (lines rest) := by
      rw [joinMarked, if_pos rfl, List.dropLast_concat]
    rw [lines_of_ends hl .lf, hmark, hjoin, List.mapM_cons, hread, ih]
    rfl

end Printed

/-! ## Entries -/

theorem sign_body (kind : RunKind) : kind.sign ≠ '\n' ∧ kind.sign ≠ '\r' := by
  cases kind <;> decide

theorem read?_sign (kind : RunKind) (l : List Char) :
    PatchLine.read? (kind.sign :: l) = some (.entry ⟨kind, l⟩) := by
  cases kind <;> rfl

theorem mark_eq : "\n\\ No newline at end of file\n".toList = '\n' :: noNewline := by decide

theorem isEnded_append {l e : List Char} (he : Ends [] e) : isEnded (l ++ e) = true := by
  cases he <;> simp [isEnded]

theorem not_isEnded {l : List Char} (hl : IsBody l) : isEnded l = false := by
  rcases List.eq_nil_or_concat l with rfl | ⟨m, c, rfl⟩
  · rfl
  · rw [List.concat_eq_append] at hl ⊢
    obtain ⟨hlf, hcr⟩ := hl c (List.mem_append_right _ (List.mem_singleton_self c))
    simp [isEnded, hlf, hcr]

/-- A line with its sign is printed. -/
theorem Printed.lineText {kind : RunKind} {l rest : List Char} {ps : List PatchLine} (hl : IsLine l)
    (hrest : Printed rest ps) :
    Printed (lineText kind.sign l ++ rest) (.entry ⟨kind, l⟩ :: ps) := by
  cases hl with
  | @ended l e hl he =>
    have htext : LineDiff.lineText kind.sign (l ++ e) ++ rest = (kind.sign :: l) ++ (e ++ rest) := by
      simp [LineDiff.lineText, isEnded_append he]
    have he' : Ends rest e := by
      cases he with
      | lf => exact .lf
      | crlf => exact .crlf
      | cr => exact .cr hrest.head?_ne
    rw [htext]
    exact .line (hl.cons (sign_body kind)) he' (read?_sign kind (l ++ e)) hrest
  | unended hl =>
    have htext : LineDiff.lineText kind.sign l ++ rest =
        (kind.sign :: l) ++ (['\n'] ++ (noNewline ++ rest)) := by
      simp [LineDiff.lineText, not_isEnded hl, mark_eq]
    rw [htext]
    exact .marked (hl.cons (sign_body kind)) (read?_sign kind l) hrest

theorem Printed.linesText (kind : RunKind) {ls : List (List Char)} {rest : List Char}
    {ps : List PatchLine} (hls : ∀ l ∈ ls, IsLine l) (hrest : Printed rest ps) :
    Printed (ls.flatMap (LineDiff.lineText kind.sign) ++ rest)
      ((ls.map fun l => ⟨kind, l⟩).map .entry ++ ps) := by
  induction ls with
  | nil => exact hrest
  | cons l ls ih =>
    obtain ⟨hl, hls⟩ := List.forall_mem_cons.1 hls
    rw [List.flatMap_cons, List.append_assoc]
    exact (ih hls).lineText hl

theorem Printed.changeText {c : Change} {rest : List Char} {ps : List PatchLine}
    (hold : ∀ l ∈ c.oldLines, IsLine l) (hnew : ∀ l ∈ c.newLines, IsLine l)
    (hrest : Printed rest ps) : Printed (c.text ++ rest) (c.entries.map .entry ++ ps) := by
  cases c with
  | kept xs => exact hrest.linesText .keep hold
  | removed xs n => exact hrest.linesText .remove hold
  | added xs n => exact hrest.linesText .add hnew
  | replaced ds as =>
    rw [Change.text, Change.entries, List.map_append, List.append_assoc, List.append_assoc]
    exact (hrest.linesText .add hnew).linesText .remove hold

/-! ## Heads -/

theorem isDigit_of_mem_numeral {n : Nat} {c : Char} (hc : c ∈ Text.numeral 10 n) :
    c.isDigit = true :=
  Text.forall_mem_numeral (by decide) (·.isDigit = true) (by decide) hc

theorem span_numeral (n : Nat) {t : List Char} (ht : ∀ c ∈ t.head?, c.isDigit = false) :
    (Text.numeral 10 n ++ t).takeWhile Char.isDigit = Text.numeral 10 n ∧
      (Text.numeral 10 n ++ t).dropWhile Char.isDigit = t := by
  have hdigits : ∀ c ∈ Text.numeral 10 n, c.isDigit = true := fun c hc => isDigit_of_mem_numeral hc
  rw [List.takeWhile_append_of_pos hdigits, List.dropWhile_append_of_pos hdigits]
  cases t with
  | nil => exact ⟨List.append_nil _, rfl⟩
  | cons c t =>
    have hc := ht c rfl
    rw [List.takeWhile_cons_of_neg (by simp [hc]), List.dropWhile_cons_of_neg (by simp [hc])]
    exact ⟨List.append_nil _, rfl⟩

section

variable {t : List Char} (ht : ∀ c ∈ t.head?, c ≠ ',' ∧ c.isDigit = false)
include ht

theorem readExtent?_single (n : Nat) :
    readExtent? (Text.numeral 10 n ++ t) = some (extentOf n 1, t) := by
  obtain ⟨htake, hdrop⟩ := span_numeral n fun c hc => (ht c hc).2
  rw [readExtent?, htake, hdrop, Text.readNumeral?_numeral]
  cases t with
  | nil => rfl
  | cons c t =>
    have hc : c ≠ ',' := (ht c rfl).1
    simp [hc]

theorem readExtent?_counted (n count : Nat) :
    readExtent? (Text.numeral 10 n ++ ',' :: (Text.numeral 10 count ++ t)) =
      some (extentOf n count, t) := by
  obtain ⟨htake, hdrop⟩ := span_numeral n (t := ',' :: (Text.numeral 10 count ++ t))
    fun c hc => by cases hc; decide
  obtain ⟨htake', hdrop'⟩ := span_numeral count fun c hc => (ht c hc).2
  rw [readExtent?, htake, hdrop, Text.readNumeral?_numeral]
  simp only [htake', hdrop', Text.readNumeral?_numeral, Option.bind_some, Option.map_some]

/-- The printed range of some lines is read as them. -/
theorem readExtent?_text (r : LineRange) : readExtent? (r.text ++ t) = some (r.extent, t) := by
  unfold LineRange.text LineRange.extent
  simp only []
  split
  · rename_i hsingle
    rw [readExtent?_single ht, hsingle]
    rfl
  · split
    · rename_i hempty
      have hzero : Text.numeral 10 0 = ['0'] := Text.numeral_of_lt (by decide)
      have hread := readExtent?_counted ht r.start 0
      rw [hzero] at hread
      rw [List.append_assoc, hempty]
      exact hread
    · rename_i hmany
      rw [List.append_assoc, List.cons_append, readExtent?_counted ht, extentOf, if_neg hmany,
        Nat.add_sub_cancel]

end

theorem isBody_numeral (n : Nat) : IsBody (Text.numeral 10 n) := by
  intro c hc
  have hdigit := isDigit_of_mem_numeral hc
  constructor
  · rintro rfl
    cases hdigit
  · rintro rfl
    cases hdigit

theorem isBody_text (r : LineRange) : IsBody r.text := by
  have hcomma : ',' ≠ '\n' ∧ ',' ≠ '\r' := by decide
  have hempty : IsBody [',', '0'] := isBody_of_all (by decide)
  unfold LineRange.text
  simp only []
  split
  · exact isBody_numeral _
  · split
    · exact (isBody_numeral _).append hempty
    · exact (isBody_numeral _).append ((isBody_numeral _).cons hcomma)

/-- The head of a hunk without its end. -/
def headText (old new : LineRange) : List Char :=
  "@@ -".toList ++ (old.text ++ (" +".toList ++ (new.text ++ " @@".toList)))

theorem isBody_headText (old new : LineRange) : IsBody (headText old new) := by
  have hstart : IsBody "@@ -".toList := isBody_of_all (by decide)
  have hmiddle : IsBody " +".toList := isBody_of_all (by decide)
  have hstop : IsBody " @@".toList := isBody_of_all (by decide)
  exact hstart.append ((isBody_text old).append (hmiddle.append ((isBody_text new).append hstop)))

theorem read?_headText (old new : LineRange) :
    PatchLine.read? (headText old new ++ ['\n']) = some (.head old.extent new.extent) := by
  have hold := readExtent?_text (t := ' ' :: '+' :: (new.text ++ " @@\n".toList))
    (fun c hc => by cases hc; decide) old
  have hnew := readExtent?_text (t := " @@\n".toList) (fun c hc => by cases hc; decide) new
  have htext : headText old new ++ ['\n'] =
      '@' :: '@' :: ' ' :: '-' :: (old.text ++ ' ' :: '+' :: (new.text ++ " @@\n".toList)) := by
    simp [headText]
  rw [htext, PatchLine.read?, readHead?, hold]
  simp only [Option.bind_some, hnew, ↓reduceIte]

/-! ## Hunks -/

theorem Printed.entriesText {h : Hunk} {rest : List Char} {ps : List PatchLine}
    (hold : ∀ l ∈ h.oldLines, IsLine l) (hnew : ∀ l ∈ h.newLines, IsLine l)
    (hrest : Printed rest ps) :
    Printed ((h.flatMap fun p => p.change.text) ++ rest) (h.entries.map .entry ++ ps) := by
  induction h with
  | nil => exact hrest
  | cons p h ih =>
    obtain ⟨hpold, hold⟩ := List.forall_mem_append.1 hold
    obtain ⟨hpnew, hnew⟩ := List.forall_mem_append.1 hnew
    rw [List.flatMap_cons, List.append_assoc, Hunk.entries, List.flatMap_cons, List.map_append,
      List.append_assoc]
    exact (ih hold hnew).changeText hpold hpnew

theorem Printed.hunkText {h : Hunk} {c : Piece} (hshows : Shows h c) {rest : List Char}
    {ps : List PatchLine} (hold : ∀ l ∈ c.oldLines, IsLine l) (hnew : ∀ l ∈ c.newLines, IsLine l)
    (hrest : Printed rest ps) : Printed (hunkText h ++ rest) (c.shown ++ ps) := by
  obtain ⟨hentries, first, hfirst, last, hlast, ha, hb⟩ := hshows
  have htext : LineDiff.hunkText h ++ rest =
      headText (first.oldRange.upTo last.oldRange) (first.newRange.upTo last.newRange) ++
        (['\n'] ++ ((h.flatMap fun p => p.change.text) ++ rest)) := by
    rw [LineDiff.hunkText, Option.mem_def.1 hfirst, Option.mem_def.1 hlast]
    simp [headText]
  have hheldOld : ∀ l ∈ h.oldLines, IsLine l := by
    rw [← h.oldLines_entries, ← hentries]
    exact fun l hl => hold l (List.mem_append_right c.gap hl)
  have hheldNew : ∀ l ∈ h.newLines, IsLine l := by
    rw [← h.newLines_entries, ← hentries]
    exact fun l hl => hnew l (List.mem_append_right c.gap hl)
  rw [htext, Piece.shown, hentries, ha, hb]
  exact .line (isBody_headText _ _) .lf (read?_headText _ _) (hrest.entriesText hheldOld hheldNew)

/-- Hunks print the lines of the pieces that show them. -/
theorem printed_hunks {hs : List Hunk} {cs : List Piece} (hshows : List.Forall₂ Shows hs cs)
    (hold : ∀ l ∈ oldSides cs, IsLine l) (hnew : ∀ l ∈ newSides cs, IsLine l) :
    Printed (hs.flatMap hunkText) (shownLines cs) := by
  induction hshows with
  | nil => exact .nil
  | cons hc _ ih =>
    obtain ⟨hcold, hold⟩ := List.forall_mem_append.1 hold
    obtain ⟨hcnew, hnew⟩ := List.forall_mem_append.1 hnew
    rw [List.flatMap_cons, shownLines, List.flatMap_cons]
    exact (ih hold hnew).hunkText hc hcold hcnew

end MarketingForm.LineDiff
