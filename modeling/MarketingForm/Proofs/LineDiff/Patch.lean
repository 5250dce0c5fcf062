import MarketingForm.Proofs.LineDiff.Unified

/-!
# Patches

A unified diff is read line by line (`readPatch?`) and carried out on a text (`applyPatch`), forwards or
backwards (`revertPatch`). The heads of its hunks are taken at their word: a hunk covers as many lines of
both texts as its head says and stands where its head says, and the kept and removed lines must be those
of the text.

A patch that is made of pieces, each of them a hunk behind lines that it does not show, does what the
pieces say if all its heads are right, and is refused if one is not (`patch_pieces`).
-/

namespace MarketingForm.LineDiff

/-! ## Lines of a patch -/

/-- Neighbouring lines of a text: how many come before them, and how many they are. -/
structure Extent where
  before : Nat
  count : Nat
deriving DecidableEq

/-- A line of a text and what a hunk does with it. -/
structure Entry where
  kind : RunKind
  line : List Char
deriving DecidableEq

/-- The line in the old text. -/
def Entry.oldLines (e : Entry) : List (List Char) := if e.kind = .add then [] else [e.line]

/-- The line in the new text. -/
def Entry.newLines (e : Entry) : List (List Char) := if e.kind = .remove then [] else [e.line]

/-- A line of a patch: the head of a hunk, with the lines that it covers in both texts, or a line of a
hunk. -/
inductive PatchLine where
  | head (old new : Extent)
  | entry (e : Entry)
deriving DecidableEq

def RunKind.sign : RunKind → Char
  | .keep => ' '
  | .remove => '-'
  | .add => '+'

def noNewline : List Char := "\\ No newline at end of file\n".toList

/-- Takes the line feed off each line that is marked as one without an end. -/
def joinMarked : List (List Char) → List (List Char)
  | l :: m :: r => if m = noNewline then l.dropLast :: joinMarked r else l :: joinMarked (m :: r)
  | ls => ls

/-- The lines that the head of a hunk gives by a number and a count. -/
def extentOf (n count : Nat) : Extent := if count = 0 then ⟨n, 0⟩ else ⟨n - 1, count⟩

/-- Reads a number and a count; a single line has no count. -/
def readExtent? (s : List Char) : Option (Extent × List Char) :=
  (Text.readNumeral? 10 (s.takeWhile Char.isDigit)).bind fun n =>
    match s.dropWhile Char.isDigit with
    | ',' :: r =>
      (Text.readNumeral? 10 (r.takeWhile Char.isDigit)).map fun count =>
        (extentOf n count, r.dropWhile Char.isDigit)
    | r => some (extentOf n 1, r)

/-- Reads the head of a hunk behind its first sign. -/
def readHead? (s : List Char) : Option PatchLine :=
  match s with
  | '@' :: ' ' :: '-' :: r =>
    (readExtent? r).bind fun (old, r) =>
      match r with
      | ' ' :: '+' :: r =>
        (readExtent? r).bind fun (new, r) => if r = " @@\n".toList then some (.head old new) else none
      | _ => none
  | _ => none

/-- Reads a line of a patch. -/
def PatchLine.read? : List Char → Option PatchLine
  | '@' :: r => readHead? r
  | ' ' :: l => some (.entry ⟨.keep, l⟩)
  | '-' :: l => some (.entry ⟨.remove, l⟩)
  | '+' :: l => some (.entry ⟨.add, l⟩)
  | _ => none

/-- What a patch says first: the names of the file. -/
def fileHead (filename : String) : List Char :=
  ("--- a/" ++ filename ++ "\n+++ b/" ++ filename ++ "\n").toList

/-- Reads a patch of a file. -/
def readPatch? (filename diff : String) : Option (List PatchLine) :=
  if fileHead filename <+: diff.toList then
    (joinMarked (lines (diff.toList.drop (fileHead filename).length))).mapM PatchLine.read?
  else none

/-! ## Carrying out a patch -/

/-- How far a patch has been carried out: the lines that the hunk at work still covers, and the lines
that have been passed, in both texts. -/
structure Progress where
  oldLeft : Nat
  newLeft : Nat
  oldPassed : Nat
  newPassed : Nat

/-- Carries out a patch on what is left of the old lines. -/
def patch (σ : Progress) (old : List (List Char)) : List PatchLine → Option (List (List Char))
  | [] => if σ.oldLeft = 0 ∧ σ.newLeft = 0 then some old else none
  | .head a b :: ps =>
    let skipped := a.before - σ.oldPassed
    if σ.oldLeft = 0 ∧ σ.newLeft = 0 ∧ σ.oldPassed ≤ a.before ∧ skipped ≤ old.length ∧
        b.before = σ.newPassed + skipped then
      (patch ⟨a.count, b.count, a.before, b.before⟩ (old.drop skipped) ps).map (old.take skipped ++ ·)
    else none
  | .entry e :: ps =>
    let x := e.oldLines.length
    let y := e.newLines.length
    if x ≤ σ.oldLeft ∧ y ≤ σ.newLeft ∧ e.oldLines <+: old then
      (patch ⟨σ.oldLeft - x, σ.newLeft - y, σ.oldPassed + x, σ.newPassed + y⟩ (old.drop x) ps).map
        (e.newLines ++ ·)
    else none

/-- The text that a patch makes of an old one; nothing if the patch is refused. -/
def applyLines (ps : List PatchLine) (old : String) : Option String :=
  (patch ⟨0, 0, 0, 0⟩ (lines old.toList) ps).map fun new => String.ofList new.flatten

def applyPatch (filename diff old : String) : Option String :=
  (readPatch? filename diff).bind fun ps => applyLines ps old

/-- The same line of the patch that leads back. -/
def RunKind.flip : RunKind → RunKind
  | .keep => .keep
  | .remove => .add
  | .add => .remove

def Entry.flip (e : Entry) : Entry := ⟨e.kind.flip, e.line⟩

def PatchLine.flip : PatchLine → PatchLine
  | .head old new => .head new old
  | .entry e => .entry e.flip

/-- The text that a patch was made for, from the one that it leads to. -/
def revertPatch (filename diff new : String) : Option String :=
  (readPatch? filename diff).bind fun ps => applyLines (ps.map PatchLine.flip) new

/-- A patch begins and ends with a kept line. -/
def ContextAtEnds (ps : List PatchLine) : Prop :=
  (∃ a b l, [.head a b, .entry ⟨.keep, l⟩] <+: ps) ∧ ∃ l, .entry ⟨.keep, l⟩ ∈ ps.getLast?

/-! ## Entries -/

/-- The lines of the old text in a hunk. -/
def oldLines (es : List Entry) : List (List Char) := es.flatMap Entry.oldLines

/-- The lines of the new text in a hunk. -/
def newLines (es : List Entry) : List (List Char) := es.flatMap Entry.newLines

/-- A patch begins with the head of a hunk, if it has any lines. -/
inductive StartsHunk : List PatchLine → Prop where
  | nil : StartsHunk []
  | head (a b : Extent) (ps : List PatchLine) : StartsHunk (.head a b :: ps)

/-- A hunk ends where the next one begins, and must have had as many lines as its head has said. -/
theorem patch_of_startsHunk {ps : List PatchLine} (hps : StartsHunk ps) (σ : Progress)
    (rest : List (List Char)) :
    patch σ rest ps =
      if σ.oldLeft = 0 ∧ σ.newLeft = 0 then patch ⟨0, 0, σ.oldPassed, σ.newPassed⟩ rest ps
      else none := by
  obtain ⟨o, n, x, y⟩ := σ
  split
  · rename_i hleft
    obtain ⟨rfl, rfl⟩ := hleft
    rfl
  · rename_i hleft
    cases hps with
    | nil => exact if_neg hleft
    | head a b ps => exact if_neg fun h => hleft ⟨h.1, h.2.1⟩

/-- The lines of a hunk are carried out exactly if they are as many as its head has said. -/
theorem patch_entries (es : List Entry) {ps : List PatchLine} (hps : StartsHunk ps) (σ : Progress)
    (rest : List (List Char)) :
    patch σ (oldLines es ++ rest) (es.map .entry ++ ps) =
      if σ.oldLeft = (oldLines es).length ∧ σ.newLeft = (newLines es).length then
        (patch ⟨0, 0, σ.oldPassed + (oldLines es).length, σ.newPassed + (newLines es).length⟩ rest
          ps).map (newLines es ++ ·)
      else none := by
  induction es generalizing σ with
  | nil =>
    simp only [oldLines, newLines, List.flatMap_nil, List.length_nil, List.map_nil, List.nil_append,
      Nat.add_zero, Option.map_id_fun', id_eq]
    exact patch_of_startsHunk hps σ rest
  | cons e es ih =>
    obtain ⟨o, n, x, y⟩ := σ
    have hold : oldLines (e :: es) = e.oldLines ++ oldLines es := rfl
    have hnew : newLines (e :: es) = e.newLines ++ newLines es := rfl
    have hstart : e.oldLines <+: e.oldLines ++ (oldLines es ++ rest) := List.prefix_append _ _
    rw [hold, hnew, List.map_cons, List.cons_append, List.append_assoc, patch, List.length_append,
      List.length_append]
    simp only [hstart, and_true, List.drop_left, ih]
    by_cases hcount : o = e.oldLines.length + (oldLines es).length ∧
        n = e.newLines.length + (newLines es).length
    · obtain ⟨rfl, rfl⟩ := hcount
      simp only [Nat.le_add_right, Nat.add_sub_cancel_left, and_self, ↓reduceIte, Nat.add_assoc,
        Option.map_map]
      congr 1
      funext ls
      exact (List.append_assoc _ _ ls).symm
    · have hleft : ¬ (e.oldLines.length ≤ o ∧ e.newLines.length ≤ n ∧
          o - e.oldLines.length = (oldLines es).length ∧ n - e.newLines.length = (newLines es).length) := by
        omega
      rw [if_neg hcount]
      split
      · rename_i hle
        rw [if_neg fun h => hleft ⟨hle.1, hle.2, h⟩]
        rfl
      · rfl

/-! ## Pieces -/

/-- A hunk of a patch behind lines of the texts that the patch does not show. -/
structure Piece where
  gap : List (List Char)
  old : Extent
  new : Extent
  entries : List Entry

namespace Piece

/-- The lines of a piece in a patch. -/
def shown (c : Piece) : List PatchLine := .head c.old c.new :: c.entries.map .entry

def oldLines (c : Piece) : List (List Char) := c.gap ++ LineDiff.oldLines c.entries

def newLines (c : Piece) : List (List Char) := c.gap ++ LineDiff.newLines c.entries

end Piece

/-- The lines of a patch that is made of pieces. -/
def shownLines (cs : List Piece) : List PatchLine := cs.flatMap Piece.shown

def oldSides (cs : List Piece) : List (List Char) := cs.flatMap Piece.oldLines

def newSides (cs : List Piece) : List (List Char) := cs.flatMap Piece.newLines

/-- The heads of pieces that stand behind `x` lines of the old text and `y` lines of the new one say
where the hunks stand and how many lines they cover. -/
def HeadsRight (x y : Nat) : List Piece → Prop
  | [] => True
  | c :: cs =>
    c.old = ⟨x + c.gap.length, (oldLines c.entries).length⟩ ∧
      c.new = ⟨y + c.gap.length, (newLines c.entries).length⟩ ∧
      HeadsRight (x + c.oldLines.length) (y + c.newLines.length) cs

/-- The head of each piece says where its hunk stands in one of the texts. -/
def HeadsLocate (x y : Nat) : List Piece → Prop
  | [] => True
  | c :: cs =>
    (c.old.before = x + c.gap.length ∨ c.new.before = y + c.gap.length) ∧
      HeadsLocate (x + c.oldLines.length) (y + c.newLines.length) cs

theorem startsHunk_shownLines (cs : List Piece) : StartsHunk (shownLines cs) := by
  cases cs with
  | nil => exact .nil
  | cons c cs => exact .head c.old c.new _

/-- A piece is carried out exactly if its head is right. -/
theorem patch_piece {c : Piece} {x y : Nat}
    (hlocate : c.old.before = x + c.gap.length ∨ c.new.before = y + c.gap.length)
    {ps : List PatchLine} (hps : StartsHunk ps) (rest : List (List Char)) :
    patch ⟨0, 0, x, y⟩ (c.oldLines ++ rest) (c.shown ++ ps) =
      if c.old = ⟨x + c.gap.length, (oldLines c.entries).length⟩ ∧
          c.new = ⟨y + c.gap.length, (newLines c.entries).length⟩ then
        (patch ⟨0, 0, x + c.oldLines.length, y + c.newLines.length⟩ rest ps).map (c.newLines ++ ·)
      else none := by
  obtain ⟨gap, ⟨a, m⟩, ⟨b, n⟩, es⟩ := c
  have hlines : Piece.oldLines ⟨gap, ⟨a, m⟩, ⟨b, n⟩, es⟩ ++ rest = gap ++ (oldLines es ++ rest) :=
    List.append_assoc gap (oldLines es) rest
  have hshown : Piece.shown ⟨gap, ⟨a, m⟩, ⟨b, n⟩, es⟩ ++ ps =
      .head ⟨a, m⟩ ⟨b, n⟩ :: (es.map .entry ++ ps) := rfl
  rw [hlines, hshown, patch]
  simp only [Piece.oldLines, Piece.newLines, Extent.mk.injEq, List.length_append, ← Nat.add_assoc]
  by_cases hplace : a = x + gap.length ∧ b = y + gap.length
  · obtain ⟨rfl, rfl⟩ := hplace
    have hguard : x ≤ x + gap.length ∧ gap.length ≤ gap.length + (oldLines es).length + rest.length := by
      omega
    simp only [Nat.add_sub_cancel_left, hguard, and_self, true_and, ↓reduceIte, List.drop_left,
      List.take_left, patch_entries es hps]
    by_cases hcount : m = (oldLines es).length ∧ n = (newLines es).length
    · rw [if_pos hcount, if_pos hcount, Option.map_map]
      congr 1
      funext ls
      exact (List.append_assoc gap (newLines es) ls).symm
    · rw [if_neg hcount, if_neg hcount]
      rfl
  · have hguard : ¬ (x ≤ a ∧ b = y + (a - x)) := by
      simp only at hlocate
      omega
    rw [if_neg fun h => hguard ⟨h.2.2.1, h.2.2.2.2⟩, if_neg fun h => hplace ⟨h.1.1, h.2.1⟩]

/-- A patch that is made of pieces does what they say if all heads are right, and is refused otherwise. -/
theorem patch_pieces {cs : List Piece} {x y : Nat} (h : HeadsLocate x y cs)
    (rest result : List (List Char)) :
    patch ⟨0, 0, x, y⟩ (oldSides cs ++ rest) (shownLines cs) = some result ↔
      HeadsRight x y cs ∧ result = newSides cs ++ rest := by
  induction cs generalizing x y result with
  | nil => simp [shownLines, oldSides, newSides, HeadsRight, patch, eq_comm]
  | cons c cs ih =>
    obtain ⟨hlocate, hcs⟩ := h
    have hold : oldSides (c :: cs) ++ rest = c.oldLines ++ (oldSides cs ++ rest) :=
      List.append_assoc c.oldLines (oldSides cs) rest
    have hnew : newSides (c :: cs) ++ rest = c.newLines ++ (newSides cs ++ rest) :=
      List.append_assoc c.newLines (newSides cs) rest
    have hshown : shownLines (c :: cs) = c.shown ++ shownLines cs := rfl
    rw [hold, hnew, hshown, patch_piece hlocate (startsHunk_shownLines cs), HeadsRight]
    split
    · rename_i hright
      simp only [Option.map_eq_some_iff, ih hcs, hright, true_and]
      constructor
      · rintro ⟨_, ⟨hrest, rfl⟩, rfl⟩
        exact ⟨hrest, rfl⟩
      · rintro ⟨hrest, rfl⟩
        exact ⟨_, ⟨hrest, rfl⟩, rfl⟩
    · rename_i hwrong
      exact iff_of_false (by simp) fun h => hwrong ⟨h.1.1, h.1.2.1⟩

/-! ## The way back -/

/-- The same piece of the patch that leads back. -/
def Piece.flip (c : Piece) : Piece := ⟨c.gap, c.new, c.old, c.entries.map Entry.flip⟩

theorem oldLines_flip (es : List Entry) : oldLines (es.map Entry.flip) = newLines es := by
  unfold oldLines newLines
  rw [List.flatMap_map]
  congr 1
  funext ⟨kind, l⟩
  cases kind <;> rfl

theorem newLines_flip (es : List Entry) : newLines (es.map Entry.flip) = oldLines es := by
  unfold oldLines newLines
  rw [List.flatMap_map]
  congr 1
  funext ⟨kind, l⟩
  cases kind <;> rfl

theorem Piece.oldLines_flip (c : Piece) : c.flip.oldLines = c.newLines :=
  congrArg (c.gap ++ ·) (LineDiff.oldLines_flip c.entries)

theorem Piece.newLines_flip (c : Piece) : c.flip.newLines = c.oldLines :=
  congrArg (c.gap ++ ·) (LineDiff.newLines_flip c.entries)

theorem oldSides_flip (cs : List Piece) : oldSides (cs.map Piece.flip) = newSides cs := by
  unfold oldSides newSides
  rw [List.flatMap_map]
  exact congrArg (List.flatMap · cs) (funext Piece.oldLines_flip)

theorem newSides_flip (cs : List Piece) : newSides (cs.map Piece.flip) = oldSides cs := by
  unfold oldSides newSides
  rw [List.flatMap_map]
  exact congrArg (List.flatMap · cs) (funext Piece.newLines_flip)

theorem shownLines_flip (cs : List Piece) :
    shownLines (cs.map Piece.flip) = (shownLines cs).map PatchLine.flip := by
  unfold shownLines
  rw [List.flatMap_map, List.map_flatMap]
  congr 1
  funext c
  simp [Piece.shown, Piece.flip, PatchLine.flip, Function.comp_def]

theorem headsRight_flip (cs : List Piece) (x y : Nat) :
    HeadsRight y x (cs.map Piece.flip) ↔ HeadsRight x y cs := by
  induction cs generalizing x y with
  | nil => exact Iff.rfl
  | cons c cs ih =>
    rw [List.map_cons, HeadsRight, HeadsRight, c.oldLines_flip, c.newLines_flip, ih]
    simp only [Piece.flip, oldLines_flip, newLines_flip]
    exact and_left_comm

theorem headsLocate_flip {cs : List Piece} {x y : Nat} (h : HeadsLocate x y cs) :
    HeadsLocate y x (cs.map Piece.flip) := by
  induction cs generalizing x y with
  | nil => exact trivial
  | cons c cs ih =>
    rw [List.map_cons, HeadsLocate, c.oldLines_flip, c.newLines_flip]
    exact ⟨h.1.symm, ih h.2⟩

/-! ## Both ways -/

section

variable {cs : List Piece} {rest : List (List Char)} {old new : String}

/-- The patch that is made of the pieces of two texts leads from one to the other if and only if all
heads are right. -/
theorem applyLines_pieces (h : HeadsLocate 0 0 cs) (hold : lines old.toList = oldSides cs ++ rest)
    (hnew : lines new.toList = newSides cs ++ rest) :
    applyLines (shownLines cs) old = some new ↔ HeadsRight 0 0 cs := by
  unfold applyLines
  rw [hold, Option.map_eq_some_iff]
  constructor
  · rintro ⟨result, hresult, -⟩
    exact ((patch_pieces h rest result).1 hresult).1
  · intro hright
    refine ⟨_, (patch_pieces h rest _).2 ⟨hright, rfl⟩, ?_⟩
    rw [← hnew, flatten_lines, String.ofList_toList]

theorem applyLines_flip (h : HeadsLocate 0 0 cs) (hold : lines old.toList = oldSides cs ++ rest)
    (hnew : lines new.toList = newSides cs ++ rest) :
    applyLines ((shownLines cs).map PatchLine.flip) new = some old ↔ HeadsRight 0 0 cs := by
  have hfrom : lines new.toList = oldSides (cs.map Piece.flip) ++ rest := by rw [oldSides_flip, hnew]
  have hto : lines old.toList = newSides (cs.map Piece.flip) ++ rest := by rw [newSides_flip, hold]
  rw [← shownLines_flip, ← headsRight_flip]
  exact applyLines_pieces (headsLocate_flip h) hfrom hto

end

end MarketingForm.LineDiff
