import MarketingForm.Proofs.LineDiff.Patch
import Mathlib.Data.List.Forall2

/-!
# Where hunks stand

The changes of a script stand one behind the other in both texts (`Follow`). Shortening them at both
ends, dividing them inside kept stretches and leaving out hunks that change nothing only takes lines
away that the texts share, so the hunks of a script stand in both texts, each behind such lines
(`stand_hunks`).

The head of a hunk goes from its first change to its last one. Each of these tells its place in at least
one of the texts, and in both if it keeps its lines; all hunks but the first one begin with kept lines,
and all but the last one end with some (`pieces_of_stand`, `pairwise_hunks`).
-/

namespace MarketingForm.LineDiff

open Script

/-! ## Places -/

namespace Placed

def oldLines (p : Placed) : List (List Char) := p.change.oldLines

def newLines (p : Placed) : List (List Char) := p.change.newLines

end Placed

namespace Hunk

def oldLines (h : Hunk) : List (List Char) := h.flatMap Placed.oldLines

def newLines (h : Hunk) : List (List Char) := h.flatMap Placed.newLines

@[simp] theorem oldLines_nil : oldLines [] = [] := rfl

@[simp] theorem newLines_nil : newLines [] = [] := rfl

@[simp] theorem oldLines_cons (p : Placed) (h : Hunk) : oldLines (p :: h) = p.oldLines ++ oldLines h :=
  rfl

@[simp] theorem newLines_cons (p : Placed) (h : Hunk) : newLines (p :: h) = p.newLines ++ newLines h :=
  rfl

@[simp] theorem oldLines_append (g h : Hunk) : oldLines (g ++ h) = oldLines g ++ oldLines h :=
  List.flatMap_append

@[simp] theorem newLines_append (g h : Hunk) : newLines (g ++ h) = newLines g ++ newLines h :=
  List.flatMap_append

end Hunk

/-- Changes that stand one behind the other, the first of them behind `x` lines of the old text and `y`
lines of the new one. -/
def Follow (x y : Nat) : List Placed → Prop
  | [] => True
  | p :: ps =>
    p.oldBefore = x ∧ p.newBefore = y ∧ Follow (x + p.oldLines.length) (y + p.newLines.length) ps

theorem follow_placedFrom (x y : Nat) (cs : List Change) : Follow x y (placedFrom x y cs) := by
  induction cs generalizing x y with
  | nil => exact trivial
  | cons c cs ih =>
    cases c with
    | kept xs => exact ⟨rfl, rfl, ih _ _⟩
    | removed xs n => exact ⟨rfl, rfl, ih _ _⟩
    | added xs n => exact ⟨rfl, rfl, ih _ _⟩
    | replaced ds as => exact ⟨rfl, rfl, ih _ _⟩

theorem follow_append {x y : Nat} {g h : Hunk} :
    Follow x y (g ++ h) ↔
      Follow x y g ∧ Follow (x + g.oldLines.length) (y + g.newLines.length) h := by
  induction g generalizing x y with
  | nil => exact ⟨fun h => ⟨trivial, h⟩, fun h => h.2⟩
  | cons p g ih =>
    simp only [List.cons_append, Follow, ih, Hunk.oldLines_cons, Hunk.newLines_cons,
      List.length_append, Nat.add_assoc, and_assoc]

theorem lines_placedFrom (s : Script (List Char)) :
    Hunk.oldLines (placedFrom 0 0 (changes s)) = oldSide s ∧
      Hunk.newLines (placedFrom 0 0 (changes s)) = newSide s := by
  have hchange := map_change_placedFrom 0 0 (changes s)
  have hold : Hunk.oldLines (placedFrom 0 0 (changes s)) = (changes s).flatMap Change.oldLines := by
    rw [← congrArg (List.flatMap Change.oldLines) hchange, List.flatMap_map]
    rfl
  have hnew : Hunk.newLines (placedFrom 0 0 (changes s)) = (changes s).flatMap Change.newLines := by
    rw [← congrArg (List.flatMap Change.newLines) hchange, List.flatMap_map]
    rfl
  rw [hold, hnew]
  exact lines_changes s

/-! ## Shortened changes -/

namespace Placed

/-- What is left out at the start of kept lines is shared, and the rest stands behind it. -/
theorem exists_lastLines (p : Placed) : ∃ gap, p.oldLines = gap ++ p.lastLines.oldLines ∧
    p.newLines = gap ++ p.lastLines.newLines ∧ p.lastLines.oldBefore = p.oldBefore + gap.length ∧
    p.lastLines.newBefore = p.newBefore + gap.length := by
  obtain ⟨c, x, y⟩ := p
  cases c with
  | kept xs =>
    have hlength : (xs.take (xs.length - contextRadius)).length = xs.length - contextRadius :=
      List.length_take_of_le (Nat.sub_le _ _)
    refine ⟨xs.take (xs.length - contextRadius), ?_, ?_, ?_, ?_⟩
    · exact (List.take_append_drop _ xs).symm
    · exact (List.take_append_drop _ xs).symm
    · rw [hlength]; rfl
    · rw [hlength]; rfl
  | removed xs n => exact ⟨[], rfl, rfl, rfl, rfl⟩
  | added xs n => exact ⟨[], rfl, rfl, rfl, rfl⟩
  | replaced ds as => exact ⟨[], rfl, rfl, rfl, rfl⟩

theorem exists_firstLines (p : Placed) : ∃ gap, p.oldLines = p.firstLines.oldLines ++ gap ∧
    p.newLines = p.firstLines.newLines ++ gap := by
  obtain ⟨c, x, y⟩ := p
  cases c with
  | kept xs =>
    exact ⟨xs.drop contextRadius, (List.take_append_drop _ xs).symm,
      (List.take_append_drop _ xs).symm⟩
  | removed xs n => exact ⟨[], (List.append_nil _).symm, (List.append_nil _).symm⟩
  | added xs n => exact ⟨[], (List.append_nil _).symm, (List.append_nil _).symm⟩
  | replaced ds as => exact ⟨[], (List.append_nil _).symm, (List.append_nil _).symm⟩

theorem firstLines_before (p : Placed) :
    p.firstLines.oldBefore = p.oldBefore ∧ p.firstLines.newBefore = p.newBefore := by
  obtain ⟨c, x, y⟩ := p
  cases c <;> exact ⟨rfl, rfl⟩

/-- A long kept stretch is what is shown at its start, lines that are left out, and what is shown at its
end. -/
theorem exists_of_isLong {p : Placed} (hlong : p.isLong = true) : ∃ gap,
    p.oldLines = p.firstLines.oldLines ++ (gap ++ p.lastLines.oldLines) ∧
    p.newLines = p.firstLines.newLines ++ (gap ++ p.lastLines.newLines) ∧
    p.lastLines.oldBefore = p.oldBefore + p.firstLines.oldLines.length + gap.length ∧
    p.lastLines.newBefore = p.newBefore + p.firstLines.newLines.length + gap.length := by
  obtain ⟨c, x, y⟩ := p
  cases c with
  | kept xs =>
    have hradius : 2 * contextRadius < xs.length := of_decide_eq_true hlong
    have hshown : (xs.take contextRadius).length = contextRadius :=
      List.length_take_of_le (by omega)
    let gap := (xs.drop contextRadius).take (xs.length - 2 * contextRadius)
    have hgap : gap.length = xs.length - 2 * contextRadius :=
      List.length_take_of_le (by rw [List.length_drop]; omega)
    have hlast : (xs.drop contextRadius).drop (xs.length - 2 * contextRadius) =
        xs.drop (xs.length - contextRadius) := by
      rw [List.drop_drop]
      congr 1
      omega
    have hlines : xs = xs.take contextRadius ++ (gap ++ xs.drop (xs.length - contextRadius)) := by
      rw [← hlast, List.take_append_drop, List.take_append_drop]
    refine ⟨gap, hlines, hlines, ?_, ?_⟩
    · change x + (xs.length - contextRadius) = x + (xs.take contextRadius).length + gap.length
      omega
    · change y + (xs.length - contextRadius) = y + (xs.take contextRadius).length + gap.length
      omega
  | removed | added | replaced => cases hlong

end Placed

theorem exists_trimStart {ps : Hunk} (h : Follow 0 0 ps) : ∃ gap,
    Follow gap.length gap.length (trimStart ps) ∧
      ps.oldLines = gap ++ Hunk.oldLines (trimStart ps) ∧
      ps.newLines = gap ++ Hunk.newLines (trimStart ps) := by
  cases ps with
  | nil => exact ⟨[], trivial, rfl, rfl⟩
  | cons p ps =>
    obtain ⟨hold, hnew, hps⟩ := h
    obtain ⟨gap, hpold, hpnew, hx, hy⟩ := p.exists_lastLines
    rw [hold, Nat.zero_add] at hx
    rw [hnew, Nat.zero_add] at hy
    refine ⟨gap, ⟨hx, hy, ?_⟩, ?_, ?_⟩
    · rw [hpold, hpnew, List.length_append, List.length_append, Nat.zero_add, Nat.zero_add] at hps
      exact hps
    · rw [Hunk.oldLines_cons, hpold, List.append_assoc]
      rfl
    · rw [Hunk.newLines_cons, hpnew, List.append_assoc]
      rfl

theorem exists_trimStop {x y : Nat} {ps : Hunk} (h : Follow x y ps) : ∃ gap,
    Follow x y (trimStop ps) ∧ ps.oldLines = Hunk.oldLines (trimStop ps) ++ gap ∧
      ps.newLines = Hunk.newLines (trimStop ps) ++ gap := by
  fun_induction trimStop ps generalizing x y with
  | case1 => exact ⟨[], trivial, rfl, rfl⟩
  | case2 p =>
    obtain ⟨hold, hnew, -⟩ := h
    obtain ⟨gap, hpold, hpnew⟩ := p.exists_firstLines
    obtain ⟨hx, hy⟩ := p.firstLines_before
    refine ⟨gap, ⟨hx.trans hold, hy.trans hnew, trivial⟩, ?_, ?_⟩
    · rw [Hunk.oldLines_cons, Hunk.oldLines_cons, hpold]
      simp
    · rw [Hunk.newLines_cons, Hunk.newLines_cons, hpnew]
      simp
  | case3 p ps _ ih =>
    obtain ⟨hold, hnew, hps⟩ := h
    obtain ⟨gap, hfollow, hpsold, hpsnew⟩ := ih hps
    refine ⟨gap, ⟨hold, hnew, hfollow⟩, ?_, ?_⟩
    · rw [Hunk.oldLines_cons, Hunk.oldLines_cons, hpsold, List.append_assoc]
    · rw [Hunk.newLines_cons, Hunk.newLines_cons, hpsnew, List.append_assoc]

/-! ## Hunks -/

/-- Hunks that stand behind `x` lines of an old text and `y` lines of a new one: what comes from there
on in both texts are the hunks, and shared lines before, between and behind them. -/
inductive Stand : Nat → Nat → List Hunk → List (List Char) → List (List Char) → Prop where
  | rest (x y : Nat) (shared : List (List Char)) : Stand x y [] shared shared
  | hunk {x y : Nat} {gap : List (List Char)} {h : Hunk} {hs : List Hunk} {old new : List (List Char)}
      (hfollow : Follow (x + gap.length) (y + gap.length) h)
      (hrest : Stand (x + gap.length + h.oldLines.length) (y + gap.length + h.newLines.length) hs
        old new) :
      Stand x y (h :: hs) (gap ++ (h.oldLines ++ old)) (gap ++ (h.newLines ++ new))

namespace Stand

variable {x y : Nat} {hs : List Hunk} {old new : List (List Char)}

/-- Shared lines may come first. -/
theorem behind {gap : List (List Char)} (h : Stand (x + gap.length) (y + gap.length) hs old new) :
    Stand x y hs (gap ++ old) (gap ++ new) := by
  cases h with
  | rest => exact .rest _ _ _
  | @hunk _ _ g _ _ _ _ hfollow hrest =>
    have hlength (z : Nat) : z + gap.length + g.length = z + (gap ++ g).length := by
      rw [List.length_append, Nat.add_assoc]
    rw [hlength, hlength] at hfollow hrest
    rw [← List.append_assoc, ← List.append_assoc gap]
    exact .hunk hfollow hrest

/-- Shared lines may come last. -/
theorem append (h : Stand x y hs old new) (tail : List (List Char)) :
    Stand x y hs (old ++ tail) (new ++ tail) := by
  induction h with
  | rest x y shared => exact .rest x y _
  | hunk hfollow hrest ih =>
    simp only [List.append_assoc]
    exact .hunk hfollow ih

end Stand

theorem oldLines_eq_newLines {h : Hunk} (hkept : h.all Placed.isKept = true) :
    h.oldLines = h.newLines := by
  induction h with
  | nil => rfl
  | cons p h ih =>
    obtain ⟨hp, hh⟩ := Bool.and_eq_true_iff.1 (List.all_cons.symm.trans hkept)
    have hlines : p.oldLines = p.newLines := by
      obtain ⟨c, x, y⟩ := p
      cases c with
      | kept xs => rfl
      | removed | added | replaced => cases hp
    rw [Hunk.oldLines_cons, Hunk.newLines_cons, hlines, ih hh]

theorem Stand.filter {x y : Nat} {hs : List Hunk} {old new : List (List Char)}
    (h : Stand x y hs old new) :
    Stand x y (hs.filter fun h => !h.all Placed.isKept) old new := by
  induction h with
  | rest x y shared => exact .rest x y shared
  | @hunk x y gap h hs old new hfollow hrest ih =>
    cases hkept : h.all Placed.isKept with
    | true =>
      rw [List.filter_cons_of_neg (by simp [hkept])]
      rw [oldLines_eq_newLines hkept] at ih ⊢
      exact ih.behind.behind
    | false =>
      rw [List.filter_cons_of_pos (by simp [hkept])]
      exact .hunk hfollow ih

theorem stand_divideHunks {x y : Nat} {hunk ps : Hunk} (h : Follow x y (hunk ++ ps)) :
    Stand x y (divideHunks hunk ps) (Hunk.oldLines (hunk ++ ps)) (Hunk.newLines (hunk ++ ps)) := by
  induction ps generalizing x y hunk with
  | nil =>
    rw [List.append_nil] at h ⊢
    have hstand : Stand x y [hunk] ([] ++ (hunk.oldLines ++ [])) ([] ++ (hunk.newLines ++ [])) :=
      .hunk h (.rest _ _ _)
    rw [List.append_nil, List.append_nil] at hstand
    exact hstand
  | cons p ps ih =>
    rw [divideHunks]
    split
    · rename_i hlong
      obtain ⟨gap, hold, hnew, hx, hy⟩ := Placed.exists_of_isLong hlong
      obtain ⟨hx', hy'⟩ := p.firstLines_before
      obtain ⟨hhunk, hpx, hpy, hps⟩ := follow_append.1 h
      have hshown : Follow x y (hunk ++ [p.firstLines]) :=
        follow_append.2 ⟨hhunk, hx'.trans hpx, hy'.trans hpy, trivial⟩
      have hxlast : x + (Hunk.oldLines (hunk ++ [p.firstLines])).length + gap.length =
          p.lastLines.oldBefore := by
        simp [hx, hpx, Nat.add_assoc]
      have hylast : y + (Hunk.newLines (hunk ++ [p.firstLines])).length + gap.length =
          p.lastLines.newBefore := by
        simp [hy, hpy, Nat.add_assoc]
      have hnext : Follow p.lastLines.oldBefore p.lastLines.newBefore (p.lastLines :: ps) := by
        refine ⟨rfl, rfl, ?_⟩
        rw [hold, hnew] at hps
        rw [hx, hy, hpx, hpy]
        simpa only [List.length_append, Nat.add_assoc] using hps
      have hrest := @ih _ _ [p.lastLines] hnext
      rw [← hxlast, ← hylast] at hrest
      have hall : Stand x y ((hunk ++ [p.firstLines]) :: divideHunks [p.lastLines] ps)
          ([] ++ (Hunk.oldLines (hunk ++ [p.firstLines]) ++
            (gap ++ Hunk.oldLines ([p.lastLines] ++ ps))))
          ([] ++ (Hunk.newLines (hunk ++ [p.firstLines]) ++
            (gap ++ Hunk.newLines ([p.lastLines] ++ ps)))) :=
        .hunk hshown hrest.behind
      simpa [hold, hnew] using hall
    · have happend : hunk ++ p :: ps = (hunk ++ [p]) ++ ps := by simp
      rw [happend] at h ⊢
      exact ih h

/-- The hunks of a script stand in both of its sides. -/
theorem stand_hunks (s : Script (List Char)) : Stand 0 0 (hunks s) (oldSide s) (newSide s) := by
  obtain ⟨hold, hnew⟩ := lines_placedFrom s
  obtain ⟨gap, hstart, hold', hnew'⟩ := exists_trimStart (follow_placedFrom 0 0 (changes s))
  obtain ⟨tail, hstop, hold'', hnew''⟩ := exists_trimStop hstart
  rw [← hold, ← hnew, hold', hnew', hold'', hnew'']
  rw [← Nat.zero_add gap.length] at hstop
  exact ((stand_divideHunks hstop).filter.append tail).behind

/-! ## Context -/

namespace Hunk

/-- A hunk begins with kept lines. -/
def StartsKept (h : Hunk) : Prop := ∃ p ∈ h.head?, p.isKept = true

theorem StartsKept.append {h : Hunk} (hkept : h.StartsKept) (ps : List Placed) :
    StartsKept (h ++ ps) := by
  obtain ⟨p, hp, hkept⟩ := hkept
  refine ⟨p, ?_, hkept⟩
  rw [List.head?_append, Option.mem_def.1 hp]
  rfl

/-- A hunk ends with kept lines. -/
def EndsKept (h : Hunk) : Prop := ∃ p ∈ h.getLast?, p.isKept = true

end Hunk

theorem startsKept_of_mem_divideHunks {hunk g : Hunk} {ps : List Placed} (h : hunk.StartsKept)
    (hg : g ∈ divideHunks hunk ps) : g.StartsKept := by
  induction ps generalizing hunk with
  | nil =>
    rw [divideHunks, List.mem_singleton] at hg
    exact hg ▸ h
  | cons p ps ih =>
    rw [divideHunks] at hg
    split at hg
    · rename_i hlong
      have hnext : Hunk.StartsKept [p.lastLines] :=
        ⟨p.lastLines, rfl, (isKept_lastLines p).trans (Placed.isKept_of_isLong hlong)⟩
      rcases List.mem_cons.1 hg with rfl | hg
      · exact h.append _
      · exact ih hnext hg
    · exact ih (h.append _) hg

/-- Where changes are divided, both sides keep lines. -/
theorem pairwise_divideHunks (hunk : Hunk) (ps : List Placed) :
    (divideHunks hunk ps).Pairwise fun g h => g.EndsKept ∧ h.StartsKept := by
  induction ps generalizing hunk with
  | nil => exact List.pairwise_singleton _ _
  | cons p ps ih =>
    rw [divideHunks]
    split
    · rename_i hlong
      have hkept := Placed.isKept_of_isLong hlong
      have hends : Hunk.EndsKept (hunk ++ [p.firstLines]) :=
        ⟨p.firstLines, List.getLast?_concat, (isKept_firstLines p).trans hkept⟩
      have hstarts : Hunk.StartsKept [p.lastLines] :=
        ⟨p.lastLines, rfl, (isKept_lastLines p).trans hkept⟩
      exact List.pairwise_cons.2
        ⟨fun g hg => ⟨hends, startsKept_of_mem_divideHunks hstarts hg⟩, ih _⟩
    · exact ih _

theorem pairwise_hunks (s : Script (List Char)) :
    (hunks s).Pairwise fun g h => g.EndsKept ∧ h.StartsKept :=
  (pairwise_divideHunks _ _).filter _

/-- If the first hunk begins with kept lines and the last one ends with some, all do. -/
theorem kept_of_pairwise {hs : List Hunk}
    (h : hs.Pairwise fun g h => g.EndsKept ∧ h.StartsKept)
    (hfirst : ∀ g ∈ hs.head?, g.StartsKept) (hlast : ∀ g ∈ hs.getLast?, g.EndsKept) {g : Hunk}
    (hg : g ∈ hs) : g.StartsKept ∧ g.EndsKept := by
  constructor
  · cases hs with
    | nil => cases hg
    | cons g₀ hs =>
      rcases List.mem_cons.1 hg with rfl | hg
      · exact hfirst _ rfl
      · exact ((List.pairwise_cons.1 h).1 g hg).2
  · rcases List.eq_nil_or_concat hs with rfl | ⟨hs, g₁, rfl⟩
    · cases hg
    · rw [List.concat_eq_append] at h hlast hg
      rcases List.mem_append.1 hg with hg | hg
      · exact ((List.pairwise_append.1 h).2.2 g hg g₁ (List.mem_singleton_self g₁)).1
      · exact List.mem_singleton.1 hg ▸ hlast g₁ List.getLast?_concat

/-! ## Heads -/

/-- The lines of a range. -/
def LineRange.extent (r : LineRange) : Extent := ⟨r.start, r.stop - r.start⟩

/-- What a hunk does with the lines of a change. -/
def Change.entries : Change → List Entry
  | kept xs => xs.map fun l => ⟨.keep, l⟩
  | removed xs _ => xs.map fun l => ⟨.remove, l⟩
  | added xs _ => xs.map fun l => ⟨.add, l⟩
  | replaced ds as => ds.map (fun l => ⟨.remove, l⟩) ++ as.map fun l => ⟨.add, l⟩

def Hunk.entries (h : Hunk) : List Entry := h.flatMap fun p => p.change.entries

theorem oldLines_append (es fs : List Entry) : oldLines (es ++ fs) = oldLines es ++ oldLines fs :=
  List.flatMap_append

theorem newLines_append (es fs : List Entry) : newLines (es ++ fs) = newLines es ++ newLines fs :=
  List.flatMap_append

theorem Change.oldLines_entries (c : Change) : LineDiff.oldLines c.entries = c.oldLines := by
  cases c <;>
    simp [entries, Change.oldLines, LineDiff.oldLines, Entry.oldLines, List.flatMap_map]

theorem Change.newLines_entries (c : Change) : LineDiff.newLines c.entries = c.newLines := by
  cases c <;>
    simp [entries, Change.newLines, LineDiff.newLines, Entry.newLines, List.flatMap_map]

theorem Hunk.oldLines_entries (h : Hunk) : LineDiff.oldLines h.entries = h.oldLines := by
  induction h with
  | nil => rfl
  | cons p h ih =>
    rw [Hunk.oldLines_cons, ← ih, Placed.oldLines, ← p.change.oldLines_entries, ← LineDiff.oldLines_append]
    rfl

theorem Hunk.newLines_entries (h : Hunk) : LineDiff.newLines h.entries = h.newLines := by
  induction h with
  | nil => rfl
  | cons p h ih =>
    rw [Hunk.newLines_cons, ← ih, Placed.newLines, ← p.change.newLines_entries, ← LineDiff.newLines_append]
    rfl

/-- A piece of a patch shows a hunk under a head that goes from the first change to the last one. -/
structure Shows (h : Hunk) (c : Piece) : Prop where
  entries : c.entries = h.entries
  head : ∃ first ∈ h.head?, ∃ last ∈ h.getLast?,
    c.old = (first.oldRange.upTo last.oldRange).extent ∧
      c.new = (first.newRange.upTo last.newRange).extent

theorem before_of_follow {x y : Nat} {h : Hunk} (hfollow : Follow x y h) {p : Placed}
    (hp : p ∈ h.head?) : p.oldBefore = x ∧ p.newBefore = y := by
  cases h with
  | nil => cases hp
  | cons q h =>
    obtain rfl : q = p := Option.some.inj hp
    obtain ⟨hold, hnew, -⟩ := hfollow
    exact ⟨hold, hnew⟩

/-- The first change of a hunk tells where the hunk stands in one of the texts. -/
theorem start_of_follow {x y : Nat} {h : Hunk} (hfollow : Follow x y h) {p : Placed}
    (hp : p ∈ h.head?) : p.oldRange.start = x ∨ p.newRange.start = y := by
  obtain ⟨rfl, rfl⟩ := before_of_follow hfollow hp
  obtain ⟨c, x, y⟩ := p
  cases c with
  | kept | removed | replaced => exact .inl rfl
  | added xs n => exact .inr rfl

theorem start_of_startsKept {x y : Nat} {h : Hunk} (hfollow : Follow x y h) {p : Placed}
    (hp : p ∈ h.head?) (hkept : h.StartsKept) : p.oldRange.start = x ∧ p.newRange.start = y := by
  obtain ⟨q, hq, hkept⟩ := hkept
  obtain rfl : p = q := Option.mem_unique hp hq
  obtain ⟨rfl, rfl⟩ := before_of_follow hfollow hp
  obtain ⟨c, x, y⟩ := p
  cases c with
  | kept xs => exact ⟨rfl, rfl⟩
  | removed | added | replaced => cases hkept

/-- Kept lines at the end of a hunk tell how far it goes. -/
theorem stop_of_endsKept {x y : Nat} {h : Hunk} (hfollow : Follow x y h) {p : Placed}
    (hp : p ∈ h.getLast?) (hkept : h.EndsKept) :
    p.oldRange.stop = x + h.oldLines.length ∧ p.newRange.stop = y + h.newLines.length := by
  obtain ⟨q, hq, hkept⟩ := hkept
  obtain rfl : p = q := Option.mem_unique hp hq
  obtain ⟨g, rfl⟩ := List.getLast?_eq_some_iff.1 hp
  obtain ⟨-, hx, hy, -⟩ := follow_append.1 hfollow
  obtain ⟨c, x', y'⟩ := p
  cases c with
  | kept xs =>
    obtain rfl : x' = x + (Hunk.oldLines g).length := hx
    obtain rfl : y' = y + (Hunk.newLines g).length := hy
    rw [Hunk.oldLines_append, Hunk.newLines_append, List.length_append, List.length_append,
      ← Nat.add_assoc, ← Nat.add_assoc, Hunk.oldLines_cons, Hunk.newLines_cons]
    simp only [Hunk.oldLines_nil, Hunk.newLines_nil, List.append_nil]
    exact ⟨rfl, rfl⟩
  | removed | added | replaced => cases hkept

/-- Hunks that stand in two texts are the pieces of a patch. -/
theorem pieces_of_stand {x y : Nat} {hs : List Hunk} {old new : List (List Char)}
    (h : Stand x y hs old new) (hne : ∀ h ∈ hs, h ≠ []) :
    ∃ cs rest, List.Forall₂ Shows hs cs ∧ old = oldSides cs ++ rest ∧ new = newSides cs ++ rest ∧
      HeadsLocate x y cs ∧ ((∀ h ∈ hs, h.StartsKept ∧ h.EndsKept) → HeadsRight x y cs) := by
  induction h with
  | rest x y shared => exact ⟨[], shared, .nil, rfl, rfl, trivial, fun _ => trivial⟩
  | @hunk x y gap h hs old new hfollow hrest ih =>
    obtain ⟨cs, rest, hshows, rfl, rfl, hlocate, hright⟩ :=
      ih fun g hg => hne g (List.mem_cons_of_mem h hg)
    have hnonempty : h ≠ [] := hne h List.mem_cons_self
    have hfirst : h.head hnonempty ∈ h.head? := List.head?_eq_some_head hnonempty
    have hlast : h.getLast hnonempty ∈ h.getLast? := List.getLast?_eq_some_getLast hnonempty
    let first := h.head hnonempty
    let last := h.getLast hnonempty
    let c : Piece := ⟨gap, (first.oldRange.upTo last.oldRange).extent,
      (first.newRange.upTo last.newRange).extent, h.entries⟩
    have hold : c.oldLines = gap ++ h.oldLines := congrArg (gap ++ ·) h.oldLines_entries
    have hnew : c.newLines = gap ++ h.newLines := congrArg (gap ++ ·) h.newLines_entries
    refine ⟨c :: cs, rest, .cons ⟨rfl, first, hfirst, last, hlast, rfl, rfl⟩ hshows, ?_, ?_, ?_, ?_⟩
    · simp [oldSides, hold]
    · simp [newSides, hnew]
    · rw [HeadsLocate, hold, hnew, List.length_append, List.length_append, ← Nat.add_assoc,
        ← Nat.add_assoc]
      exact ⟨start_of_follow hfollow hfirst, hlocate⟩
    · intro hkept
      obtain ⟨hstarts, hends⟩ := hkept h List.mem_cons_self
      obtain ⟨hstartOld, hstartNew⟩ := start_of_startsKept hfollow hfirst hstarts
      obtain ⟨hstopOld, hstopNew⟩ := stop_of_endsKept hfollow hlast hends
      rw [HeadsRight, hold, hnew, List.length_append, List.length_append, ← Nat.add_assoc,
        ← Nat.add_assoc]
      refine ⟨?_, ?_, hright fun g hg => hkept g (List.mem_cons_of_mem h hg)⟩
      · change Extent.mk first.oldRange.start (last.oldRange.stop - first.oldRange.start) = _
        rw [hstartOld, hstopOld, Nat.add_sub_cancel_left, ← h.oldLines_entries]
      · change Extent.mk first.newRange.start (last.newRange.stop - first.newRange.start) = _
        rw [hstartNew, hstopNew, Nat.add_sub_cancel_left, ← h.newLines_entries]

end MarketingForm.LineDiff
