import MarketingForm.Proofs.Export.Cut

/-!
# Composition as one substitution

`compose` works on the pieces of the shell with a list of the placeholders that it has met. Here its
result is described by the complete cut of the shell at once: a place is filled if its placeholder
is not among the places before it (`Cut.filled`), and it counts as a repetition if it is there just
once (`secondOccurrences`).
-/

namespace MarketingForm

/-- What takes the place of each placeholder. A title that holds nothing but blanks gives way to the
default. -/
def segments (title css : String) (fragments : List Markup) : Placeholder → List Char
  | .title =>
    if title.toList.all Text.isBlank then (escape "Marketing Form").toList
    else (escape title).toList
  | .tokens => css.toList
  | .content => (contentBlock fragments).text.toList

theorem segments_title (title css : String) (fragments : List Markup) :
    segments title css fragments .title = (escape (titleOrDefault title)).toList := by
  unfold segments titleOrDefault Text.allBlank
  by_cases hblank : title.toList.all Text.isBlank = true
  · rw [if_pos hblank, if_pos hblank, defaultTitle]
  · rw [if_neg hblank, if_neg hblank]

theorem compose_eq (shell title css : String) (fragments : List Markup) :
    compose shell title css fragments =
      { document := String.ofList (fillPieces (segments title css fragments) [] (pieces shell))
        missing := Placeholder.all.filter fun p => !(places (pieces shell)).contains p
        duplicates := repeated [] [] (places (pieces shell)) } := by
  have hsegments : segments title css fragments = fun
      | .title => (escape (titleOrDefault title)).toList
      | .tokens => css.toList
      | .content => (contentBlock fragments).text.toList := by
    funext p
    cases p with
    | title => exact segments_title title css fragments
    | tokens | content => rfl
  rw [hsegments]
  rfl

/-! ## Filling -/

namespace Cut

/-- The text of a cut with every first occurrence of a placeholder filled. -/
def filled (segment : Placeholder → List Char) (c : Cut) : List Char :=
  (c.parts.mapIdx fun i x =>
    x.1 ++ (if x.2 ∈ c.places.take i then x.2.mark.toList else segment x.2)).flatten ++ c.rest

end Cut

theorem fillPieces_chars (segment : Placeholder → List Char) (seen : List Placeholder)
    (s : List Char) (r : List Piece) :
    fillPieces segment seen (s.map .char ++ r) = s ++ fillPieces segment seen r := by
  induction s with
  | nil => rfl
  | cons c s ih => rw [List.map_cons, List.cons_append, fillPieces, ih, List.cons_append]

/-- Filling behind some places, of which `seen` has the placeholders. -/
theorem fillPieces_pieces (segment : Placeholder → List Char)
    (parts : List (List Char × Placeholder)) (rest : List Char) {seen before : List Placeholder}
    (h : ∀ p, p ∈ seen ↔ p ∈ before) :
    fillPieces segment seen (Cut.mk parts rest).pieces =
      (parts.mapIdx fun i x =>
        x.1 ++ (if x.2 ∈ before ++ (parts.map Prod.snd).take i then x.2.mark.toList
          else segment x.2)).flatten ++ rest := by
  induction parts generalizing seen before with
  | nil => simpa [Cut.pieces, fillPieces] using fillPieces_chars segment seen rest []
  | cons x parts ih =>
    obtain ⟨x, p⟩ := x
    have hshift : ∀ i q, q ∈ before ++ (((x, p) :: parts).map Prod.snd).take (i + 1) ↔
        q ∈ (before ++ [p]) ++ (parts.map Prod.snd).take i := by simp
    rw [Cut.pieces_cons, fillPieces_chars, fillPieces, List.mapIdx_cons, List.flatten_cons]
    simp only [hshift, List.take_zero, List.append_nil, ← h p]
    by_cases hp : p ∈ seen
    · have hseen : ∀ q, q ∈ seen ↔ q ∈ before ++ [p] := by
        intro q
        rw [List.mem_append, List.mem_singleton, ← h q]
        exact ⟨.inl, fun hq => hq.elim id fun e => e ▸ hp⟩
      rw [if_pos hp, if_pos hp, ih hseen]
      simp
    · have hseen : ∀ q, q ∈ p :: seen ↔ q ∈ before ++ [p] := by
        intro q
        rw [List.mem_append, List.mem_singleton, ← h q, List.mem_cons, or_comm]
      rw [if_neg hp, if_neg hp, ih hseen]
      simp

theorem Cut.fillPieces_eq (segment : Placeholder → List Char) (c : Cut) :
    fillPieces segment [] c.pieces = c.filled segment := by
  obtain ⟨parts, rest⟩ := c
  exact fillPieces_pieces segment parts rest (fun p => (Iff.rfl : p ∈ [] ↔ p ∈ []))

theorem Cut.places_pieces (c : Cut) : MarketingForm.places c.pieces = c.places := by
  have hchars : ∀ s : List Char, MarketingForm.places (s.map Piece.char) = [] := by
    intro s
    simp [MarketingForm.places]
  obtain ⟨parts, rest⟩ := c
  induction parts with
  | nil => exact hchars rest
  | cons x parts ih =>
    simp only [Cut.pieces, MarketingForm.places, Cut.places] at ih hchars ⊢
    simp [List.filterMap_append, hchars, ih]

/-! ## Repetitions -/

/-- The placeholders of a list at whose place they occur for the second time. -/
def secondOccurrences (l : List Placeholder) : List Placeholder :=
  (l.mapIdx fun i p => if (l.take i).count p = 1 then [p] else []).flatten

/-- What is known behind some places: `seen` has the placeholders that occur there, `dup` those that
do so more than once. -/
structure Tally (seen dup before : List Placeholder) : Prop where
  seen : ∀ p, p ∈ seen ↔ 1 ≤ before.count p
  dup : ∀ p, p ∈ dup ↔ 2 ≤ before.count p

namespace Tally

variable {seen dup before : List Placeholder} {p : Placeholder}

theorem count_append_singleton (before : List Placeholder) (p q : Placeholder) :
    (before ++ [p]).count q = before.count q + if p = q then 1 else 0 := by
  rw [List.count_append, List.count_singleton]
  simp

theorem first (h : Tally seen dup before) (hp : p ∉ seen) :
    Tally (p :: seen) dup (before ++ [p]) := by
  have hzero := mt (h.seen p).2 hp
  constructor <;> intro q <;> rw [count_append_singleton]
  · rw [List.mem_cons, h.seen q]
    split
    · simp [*]
    · simp [*, eq_comm]
  · rw [h.dup q]
    split
    · subst q
      omega
    · omega

theorem second (h : Tally seen dup before) (hs : p ∈ seen) :
    Tally seen (p :: dup) (before ++ [p]) := by
  have hone := (h.seen p).1 hs
  constructor <;> intro q <;> rw [count_append_singleton]
  · rw [h.seen q]
    split
    · subst q
      omega
    · omega
  · rw [List.mem_cons, h.dup q]
    split
    · subst q
      simp only [true_or, true_iff]
      omega
    · simp [*, eq_comm]

theorem later (h : Tally seen dup before) (hd : p ∈ dup) : Tally seen dup (before ++ [p]) := by
  have htwo := (h.dup p).1 hd
  constructor <;> intro q <;> rw [count_append_singleton]
  · rw [h.seen q]
    split
    · subst q
      omega
    · omega
  · rw [h.dup q]
    split
    · subst q
      omega
    · omega

end Tally

theorem repeated_eq (l : List Placeholder) {seen dup before : List Placeholder}
    (h : Tally seen dup before) :
    repeated seen dup l = dup.reverse ++
      (l.mapIdx fun i p => if (before ++ l.take i).count p = 1 then [p] else []).flatten := by
  induction l generalizing seen dup before with
  | nil => simp [repeated]
  | cons p l ih =>
    have hshift : ∀ i q, (before ++ (p :: l).take (i + 1)).count q =
        ((before ++ [p]) ++ l.take i).count q := by simp
    have hseen := h.seen p
    have hdup := h.dup p
    rw [repeated, List.mapIdx_cons, List.flatten_cons]
    simp only [hshift, List.take_zero, List.append_nil]
    by_cases hs : p ∈ seen
    · by_cases hd : p ∈ dup
      · rw [if_pos hs, if_pos hd, ih (h.later hd), if_neg (by have := hdup.1 hd; omega),
          List.nil_append]
      · have hone : before.count p = 1 := by
          have := hseen.1 hs
          have := mt hdup.2 hd
          omega
        rw [if_pos hs, if_neg hd, ih (h.second hs), if_pos hone, List.reverse_cons,
          List.append_assoc]
    · rw [if_neg hs, ih (h.first hs), if_neg (by have := mt hseen.2 hs; omega), List.nil_append]

theorem repeated_eq_secondOccurrences (l : List Placeholder) :
    repeated [] [] l = secondOccurrences l := by
  have hnil : Tally [] [] [] := ⟨by simp, by simp⟩
  rw [repeated_eq l hnil]
  rfl

/-- A placeholder is among the second occurrences once, if it occurs twice or more. -/
theorem count_secondOccurrences_after (l before : List Placeholder) (p : Placeholder) :
    ((l.mapIdx fun i q => if (before ++ l.take i).count q = 1 then [q] else []).flatten).count p =
      if before.count p < 2 ∧ 2 ≤ before.count p + l.count p then 1 else 0 := by
  induction l generalizing before with
  | nil =>
    rw [List.mapIdx_nil, List.flatten_nil, List.count_nil, if_neg (by omega)]
  | cons q l ih =>
    have hshift : ∀ i r, (before ++ (q :: l).take (i + 1)).count r =
        ((before ++ [q]) ++ l.take i).count r := by simp
    rw [List.mapIdx_cons, List.flatten_cons, List.count_append]
    simp only [hshift, List.take_zero, List.append_nil, ih, Tally.count_append_singleton,
      List.count_cons, beq_iff_eq]
    by_cases hq : q = p
    · subst hq
      by_cases hone : before.count q = 1
      · rw [if_pos hone, List.count_singleton, if_pos (beq_self_eq_true q), if_pos rfl,
          if_neg (by omega), if_pos (by omega)]
      · rw [if_neg hone, List.count_nil, Nat.zero_add]
        simp only [if_true]
        congr 1
        simp only [eq_iff_iff]
        omega
    · have hhead : (if before.count q = 1 then [q] else []).count p = 0 := by
        rw [List.count_eq_zero]
        split <;> simp [Ne.symm hq]
      simp only [hhead, if_neg hq, Nat.add_zero, Nat.zero_add]

theorem count_secondOccurrences (l : List Placeholder) (p : Placeholder) :
    (secondOccurrences l).count p = if 2 ≤ l.count p then 1 else 0 := by
  have h := count_secondOccurrences_after l [] p
  rw [List.count_nil, Nat.zero_add] at h
  simpa [secondOccurrences] using h

/-! ## The composition of a cut -/

theorem pieces_of_cut {shell : String} {c : Cut} (hc : c.Complete) (h : c.whole = shell.toList) :
    pieces shell = c.pieces := by
  rw [← hc.piecesFrom_whole, h]
  rfl

/-- Composition is described by the complete cut of the shell. -/
theorem compose_of_cut {shell : String} {c : Cut} (hc : c.Complete) (h : c.whole = shell.toList)
    (title css : String) (fragments : List Markup) :
    compose shell title css fragments =
      { document := String.ofList (c.filled (segments title css fragments))
        missing := Placeholder.all.filter fun p => !c.places.contains p
        duplicates := secondOccurrences c.places } := by
  rw [compose_eq, pieces_of_cut hc h, c.places_pieces, c.fillPieces_eq,
    repeated_eq_secondOccurrences]

end MarketingForm
