import MarketingForm.Proofs.Export.Composition

/-!
# Composition as a loop

A sweep looks for every placeholder in what is left of the shell and takes the leftmost find. It
copies what stands before the find and goes on behind it. A placeholder that is still pending is
filled and crossed off; one that is not stays as it is and is noted as a duplicate, once.

Each round of `Sweep.run` consumes one part of the complete cut of the shell (`leftmost_mark`), so
the loop ends with what `compose` says (`compose_eq_run`).
-/

namespace MarketingForm

/-- Where a placeholder occurs first. -/
def firstAt (p : Placeholder) : List Char → Option Nat
  | [] => none
  | c :: r => if p.mark.toList <+: c :: r then some 0 else (firstAt p r).map (· + 1)

/-- Where each placeholder that occurs does so first. -/
def finds (s : List Char) : List (Nat × Placeholder) :=
  Placeholder.all.filterMap fun p => (firstAt p s).map fun i => (i, p)

/-- The first of the finds that are leftmost. -/
def leftmost (s : List Char) : Option (Nat × Placeholder) :=
  match finds s with
  | [] => none
  | x :: l => some (l.foldl (fun x y => if y.1 < x.1 then y else x) x)

/-- A composition under way. -/
structure Sweep where
  /-- What is left of the shell. -/
  rest : List Char
  pending : List Placeholder
  duplicates : List Placeholder
  /-- What has been written. -/
  document : List Char

namespace Sweep

/-- Goes on behind a find. -/
def pass (segment : Placeholder → List Char) (σ : Sweep) (i : Nat) (p : Placeholder) : Sweep :=
  if p ∈ σ.pending then
    { rest := σ.rest.drop (i + p.mark.length)
      pending := σ.pending.erase p
      duplicates := σ.duplicates
      document := σ.document ++ (σ.rest.take i ++ segment p) }
  else
    { rest := σ.rest.drop (i + p.mark.length)
      pending := σ.pending
      duplicates := if p ∈ σ.duplicates then σ.duplicates else σ.duplicates ++ [p]
      document := σ.document ++ (σ.rest.take i ++ p.mark.toList) }

theorem pass_rest (segment : Placeholder → List Char) (σ : Sweep) (i : Nat) (p : Placeholder) :
    (σ.pass segment i p).rest = σ.rest.drop (i + p.mark.length) := by
  unfold pass
  split <;> rfl

theorem ne_nil_of_leftmost {s : List Char} {x : Nat × Placeholder} (h : leftmost s = some x) :
    s ≠ [] := by
  rintro rfl
  cases h

theorem pass_rest_lt (segment : Placeholder → List Char) {σ : Sweep} {i : Nat} {p : Placeholder}
    (h : leftmost σ.rest = some (i, p)) : (σ.pass segment i p).rest.length < σ.rest.length := by
  have hne : 0 < σ.rest.length := List.length_pos_iff.2 (ne_nil_of_leftmost h)
  have hmark : 0 < p.mark.length := by cases p <;> decide
  rw [pass_rest, List.length_drop]
  omega

/-- The loop. -/
def run (segment : Placeholder → List Char) (σ : Sweep) : Composition :=
  match _h : leftmost σ.rest with
  | none =>
    { document := String.ofList (σ.document ++ σ.rest)
      missing := σ.pending
      duplicates := σ.duplicates }
  | some (i, p) => run segment (σ.pass segment i p)
termination_by σ.rest.length
decreasing_by exact pass_rest_lt segment _h

theorem run_none {segment : Placeholder → List Char} {σ : Sweep} (h : leftmost σ.rest = none) :
    σ.run segment = ⟨String.ofList (σ.document ++ σ.rest), σ.pending, σ.duplicates⟩ := by
  rw [run]
  split
  · rfl
  · rename_i h'
    rw [h] at h'
    cases h'

theorem run_some {segment : Placeholder → List Char} {σ : Sweep} {i : Nat} {p : Placeholder}
    (h : leftmost σ.rest = some (i, p)) : σ.run segment = (σ.pass segment i p).run segment := by
  rw [run]
  split
  · rename_i h'
    rw [h] at h'
    cases h'
  · rename_i h'
    rw [h] at h'
    cases h'
    rfl

end Sweep

/-! ## The leftmost find -/

theorem firstAt_eq_none {p : Placeholder} {s : List Char} (h : ¬ p.mark.toList <:+: s) :
    firstAt p s = none := by
  induction s with
  | nil => rfl
  | cons c s ih =>
    rw [List.infix_cons_iff, not_or] at h
    rw [firstAt, if_neg h.1, ih h.2, Option.map_none]

theorem firstAt_append {x r : List Char} (hx : Unmarked x) (hr : AtPlace r) (p : Placeholder) :
    firstAt p (x ++ r) = (firstAt p r).map (· + x.length) := by
  induction x with
  | nil => simp
  | cons c x ih =>
    have hnone := placeholderAt_eq_none.1 (placeholderAt_append hx hr) p
    rw [List.cons_append, firstAt, if_neg hnone, ih hx.tail, Option.map_map]
    rfl

theorem firstAt_eq_zero {p : Placeholder} {s : List Char} (h : s ≠ []) :
    firstAt p s = some 0 ↔ p.mark.toList <+: s := by
  obtain ⟨c, s, rfl⟩ := List.exists_cons_of_ne_nil h
  rw [firstAt]
  split <;> simp [*]

theorem leftmost_eq_none {s : List Char} (h : Unmarked s) : leftmost s = none := by
  have hfinds : finds s = [] := by
    unfold finds
    rw [List.filterMap_eq_nil_iff]
    intro p _
    rw [firstAt_eq_none (h p), Option.map_none]
  unfold leftmost
  rw [hfinds]

/-- What is strictly smaller than everything else wins. -/
theorem foldl_eq_of_lt {z : Nat × Placeholder} {l : List (Nat × Placeholder)}
    {x : Nat × Placeholder} (hz : z ∈ x :: l) (h : ∀ y ∈ x :: l, y = z ∨ z.1 < y.1) :
    l.foldl (fun x y => if y.1 < x.1 then y else x) x = z := by
  induction l generalizing x with
  | nil => exact (List.mem_singleton.1 hz).symm
  | cons y l ih =>
    rw [List.foldl_cons]
    have hx := h x List.mem_cons_self
    have hy := h y (List.mem_cons_of_mem _ List.mem_cons_self)
    have hl : ∀ w ∈ l, w = z ∨ z.1 < w.1 := fun w hw => h w (by simp [hw])
    split
    · rename_i hlt
      refine ih ?_ (List.forall_mem_cons.2 ⟨hy, hl⟩)
      rcases List.mem_cons.1 hz with rfl | hz
      · rcases hy with rfl | hy <;> omega
      · exact hz
    · rename_i hlt
      refine ih ?_ (List.forall_mem_cons.2 ⟨hx, hl⟩)
      rcases List.mem_cons.1 hz with rfl | hz
      · exact List.mem_cons_self
      · rcases List.mem_cons.1 hz with rfl | hz
        · rcases hx with rfl | hx
          · exact List.mem_cons_self
          · omega
        · exact List.mem_cons_of_mem _ hz

/-- The leftmost find is the end of the first part of a cut. -/
theorem leftmost_mark {x : List Char} (hx : Unmarked x) (p : Placeholder) (r : List Char) :
    leftmost (x ++ (p.mark.toList ++ r)) = some (x.length, p) := by
  have hfirst : ∀ q, firstAt q (x ++ (p.mark.toList ++ r)) =
      (firstAt q (p.mark.toList ++ r)).map (· + x.length) :=
    firstAt_append hx (atPlace_mark p r)
  have hne : p.mark.toList ++ r ≠ [] := by simp [p.toList_mark]
  have hself : firstAt p (p.mark.toList ++ r) = some 0 :=
    (firstAt_eq_zero hne).2 (List.prefix_append _ _)
  have hmem : (x.length, p) ∈ finds (x ++ (p.mark.toList ++ r)) := by
    refine List.mem_filterMap.2 ⟨p, p.mem_all, ?_⟩
    rw [hfirst, hself]
    simp
  have hothers : ∀ y ∈ finds (x ++ (p.mark.toList ++ r)), y = (x.length, p) ∨ x.length < y.1 := by
    intro y hy
    obtain ⟨q, -, hq⟩ := List.mem_filterMap.1 hy
    rw [hfirst, Option.map_map, Option.map_eq_some_iff] at hq
    obtain ⟨n, hn, rfl⟩ := hq
    rcases Nat.eq_zero_or_pos n with rfl | hpos
    · left
      have hqp := (firstAt_eq_zero hne).1 hn
      rw [Placeholder.eq_of_mark_prefix hqp (List.prefix_append _ _)]
      simp
    · right
      simp only [Function.comp_apply]
      omega
  unfold leftmost
  cases hl : finds (x ++ (p.mark.toList ++ r)) with
  | nil =>
    rw [hl] at hmem
    cases hmem
  | cons y l =>
    rw [hl] at hmem hothers
    exact congrArg some (foldl_eq_of_lt hmem hothers)

/-! ## The whole sweep -/

/-- The placeholders that are not in a list. -/
def without (l : List Placeholder) : List Placeholder :=
  Placeholder.all.filter fun p => !l.contains p

theorem mem_without {l : List Placeholder} {p : Placeholder} : p ∈ without l ↔ p ∉ l := by
  unfold without
  simp [p.mem_all]

theorem without_congr {l m : List Placeholder} (h : ∀ p, p ∈ l ↔ p ∈ m) :
    without l = without m := by
  refine List.filter_congr fun p _ => ?_
  rw [List.contains_eq_mem, List.contains_eq_mem, decide_eq_decide.2 (h p)]

theorem without_of_mem {l : List Placeholder} {p : Placeholder} (h : p ∈ l)
    (m : List Placeholder) : without (l ++ p :: m) = without (l ++ m) := by
  refine without_congr fun q => ?_
  simp only [List.mem_append, List.mem_cons]
  constructor
  · rintro (hl | rfl | hm)
    · exact .inl hl
    · exact .inl h
    · exact .inr hm
  · rintro (hl | hm)
    · exact .inl hl
    · exact .inr (.inr hm)

theorem without_middle (l : List Placeholder) (p : Placeholder) (m : List Placeholder) :
    without (l ++ p :: m) = without (p :: l ++ m) := by
  refine without_congr fun q => ?_
  simp only [List.mem_append, List.mem_cons, or_assoc, or_left_comm]

theorem erase_without (l : List Placeholder) (p : Placeholder) :
    (without l).erase p = without (p :: l) := by
  have hnodup : (without l).Nodup := List.Pairwise.filter _ (by decide)
  unfold without at hnodup ⊢
  rw [hnodup.erase_eq_filter, List.filter_filter]
  refine List.filter_congr fun q _ => ?_
  rw [List.contains_cons, Bool.not_or]
  rfl

namespace Sweep

/-- A sweep over a completely cut text, when the placeholders in `seen` are no longer pending. -/
theorem run_whole (segment : Placeholder → List Char) (parts : List (List Char × Placeholder))
    (rest : List Char) (hc : (Cut.mk parts rest).Complete) (seen dup : List Placeholder)
    (document : List Char) :
    run segment ⟨(Cut.mk parts rest).whole, without seen, dup.reverse, document⟩ =
      { document := String.ofList (document ++ fillPieces segment seen (Cut.mk parts rest).pieces)
        missing := without (seen ++ (Cut.mk parts rest).places)
        duplicates := repeated seen dup (Cut.mk parts rest).places } := by
  induction parts generalizing seen dup document with
  | nil =>
    rw [run_none (leftmost_eq_none hc.rest)]
    have hfill := fillPieces_chars segment seen rest []
    rw [List.append_nil, fillPieces, List.append_nil] at hfill
    simp [Cut.whole, Cut.pieces, Cut.places, repeated, hfill]
  | cons x parts ih =>
    obtain ⟨x, p⟩ := x
    have hx : Unmarked x := hc.parts (x, p) List.mem_cons_self
    have hdrop : (x ++ (p.mark.toList ++ (Cut.mk parts rest).whole)).drop
        (x.length + p.mark.length) = (Cut.mk parts rest).whole := by
      rw [← String.length_toList, List.drop_length_add_append, List.drop_left]
    have hplaces : (Cut.mk ((x, p) :: parts) rest).places = p :: (Cut.mk parts rest).places := rfl
    rw [Cut.whole_cons, run_some (leftmost_mark hx p _), pass, hdrop, List.take_left,
      Cut.pieces_cons, hplaces, fillPieces_chars, fillPieces, repeated]
    simp only [mem_without, List.mem_reverse]
    by_cases hseen : p ∈ seen
    · rw [if_neg (fun h => h hseen), if_pos hseen, if_pos hseen, without_of_mem hseen]
      by_cases hdup : p ∈ dup
      · rw [if_pos hdup, if_pos hdup, ih hc.tail]
        simp
      · rw [if_neg hdup, if_neg hdup, ← List.reverse_cons, ih hc.tail]
        simp
    · rw [if_pos hseen, if_neg hseen, if_neg hseen, without_middle, erase_without, ih hc.tail]
      simp

/-- A sweep before its first round. -/
def start (shell : String) : Sweep := ⟨shell.toList, Placeholder.all, [], []⟩

end Sweep

theorem compose_eq_run (shell title css : String) (fragments : List Markup) :
    compose shell title css fragments =
      (Sweep.start shell).run (segments title css fragments) := by
  obtain ⟨c, hwhole, hc⟩ := exists_cut shell.toList
  have hrun := Sweep.run_whole (segments title css fragments) c.parts c.rest hc [] [] []
  rw [List.nil_append, List.nil_append, List.reverse_nil] at hrun
  unfold Sweep.start
  rw [compose_eq, pieces_of_cut hc hwhole, c.places_pieces, ← hwhole]
  exact hrun.symm

/-- Composition is one simultaneous substitution, described by the one complete cut of the shell:
the first occurrence of each placeholder is filled and every later one stays. What is missing and
what is duplicated depends on the shell alone. The loop ends with the same result. -/
theorem compose_substitution (shell title css : String) (fragments : List Markup) :
    ∃ c : Cut, c.Complete ∧ c.whole = shell.toList ∧
      (∀ d : Cut, d.Complete → d.whole = shell.toList → d = c) ∧
      (∀ p, c.places.count p = occurrences p shell.toList) ∧
      (compose shell title css fragments).document.toList =
        c.filled (segments title css fragments) ∧
      (compose shell title css fragments).missing =
        Placeholder.all.filter (fun p => occurrences p shell.toList = 0) ∧
      (∀ p, p ∈ (compose shell title css fragments).missing ↔
        ¬ p.mark.toList <:+: shell.toList) ∧
      (compose shell title css fragments).duplicates = secondOccurrences c.places ∧
      (∀ p, (compose shell title css fragments).duplicates.count p =
        if 2 ≤ occurrences p shell.toList then 1 else 0) ∧
      (∀ (title' css' : String) (fragments' : List Markup),
        (compose shell title' css' fragments').missing =
          (compose shell title css fragments).missing ∧
        (compose shell title' css' fragments').duplicates =
          (compose shell title css fragments).duplicates) ∧
      (Sweep.start shell).run (segments title css fragments) =
        compose shell title css fragments := by
  obtain ⟨c, hwhole, hc⟩ := exists_cut shell.toList
  have hcompose := compose_of_cut hc hwhole
  have hcount : ∀ p, c.places.count p = occurrences p shell.toList := by
    intro p
    rw [hc.count_places, hwhole]
  have hmissing : (Placeholder.all.filter fun p => !c.places.contains p) =
      Placeholder.all.filter (fun p => occurrences p shell.toList = 0) := by
    refine List.filter_congr fun p _ => ?_
    rw [List.contains_eq_mem, ← decide_not, decide_eq_decide, ← hcount, List.count_eq_zero]
  refine ⟨c, hc, hwhole, fun d hd h => hd.eq hc (h.trans hwhole.symm), hcount, ?_, ?_, ?_, ?_, ?_,
    ?_, (compose_eq_run shell title css fragments).symm⟩
  · rw [hcompose, String.toList_ofList]
  · rw [hcompose, hmissing]
  · intro p
    rw [hcompose, List.mem_filter, ← hwhole, ← hc.mem_places]
    simp [Placeholder.mem_all]
  · rw [hcompose]
  · intro p
    rw [hcompose, count_secondOccurrences, hcount]
  · intro title' css' fragments'
    rw [hcompose, hcompose]
    exact ⟨rfl, rfl⟩

end MarketingForm
