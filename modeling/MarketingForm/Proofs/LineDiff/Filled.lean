import MarketingForm.Proofs.LineDiff.Hunks

/-!
# No empty runs

Every run of a found script has items, and compacting it leaves no empty run behind: what slides over
all items of a run takes the run away. So every change of a hunk has a line, and a hunk that is printed
with a context line at its start begins with kept lines.
-/

namespace MarketingForm.LineDiff

variable {α : Type}

/-- Every run has items. -/
def Filled (s : List (Run α)) : Prop := ∀ r ∈ s, r.items ≠ []

theorem filled_nil : Filled ([] : List (Run α)) := fun _ h => absurd h List.not_mem_nil

theorem filled_cons {r : Run α} {s : List (Run α)} : Filled (r :: s) ↔ r.items ≠ [] ∧ Filled s :=
  List.forall_mem_cons

theorem Filled.append {s r : List (Run α)} (hs : Filled s) (hr : Filled r) : Filled (s ++ r) :=
  List.forall_mem_append.2 ⟨hs, hr⟩

theorem Filled.reverse {s : List (Run α)} (hs : Filled s) : Filled s.reverse :=
  fun r hr => hs r (List.mem_reverse.1 hr)

theorem filled_runOf (kind : RunKind) (items : List α) (n : Nat) : Filled (runOf kind items n) := by
  unfold runOf
  split
  · exact filled_nil
  · rename_i h
    exact filled_cons.2 ⟨fun hnil => h (List.isEmpty_iff.2 hnil), filled_nil⟩

theorem filled_keepBefore {items : List α} (h : items ≠ []) {s : List (Run α)} (hs : Filled s) :
    Filled (keepBefore items s) := by
  unfold keepBefore
  split
  · obtain ⟨-, hs⟩ := filled_cons.1 hs
    exact filled_cons.2 ⟨List.append_ne_nil_of_left_ne_nil h _, hs⟩
  · exact filled_cons.2 ⟨h, hs⟩

theorem filled_keepBehind {items : List α} (h : items ≠ []) {s : List (Run α)} (hs : Filled s) :
    Filled (keepBehind items s) := by
  unfold keepBehind
  split
  · obtain ⟨-, hs⟩ := filled_cons.1 hs
    exact filled_cons.2 ⟨List.append_ne_nil_of_right_ne_nil _ h, hs⟩
  · exact filled_cons.2 ⟨h, hs⟩

theorem filled_unless_empty (r : Run α) {s : List (Run α)} (hs : Filled s) :
    Filled (if r.items.isEmpty then s else r :: s) := by
  split
  · exact hs
  · rename_i h
    exact filled_cons.2 ⟨fun hnil => h (List.isEmpty_iff.2 hnil), hs⟩

/-! ## Searching -/

theorem filled_replaceAll (p : Pair α) : Filled p.replaceAll :=
  (filled_runOf _ _ _).append (filled_runOf _ _ _)

section

variable [DecidableEq α]

theorem filled_withCommonEnds {middle : Pair α → Script α} (h : ∀ q, Filled (middle q)) (p : Pair α) :
    Filled (p.withCommonEnds middle) :=
  ((filled_runOf _ _ _).append (h _)).append (filled_runOf _ _ _)

theorem filled_searchTo (fuel : Nat) (p : Pair α) : Filled (p.searchTo fuel) := by
  induction fuel generalizing p with
  | zero => exact filled_replaceAll p
  | succ fuel ih =>
    refine filled_withCommonEnds (fun q => ?_) p
    split
    · exact filled_replaceAll q
    · split
      · exact (ih _).append (ih _)
      · exact filled_replaceAll q

end

/-! ## Compacting -/

namespace Focus

/-- Every run has items, the one in view too. -/
structure AllFilled (f : Focus α) : Prop where
  before : Filled f.before
  run : f.run.items ≠ []
  after : Filled f.after

theorem Move.allFilled {f g : Focus α} (h : Move f g) (hf : f.AllFilled) : g.AllFilled := by
  obtain ⟨hbefore, hrun, hafter⟩ := hf
  cases h with
  | @slideUp before after r run hr hadd c hc hc' hne n =>
    exact ⟨filled_unless_empty { r with items := r.items.take (r.items.length - c.length) }
        (filled_cons.1 hbefore).2,
      List.append_ne_nil_of_left_ne_nil hne _, filled_keepBefore hne hafter⟩
  | mergeUp before after h =>
    obtain ⟨hr, hbefore⟩ := filled_cons.1 hbefore
    exact ⟨hbefore, List.append_ne_nil_of_left_ne_nil hr _, hafter⟩
  | swapUp before after hr h =>
    obtain ⟨hr, hbefore⟩ := filled_cons.1 hbefore
    exact ⟨hbefore, hrun, filled_cons.2 ⟨hr, hafter⟩⟩
  | @slideDown before after r run hr hadd c hc hc' hne n =>
    exact ⟨filled_keepBehind hne hbefore, List.append_ne_nil_of_right_ne_nil _ hne,
      filled_unless_empty { r with items := r.items.drop c.length } (filled_cons.1 hafter).2⟩
  | mergeDown before after h =>
    exact ⟨hbefore, List.append_ne_nil_of_left_ne_nil hrun _, (filled_cons.1 hafter).2⟩
  | swapDown before after hr h =>
    obtain ⟨hr, hafter⟩ := filled_cons.1 hafter
    exact ⟨filled_cons.2 ⟨hr, hbefore⟩, hrun, hafter⟩

theorem Moves.allFilled {f g : Focus α} (h : Moves f g) (hf : f.AllFilled) : g.AllFilled := by
  induction h with
  | refl => exact hf
  | tail _ hmove ih => exact hmove.allFilled ih

end Focus

variable [DecidableEq α]

theorem filled_settleFrom (kind : RunKind) {before after : List (Run α)} (hbefore : Filled before)
    (hafter : Filled after) (fuel : Nat) : Filled (settleFrom kind before after fuel) := by
  induction fuel generalizing before after with
  | zero => exact hbefore.reverse.append hafter
  | succ fuel ih =>
    cases after with
    | nil => exact hbefore.reverse
    | cons r after =>
      obtain ⟨hr, hafter⟩ := filled_cons.1 hafter
      simp only [settleFrom]
      split
      · obtain ⟨hbefore', hr', hafter'⟩ :=
          (Focus.moves_settle ⟨before, r, after⟩).allFilled ⟨hbefore, hr, hafter⟩
        exact ih (filled_cons.2 ⟨hr', hbefore'⟩) hafter'
      · exact ih (filled_cons.2 ⟨hr, hbefore⟩) hafter

theorem filled_compact {s : Script α} (h : Filled s) : Filled (compact s) :=
  filled_settleFrom _ filled_nil (filled_settleFrom _ filled_nil h _) _

theorem filled_compact_search (old new : List α) : Filled (compact (search old new)) :=
  filled_compact (filled_searchTo _ _)

/-! ## Changes -/

theorem entries_ne_nil {s : Script (List Char)} (h : Filled s) : ∀ c ∈ changes s, c.entries ≠ [] := by
  induction s with
  | nil => exact fun _ h => absurd h List.not_mem_nil
  | cons r s ih =>
    obtain ⟨kind, xs, n⟩ := r
    obtain ⟨hxs, hs⟩ := filled_cons.1 h
    have hrest := ih hs
    simp only [changes]
    split
    all_goals simp_all [Change.entries]

theorem entries_firstLines_ne_nil {p : Placed} (h : p.change.entries ≠ []) :
    p.firstLines.change.entries ≠ [] := by
  obtain ⟨c, x, y⟩ := p
  cases c with
  | kept xs => simpa [Placed.firstLines, Change.entries, contextRadius] using h
  | removed | added | replaced => exact h

theorem entries_lastLines_ne_nil {p : Placed} (h : p.change.entries ≠ []) :
    p.lastLines.change.entries ≠ [] := by
  obtain ⟨c, x, y⟩ := p
  cases c with
  | kept xs =>
    have hxs : xs ≠ [] := fun hnil => h (by rw [Change.entries, hnil]; rfl)
    have hlength : xs.length - contextRadius < xs.length :=
      Nat.sub_lt (List.length_pos_iff.2 hxs) (by decide)
    simpa [Placed.lastLines, Change.entries] using hlength
  | removed | added | replaced => exact h

/-- Every change of a hunk has lines. -/
def Hunk.AllShow (h : Hunk) : Prop := ∀ p ∈ h, p.change.entries ≠ []

theorem allShow_placedFrom (x y : Nat) {cs : List Change} (h : ∀ c ∈ cs, c.entries ≠ []) :
    Hunk.AllShow (placedFrom x y cs) := by
  intro p hp
  refine h p.change ?_
  rw [← map_change_placedFrom x y cs]
  exact List.mem_map_of_mem hp

theorem allShow_trimStart {h : Hunk} (hshow : h.AllShow) : Hunk.AllShow (trimStart h) := by
  cases h with
  | nil => exact hshow
  | cons p h =>
    obtain ⟨hp, hh⟩ := List.forall_mem_cons.1 hshow
    exact List.forall_mem_cons.2 ⟨entries_lastLines_ne_nil hp, hh⟩

theorem allShow_trimStop {h : Hunk} (hshow : h.AllShow) : Hunk.AllShow (trimStop h) := by
  fun_induction trimStop h with
  | case1 => exact hshow
  | case2 p =>
    have hp : p.change.entries ≠ [] := hshow p (List.mem_singleton_self p)
    exact List.forall_mem_singleton.2 (entries_firstLines_ne_nil hp)
  | case3 p h _ ih =>
    obtain ⟨hp, hh⟩ := List.forall_mem_cons.1 hshow
    exact List.forall_mem_cons.2 ⟨hp, ih hh⟩

theorem allShow_divideHunks {hunk ps : Hunk} (hhunk : hunk.AllShow) (hps : ps.AllShow) :
    ∀ g ∈ divideHunks hunk ps, g.AllShow := by
  induction ps generalizing hunk with
  | nil => exact List.forall_mem_singleton.2 hhunk
  | cons p ps ih =>
    obtain ⟨hp, hps⟩ := List.forall_mem_cons.1 hps
    have happend {q : Placed} (hq : q.change.entries ≠ []) : Hunk.AllShow (hunk ++ [q]) :=
      List.forall_mem_append.2 ⟨hhunk, List.forall_mem_singleton.2 hq⟩
    rw [divideHunks]
    split
    · have hlast : Hunk.AllShow [p.lastLines] :=
        List.forall_mem_singleton.2 (entries_lastLines_ne_nil hp)
      exact List.forall_mem_cons.2 ⟨happend (entries_firstLines_ne_nil hp), ih hlast hps⟩
    · exact ih (happend hp) hps

theorem allShow_hunks {s : Script (List Char)} (h : Filled s) : ∀ g ∈ hunks s, g.AllShow := by
  intro g hg
  have hplaced := allShow_placedFrom 0 0 (entries_ne_nil h)
  exact allShow_divideHunks (List.forall_mem_nil _) (allShow_trimStop (allShow_trimStart hplaced)) g
    (List.mem_of_mem_filter hg)

/-! ## Context lines -/

/-- Only a kept change has kept lines. -/
theorem isKept_of_mem_entries {p : Placed} {l : List Char} (h : ⟨.keep, l⟩ ∈ p.change.entries) :
    p.isKept = true := by
  obtain ⟨c, x, y⟩ := p
  cases c with
  | kept xs => rfl
  | removed | added | replaced => simp [Change.entries] at h

theorem startsKept_of_entries {h : Hunk} (hshow : h.AllShow) {l : List Char}
    (hl : ⟨.keep, l⟩ ∈ h.entries.head?) : h.StartsKept := by
  cases h with
  | nil => cases hl
  | cons p h =>
    have hp : p.change.entries ≠ [] := hshow p List.mem_cons_self
    rw [Hunk.entries, List.flatMap_cons, List.head?_append_of_ne_nil _ hp] at hl
    exact ⟨p, rfl, isKept_of_mem_entries (List.mem_of_head? hl)⟩

theorem endsKept_of_entries {h : Hunk} (hshow : h.AllShow) {l : List Char}
    (hl : ⟨.keep, l⟩ ∈ h.entries.getLast?) : h.EndsKept := by
  rcases List.eq_nil_or_concat h with rfl | ⟨h, p, rfl⟩
  · cases hl
  · rw [List.concat_eq_append] at hshow hl ⊢
    have hp : p.change.entries ≠ [] := hshow p (List.mem_append_right _ (List.mem_singleton_self p))
    rw [Hunk.entries, List.flatMap_append, List.flatMap_singleton,
      List.getLast?_append_of_ne_nil _ hp] at hl
    exact ⟨p, List.getLast?_concat, isKept_of_mem_entries (List.mem_of_getLast? hl)⟩

theorem first_of_shows {hs : List Hunk} {cs : List Piece} (h : List.Forall₂ Shows hs cs) {g : Hunk}
    (hg : g ∈ hs.head?) : ∃ c ∈ cs.head?, Shows g c := by
  cases h with
  | nil => cases hg
  | cons hc _ => exact ⟨_, rfl, Option.some.inj hg ▸ hc⟩

theorem last_of_shows {hs : List Hunk} {cs : List Piece} (h : List.Forall₂ Shows hs cs) {g : Hunk}
    (hg : g ∈ hs.getLast?) : ∃ c ∈ cs.getLast?, Shows g c := by
  induction h with
  | nil => cases hg
  | @cons f c hs cs hc hrest ih =>
    cases hrest with
    | nil => exact ⟨c, rfl, Option.some.inj hg ▸ hc⟩
    | cons _ _ =>
      rw [List.getLast?_cons_cons] at hg ⊢
      exact ih hg

/-- A patch that begins with a kept line shows one in its first piece. -/
theorem head?_entries_of_prefix {c : Piece} {cs : List Piece} (hc : c ∈ cs.head?) {a b : Extent}
    {e : Entry} (h : [.head a b, .entry e] <+: shownLines cs) : e ∈ c.entries.head? := by
  cases cs with
  | nil => cases hc
  | cons d cs =>
    obtain rfl : d = c := Option.some.inj hc
    have hshown : shownLines (d :: cs) =
        .head d.old d.new :: (d.entries.map .entry ++ shownLines cs) := rfl
    rw [hshown, List.cons_prefix_cons] at h
    cases hentries : d.entries with
    | nil =>
      rw [hentries] at h
      cases cs with
      | nil => cases List.prefix_nil.1 h.2
      | cons f cs => cases (List.cons_prefix_cons.1 h.2).1
    | cons f es =>
      rw [hentries] at h
      cases (List.cons_prefix_cons.1 h.2).1
      rfl

theorem getLast?_entries {c : Piece} {cs : List Piece} (hc : c ∈ cs.getLast?) {e : Entry}
    (h : .entry e ∈ (shownLines cs).getLast?) : e ∈ c.entries.getLast? := by
  obtain ⟨cs, rfl⟩ := List.getLast?_eq_some_iff.1 hc
  have hshown : shownLines (cs ++ [c]) =
      shownLines cs ++ .head c.old c.new :: c.entries.map .entry := by
    simp [shownLines, Piece.shown]
  rw [hshown, List.getLast?_append_of_ne_nil _ (List.cons_ne_nil _ _)] at h
  rcases List.eq_nil_or_concat c.entries with hnil | ⟨es, f, hentries⟩
  · rw [hnil] at h
    cases h
  · rw [hentries, List.concat_eq_append, List.map_append, ← List.cons_append, List.map_singleton,
      List.getLast?_concat] at h
    cases h
    rw [hentries, List.concat_eq_append]
    exact List.getLast?_concat

/-- If a patch begins and ends with kept lines, all its hunks do. -/
theorem kept_of_contextAtEnds {hs : List Hunk} {cs : List Piece} (hshows : List.Forall₂ Shows hs cs)
    (hpairwise : hs.Pairwise fun g h => g.EndsKept ∧ h.StartsKept) (hshow : ∀ g ∈ hs, g.AllShow)
    (h : ContextAtEnds (shownLines cs)) : ∀ g ∈ hs, g.StartsKept ∧ g.EndsKept := by
  obtain ⟨⟨a, b, l, hstart⟩, m, hstop⟩ := h
  have hfirst : ∀ g ∈ hs.head?, g.StartsKept := by
    intro g hg
    obtain ⟨c, hc, hgc⟩ := first_of_shows hshows hg
    have hentries := head?_entries_of_prefix hc hstart
    rw [hgc.entries] at hentries
    exact startsKept_of_entries (hshow g (List.mem_of_head? hg)) hentries
  have hlast : ∀ g ∈ hs.getLast?, g.EndsKept := by
    intro g hg
    obtain ⟨c, hc, hgc⟩ := last_of_shows hshows hg
    have hentries := getLast?_entries hc hstop
    rw [hgc.entries] at hentries
    exact endsKept_of_entries (hshow g (List.mem_of_getLast? hg)) hentries
  exact fun g hg => kept_of_pairwise hpairwise hfirst hlast hg

end MarketingForm.LineDiff
