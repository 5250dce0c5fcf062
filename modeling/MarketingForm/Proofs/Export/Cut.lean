import MarketingForm.Export.Composition

/-!
# Shells cut at their placeholders

A `Cut` is a text with places: what stands before each place, and what is left after the last one.
It is complete if no placeholder occurs in what stands around the places. A mark starts with two
braces and has no opening brace after them, so two occurrences never overlap; hence every text has
exactly one complete cut, which `pieces` finds.
-/

namespace MarketingForm

namespace Placeholder

/-- The mark without its opening braces. -/
def body (p : Placeholder) : List Char := p.mark.toList.drop 2

theorem toList_mark (p : Placeholder) : p.mark.toList = '\x7b' :: '\x7b' :: p.body := by
  cases p <;> decide

theorem brace_not_mem_body (p : Placeholder) : '\x7b' ∉ p.body := by cases p <;> decide

theorem body_ne_nil (p : Placeholder) : p.body ≠ [] := by cases p <;> decide

theorem eq_of_mark_prefix {p q : Placeholder} {s : List Char} (hp : p.mark.toList <+: s)
    (hq : q.mark.toList <+: s) : p = q := by
  have hpq : p.mark.toList <+: q.mark.toList ∨ q.mark.toList <+: p.mark.toList :=
    List.prefix_or_prefix_of_prefix hp hq
  revert hpq
  cases p <;> cases q <;> decide

end Placeholder

theorem placeholderAt_eq_some {s : List Char} {p : Placeholder} :
    placeholderAt s = some p ↔ p.mark.toList <+: s := by
  have hsome : ∀ q, placeholderAt s = some q → q.mark.toList <+: s := by
    intro q hq
    have := List.find?_some (p := fun q : Placeholder => q.mark.toList.isPrefixOf s) hq
    exact List.isPrefixOf_iff_prefix.1 this
  refine ⟨hsome p, fun h => ?_⟩
  cases hfind : placeholderAt s with
  | none =>
    have := List.find?_eq_none.1 hfind p p.mem_all
    exact absurd (List.isPrefixOf_iff_prefix.2 h) this
  | some q => rw [Placeholder.eq_of_mark_prefix (hsome q hfind) h]

theorem placeholderAt_eq_none {s : List Char} :
    placeholderAt s = none ↔ ∀ p : Placeholder, ¬ p.mark.toList <+: s := by
  rw [Option.eq_none_iff_forall_ne_some]
  exact forall_congr' fun p => not_congr placeholderAt_eq_some

/-! ## Occurrences -/

/-- No placeholder occurs in a text. -/
def Unmarked (s : List Char) : Prop := ∀ p : Placeholder, ¬ p.mark.toList <:+: s

/-- At how many places of a text a placeholder starts. -/
def occurrences (p : Placeholder) : List Char → Nat
  | [] => 0
  | c :: r => (if p.mark.toList <+: c :: r then 1 else 0) + occurrences p r

theorem unmarked_nil : Unmarked [] := by
  intro p hp
  rw [List.infix_nil, p.toList_mark] at hp
  cases hp

theorem Unmarked.tail {c : Char} {s : List Char} (h : Unmarked (c :: s)) : Unmarked s :=
  fun p hp => h p (List.infix_cons hp)

theorem unmarked_cons {c : Char} {s : List Char} (h : placeholderAt (c :: s) = none)
    (hs : Unmarked s) : Unmarked (c :: s) := by
  intro p hp
  rcases List.infix_cons_iff.1 hp with hp | hp
  · exact placeholderAt_eq_none.1 h p hp
  · exact hs p hp

theorem occurrences_pos {p : Placeholder} {s : List Char} :
    0 < occurrences p s ↔ p.mark.toList <:+: s := by
  induction s with
  | nil => simp [occurrences, p.toList_mark]
  | cons c r ih =>
    rw [occurrences, List.infix_cons_iff, ← ih]
    by_cases h : p.mark.toList <+: c :: r
    · simp only [h, ↓reduceIte, true_or, iff_true]
      omega
    · simp [h]

/-- A word without `c` that starts a text ends before the first `c`. -/
theorem prefix_of_prefix_append_cons {b y t : List Char} {c : Char} (hc : c ∉ b)
    (h : b <+: y ++ c :: t) : b <+: y := by
  induction y generalizing b with
  | nil =>
    cases b with
    | nil => exact List.nil_prefix
    | cons d b =>
      obtain ⟨rfl, -⟩ := List.cons_prefix_cons.1 h
      exact absurd List.mem_cons_self hc
  | cons d y ih =>
    cases b with
    | nil => exact List.nil_prefix
    | cons e b =>
      obtain ⟨rfl, hb⟩ := List.cons_prefix_cons.1 h
      exact List.cons_prefix_cons.2 ⟨rfl, ih (fun hmem => hc (List.mem_cons_of_mem _ hmem)) hb⟩

/-- A text that is over or starts with a mark. -/
def AtPlace (r : List Char) : Prop :=
  r = [] ∨ ∃ (q : Placeholder) (t : List Char), r = q.mark.toList ++ t

theorem atPlace_nil : AtPlace [] := Or.inl rfl

theorem atPlace_mark (p : Placeholder) (r : List Char) : AtPlace (p.mark.toList ++ r) :=
  Or.inr ⟨p, r, rfl⟩

/-- What follows a text, if it is a mark, takes no part in an occurrence that starts in the text. -/
theorem mark_prefix_of_append {p : Placeholder} {y r : List Char} (hy : y ≠ []) (hr : AtPlace r)
    (h : p.mark.toList <+: y ++ r) : p.mark.toList <+: y := by
  rcases hr with rfl | ⟨q, t, rfl⟩
  · rwa [List.append_nil] at h
  simp only [q.toList_mark, p.toList_mark, List.cons_append] at h
  rw [p.toList_mark]
  have hb := p.brace_not_mem_body
  obtain ⟨c, y, rfl⟩ := List.exists_cons_of_ne_nil hy
  rw [List.cons_append, List.cons_prefix_cons] at h
  obtain ⟨rfl, h⟩ := h
  cases y with
  | nil =>
    -- the second brace of `p` would be the first one of `q`, and its name would start with a brace
    rw [List.nil_append, List.cons_prefix_cons] at h
    have hnil := prefix_of_prefix_append_cons (y := []) hb h.2
    exact absurd (List.prefix_nil.1 hnil) p.body_ne_nil
  | cons d y =>
    rw [List.cons_append, List.cons_prefix_cons] at h
    obtain ⟨rfl, h⟩ := h
    simp only [List.cons_prefix_cons, true_and]
    exact prefix_of_prefix_append_cons hb h

theorem placeholderAt_append {c : Char} {x r : List Char} (hx : Unmarked (c :: x))
    (hr : AtPlace r) : placeholderAt (c :: (x ++ r)) = none :=
  placeholderAt_eq_none.2 fun p h =>
    hx p (mark_prefix_of_append (List.cons_ne_nil c x) hr h).isInfix

theorem occurrences_append {x r : List Char} (hx : Unmarked x) (hr : AtPlace r) (p : Placeholder) :
    occurrences p (x ++ r) = occurrences p r := by
  induction x with
  | nil => rfl
  | cons c x ih =>
    have hnone := placeholderAt_eq_none.1 (placeholderAt_append hx hr) p
    rw [List.cons_append, occurrences, if_neg hnone, Nat.zero_add, ih hx.tail]

theorem occurrences_append_of_not_mem {b : List Char} (hb : '\x7b' ∉ b) (p : Placeholder)
    (r : List Char) : occurrences p (b ++ r) = occurrences p r := by
  induction b with
  | nil => rfl
  | cons c b ih =>
    rw [List.mem_cons, not_or] at hb
    have hnone : ¬ p.mark.toList <+: c :: (b ++ r) := by
      rw [p.toList_mark]
      exact fun h => hb.1 (List.cons_prefix_cons.1 h).1
    rw [List.cons_append, occurrences, if_neg hnone, Nat.zero_add, ih hb.2]

theorem occurrences_mark (p q : Placeholder) (r : List Char) :
    occurrences p (q.mark.toList ++ r) = (if q = p then 1 else 0) + occurrences p r := by
  have hfirst : p.mark.toList <+: q.mark.toList ++ r ↔ q = p := by
    constructor
    · exact fun h => Placeholder.eq_of_mark_prefix (List.prefix_append _ _) h
    · rintro rfl
      exact List.prefix_append _ _
  have hsecond : ¬ p.mark.toList <+: '\x7b' :: (q.body ++ r) := by
    rw [p.toList_mark]
    intro h
    obtain ⟨c, b, hc⟩ := List.exists_cons_of_ne_nil q.body_ne_nil
    rw [hc, List.cons_append] at h
    obtain ⟨rfl, -⟩ := List.cons_prefix_cons.1 (List.cons_prefix_cons.1 h).2
    exact q.brace_not_mem_body (hc ▸ List.mem_cons_self)
  rw [q.toList_mark] at hfirst ⊢
  simp only [List.cons_append] at hfirst ⊢
  rw [occurrences, occurrences, if_neg hsecond, Nat.zero_add,
    occurrences_append_of_not_mem q.brace_not_mem_body]
  simp only [hfirst]

/-! ## Cuts -/

/-- A text cut at some places. -/
structure Cut where
  /-- What stands between the place before and each place, with the placeholder there. -/
  parts : List (List Char × Placeholder)
  /-- What stands after the last place. -/
  rest : List Char

namespace Cut

/-- The text that was cut. -/
def whole (c : Cut) : List Char :=
  c.parts.flatMap (fun x => x.1 ++ x.2.mark.toList) ++ c.rest

/-- The placeholders in order. -/
def places (c : Cut) : List Placeholder := c.parts.map Prod.snd

/-- No placeholder is left in what stands around the places. -/
structure Complete (c : Cut) : Prop where
  parts : ∀ x ∈ c.parts, Unmarked x.1
  rest : Unmarked c.rest

/-- The cut as pieces. -/
def pieces (c : Cut) : List Piece :=
  c.parts.flatMap (fun x => x.1.map .char ++ [.place x.2]) ++ c.rest.map .char

/-- The cut that pieces make. -/
def ofPieces : List Piece → Cut
  | [] => ⟨[], []⟩
  | .char c :: r =>
    match ofPieces r with
    | ⟨[], rest⟩ => ⟨[], c :: rest⟩
    | ⟨x :: parts, rest⟩ => ⟨(c :: x.1, x.2) :: parts, rest⟩
  | .place p :: r =>
    let d := ofPieces r
    ⟨([], p) :: d.parts, d.rest⟩

theorem pieces_cons (x : List Char) (p : Placeholder) (parts : List (List Char × Placeholder))
    (rest : List Char) : (Cut.mk ((x, p) :: parts) rest).pieces =
      x.map .char ++ .place p :: (Cut.mk parts rest).pieces := by
  simp [pieces]

theorem ofPieces_pieces (c : Cut) : ofPieces c.pieces = c := by
  obtain ⟨parts, rest⟩ := c
  have hrest : ofPieces (rest.map .char) = ⟨[], rest⟩ := by
    induction rest with
    | nil => rfl
    | cons c r ih => rw [List.map_cons, ofPieces, ih]
  have hpart : ∀ (x : List Char) (p : Placeholder) (r : List Piece),
      ofPieces (x.map .char ++ .place p :: r) =
        ⟨(x, p) :: (ofPieces r).parts, (ofPieces r).rest⟩ := by
    intro x p r
    induction x with
    | nil => rfl
    | cons c x ih => rw [List.map_cons, List.cons_append, ofPieces, ih]
  induction parts with
  | nil => exact hrest
  | cons x parts ih =>
    obtain ⟨x, p⟩ := x
    rw [pieces_cons, hpart, ih]

theorem whole_cons (x : List Char) (p : Placeholder) (parts : List (List Char × Placeholder))
    (rest : List Char) : (Cut.mk ((x, p) :: parts) rest).whole =
      x ++ (p.mark.toList ++ (Cut.mk parts rest).whole) := by
  simp [whole]

theorem Complete.tail {x : List Char × Placeholder} {parts : List (List Char × Placeholder)}
    {rest : List Char} (h : (Cut.mk (x :: parts) rest).Complete) : (Cut.mk parts rest).Complete :=
  ⟨fun y hy => h.parts y (List.mem_cons_of_mem _ hy), h.rest⟩

/-- A complete cut has a place for every occurrence. -/
theorem Complete.count_places {c : Cut} (h : c.Complete) (p : Placeholder) :
    c.places.count p = occurrences p c.whole := by
  obtain ⟨parts, rest⟩ := c
  induction parts with
  | nil =>
    have hrest := occurrences_append h.rest atPlace_nil p
    rw [List.append_nil] at hrest
    exact hrest.symm
  | cons x parts ih =>
    obtain ⟨x, q⟩ := x
    have hx : Unmarked x := h.parts (x, q) List.mem_cons_self
    rw [whole_cons, occurrences_append hx (atPlace_mark q _), occurrences_mark, ← ih h.tail]
    simp only [places, List.map_cons, List.count_cons, beq_iff_eq]
    omega

theorem Complete.mem_places {c : Cut} (h : c.Complete) {p : Placeholder} :
    p ∈ c.places ↔ p.mark.toList <:+: c.whole := by
  rw [← List.count_pos_iff, h.count_places, occurrences_pos]

end Cut

/-! ## Finding the cut -/

theorem piecesFrom_eq_drop (n : Nat) (s : List Char) :
    piecesFrom n s = piecesFrom 0 (s.drop n) := by
  induction n generalizing s with
  | zero => rfl
  | succ n ih =>
    cases s with
    | nil => rfl
    | cons c s => rw [piecesFrom, ih, List.drop_succ_cons]

theorem piecesFrom_mark (p : Placeholder) (r : List Char) :
    piecesFrom 0 (p.mark.toList ++ r) = .place p :: piecesFrom 0 r := by
  have hat : placeholderAt (p.mark.toList ++ r) = some p :=
    placeholderAt_eq_some.2 (List.prefix_append _ _)
  have hlen : p.mark.length = p.body.length + 2 := by
    rw [← String.length_toList, p.toList_mark]
    rfl
  rw [p.toList_mark, List.cons_append] at hat ⊢
  rw [piecesFrom, hat]
  simp only [hlen]
  rw [piecesFrom_eq_drop, List.cons_append, show p.body.length + 2 - 1 = p.body.length + 1 by omega,
    List.drop_succ_cons, List.drop_left]

theorem piecesFrom_append {x r : List Char} (hx : Unmarked x) (hr : AtPlace r) :
    piecesFrom 0 (x ++ r) = x.map .char ++ piecesFrom 0 r := by
  induction x with
  | nil => rfl
  | cons c x ih =>
    rw [List.cons_append, piecesFrom, placeholderAt_append hx hr]
    simp only [ih hx.tail, List.map_cons, List.cons_append]

/-- A text falls into the pieces of its complete cut. -/
theorem Cut.Complete.piecesFrom_whole {c : Cut} (h : c.Complete) :
    piecesFrom 0 c.whole = c.pieces := by
  obtain ⟨parts, rest⟩ := c
  induction parts with
  | nil =>
    have hrest := piecesFrom_append h.rest atPlace_nil
    rwa [List.append_nil, piecesFrom, List.append_nil] at hrest
  | cons x parts ih =>
    obtain ⟨x, p⟩ := x
    have hx : Unmarked x := h.parts (x, p) List.mem_cons_self
    rw [whole_cons, piecesFrom_append hx (atPlace_mark p _), piecesFrom_mark, ih h.tail,
      pieces_cons]

/-- A text without placeholders, or one that is cut at its first placeholder. -/
theorem unmarked_or_first (s : List Char) :
    Unmarked s ∨ ∃ (x : List Char) (p : Placeholder) (r : List Char),
      s = x ++ (p.mark.toList ++ r) ∧ Unmarked x := by
  induction s with
  | nil => exact .inl unmarked_nil
  | cons c s ih =>
    cases hat : placeholderAt (c :: s) with
    | some p =>
      right
      obtain ⟨r, hr⟩ := placeholderAt_eq_some.1 hat
      exact ⟨[], p, r, hr.symm, unmarked_nil⟩
    | none =>
      rcases ih with hs | ⟨x, p, r, rfl, hx⟩
      · exact .inl (unmarked_cons hat hs)
      · refine .inr ⟨c :: x, p, r, rfl, unmarked_cons ?_ hx⟩
        refine placeholderAt_eq_none.2 fun q hq => placeholderAt_eq_none.1 hat q ?_
        exact hq.trans (List.prefix_append (c :: x) _)

theorem exists_cut (s : List Char) : ∃ c : Cut, c.whole = s ∧ c.Complete := by
  rcases unmarked_or_first s with hs | ⟨x, p, r, hs, hx⟩
  · exact ⟨⟨[], s⟩, rfl, ⟨by simp, hs⟩⟩
  · have hlt : r.length < s.length := by
      simp only [hs, p.toList_mark, List.length_append, List.length_cons]
      omega
    obtain ⟨c, rfl, hc⟩ := exists_cut r
    refine ⟨⟨(x, p) :: c.parts, c.rest⟩, ?_, ⟨?_, hc.rest⟩⟩
    · rw [Cut.whole_cons, hs]
    · rintro y (_ | ⟨_, hy⟩)
      · exact hx
      · exact hc.parts y hy
termination_by s.length

/-- Two complete cuts of one text are the same. -/
theorem Cut.Complete.eq {c d : Cut} (hc : c.Complete) (hd : d.Complete) (h : c.whole = d.whole) :
    c = d := by
  have hpieces : c.pieces = d.pieces := by
    rw [← hc.piecesFrom_whole, ← hd.piecesFrom_whole, h]
  rw [← Cut.ofPieces_pieces c, hpieces, Cut.ofPieces_pieces]

end MarketingForm
