import MarketingForm.LineDiff.Compact
import MarketingForm.LineDiff.Search
import Mathlib.Logic.Relation

/-!
# The two sides of a found script

However a script was searched and compacted, it leads from the old sequence to the new one: `search`
only ever keeps common ends, divides both sequences and replaces what is left, and each move of
`compact` trades runs that say the same (`Focus.Move.keeps`).
-/

namespace MarketingForm.LineDiff

variable {α : Type}

/-! ## Sides -/

namespace Script

@[simp] theorem oldSide_nil : oldSide ([] : Script α) = [] := rfl

@[simp] theorem newSide_nil : newSide ([] : Script α) = [] := rfl

@[simp] theorem oldSide_cons (r : Run α) (s : Script α) :
    oldSide (r :: s) = r.oldItems ++ oldSide s := rfl

@[simp] theorem newSide_cons (r : Run α) (s : Script α) :
    newSide (r :: s) = r.newItems ++ newSide s := rfl

@[simp] theorem oldSide_append (s r : Script α) : oldSide (s ++ r) = oldSide s ++ oldSide r :=
  List.flatMap_append

@[simp] theorem newSide_append (s r : Script α) : newSide (s ++ r) = newSide s ++ newSide r :=
  List.flatMap_append

/-- Two scripts have the same sides. -/
structure Same (s r : Script α) : Prop where
  old : oldSide s = oldSide r
  new : newSide s = newSide r

theorem Same.refl (s : Script α) : Same s s := ⟨rfl, rfl⟩

theorem Same.trans {s r q : Script α} (h : Same s r) (h' : Same r q) : Same s q :=
  ⟨h.old.trans h'.old, h.new.trans h'.new⟩

theorem Same.append {s s' r r' : Script α} (h : Same s s') (h' : Same r r') :
    Same (s ++ r) (s' ++ r') :=
  ⟨by rw [oldSide_append, oldSide_append, h.old, h'.old],
    by rw [newSide_append, newSide_append, h.new, h'.new]⟩

end Script

open Script

theorem oldSide_runOf (kind : RunKind) (items : List α) (n : Nat) :
    oldSide (runOf kind items n) = if kind = .add then [] else items := by
  unfold runOf
  cases items with
  | nil => simp
  | cons a items => simp [Run.oldItems]

theorem newSide_runOf (kind : RunKind) (items : List α) (n : Nat) :
    newSide (runOf kind items n) = if kind = .remove then [] else items := by
  unfold runOf
  cases items with
  | nil => simp
  | cons a items => simp [Run.newItems]

/-! ## Common ends -/

theorem append_drop_of_prefix {xs as : List α} (h : xs <+: as) : xs ++ as.drop xs.length = as := by
  obtain ⟨ys, rfl⟩ := h
  rw [List.drop_left]

theorem take_append_of_suffix {xs as : List α} (h : xs <:+ as) :
    as.take (as.length - xs.length) ++ xs = as := by
  obtain ⟨ys, rfl⟩ := h
  rw [List.length_append, Nat.add_sub_cancel, List.take_left]

theorem commonPrefix_prefix [DecidableEq α] (as bs : List α) :
    commonPrefix as bs <+: as ∧ commonPrefix as bs <+: bs := by
  fun_induction commonPrefix as bs with
  | case1 a as bs ih =>
    exact ⟨List.cons_prefix_cons.2 ⟨rfl, ih.1⟩, List.cons_prefix_cons.2 ⟨rfl, ih.2⟩⟩
  | case2 a as b bs h => exact ⟨List.nil_prefix, List.nil_prefix⟩
  | case3 as bs h => exact ⟨List.nil_prefix, List.nil_prefix⟩

theorem commonSuffix_suffix [DecidableEq α] (as bs : List α) :
    commonSuffix as bs <:+ as ∧ commonSuffix as bs <:+ bs := by
  obtain ⟨ha, hb⟩ := commonPrefix_prefix as.reverse bs.reverse
  unfold commonSuffix
  rw [← List.reverse_prefix, ← List.reverse_prefix, List.reverse_reverse]
  exact ⟨ha, hb⟩

/-! ## Searching -/

namespace Pair

/-- A script leads from one sequence of a pair to the other. -/
structure Solves (p : Pair α) (s : Script α) : Prop where
  old : oldSide s = p.old
  new : newSide s = p.new

theorem solves_replaceAll (p : Pair α) : p.Solves p.replaceAll := by
  constructor
  · simp [replaceAll, oldSide_runOf]
  · simp [replaceAll, newSide_runOf]

variable [DecidableEq α]

theorem solves_withCommonEnds {middle : Pair α → Script α} (h : ∀ q : Pair α, q.Solves (middle q))
    (p : Pair α) : p.Solves (withCommonEnds middle p) := by
  obtain ⟨hstart, hstart'⟩ := commonPrefix_prefix p.old p.new
  unfold withCommonEnds
  generalize commonPrefix p.old p.new = start at hstart hstart' ⊢
  obtain ⟨hstop, hstop'⟩ := commonSuffix_suffix (p.old.drop start.length) (p.new.drop start.length)
  have hold : (p.drop start.length start.length).old = p.old.drop start.length := rfl
  have hnew : (p.drop start.length start.length).new = p.new.drop start.length := rfl
  simp only [hold, hnew]
  generalize commonSuffix (p.old.drop start.length) (p.new.drop start.length) = stop
    at hstop hstop' ⊢
  constructor
  · rw [oldSide_append, oldSide_append, oldSide_runOf, oldSide_runOf, (h _).old, if_neg (by simp),
      if_neg (by simp), List.append_assoc]
    change start ++ (List.take _ (p.old.drop start.length) ++ stop) = p.old
    rw [take_append_of_suffix hstop, append_drop_of_prefix hstart]
  · rw [newSide_append, newSide_append, newSide_runOf, newSide_runOf, (h _).new, if_neg (by simp),
      if_neg (by simp), List.append_assoc]
    change start ++ (List.take _ (p.new.drop start.length) ++ stop) = p.new
    rw [take_append_of_suffix hstop', append_drop_of_prefix hstart']

theorem solves_searchTo (fuel : Nat) (p : Pair α) : p.Solves (searchTo fuel p) := by
  induction fuel generalizing p with
  | zero => exact solves_replaceAll p
  | succ fuel ih =>
    refine solves_withCommonEnds (fun q => ?_) p
    split
    · exact solves_replaceAll q
    · split
      · rename_i x y _
        constructor
        · rw [oldSide_append, (ih _).old, (ih _).old]
          exact List.take_append_drop x q.old
        · rw [newSide_append, (ih _).new, (ih _).new]
          exact List.take_append_drop y q.new
      · exact solves_replaceAll q

end Pair

theorem oldSide_search [DecidableEq α] (old new : List α) : oldSide (search old new) = old :=
  (Pair.solves_searchTo _ _).old

theorem newSide_search [DecidableEq α] (old new : List α) : newSide (search old new) = new :=
  (Pair.solves_searchTo _ _).new

/-! ## Compacting -/

theorem same_keepBefore (items : List α) (s : Script α) (n : Nat) :
    Same (keepBefore items s) (⟨.keep, items, n⟩ :: s) := by
  unfold keepBefore
  split
  · constructor <;> simp [Run.oldItems, Run.newItems]
  · constructor <;> simp [Run.oldItems, Run.newItems]

theorem same_keepBehind (items : List α) (s : Script α) (n : Nat) :
    Same (keepBehind items s).reverse (s.reverse ++ [⟨.keep, items, n⟩]) := by
  unfold keepBehind
  split
  · constructor <;> simp [Run.oldItems, Run.newItems]
  · constructor <;> simp [Run.oldItems, Run.newItems]

/-- A run that may be empty, or nothing in its place. -/
theorem same_unless_empty (r : Run α) (s : Script α) :
    Same (if r.items.isEmpty then s else r :: s) (r :: s) := by
  split
  · rename_i h
    rw [List.isEmpty_iff] at h
    constructor <;> simp [Run.oldItems, Run.newItems, h]
  · exact .refl _

theorem same_unless_empty_behind (r : Run α) (s : Script α) :
    Same (if r.items.isEmpty then s else r :: s).reverse (s.reverse ++ [r]) := by
  split
  · rename_i h
    rw [List.isEmpty_iff] at h
    constructor <;> simp [Run.oldItems, Run.newItems, h]
  · rw [List.reverse_cons]
    exact .refl _

/-- Neighbouring runs of one kind become one. -/
theorem same_merge {r q : Run α} (h : r.kind = q.kind) (n : Nat) (s : Script α) :
    Same (⟨r.kind, r.items ++ q.items, n⟩ :: s) (r :: q :: s) := by
  constructor
  · simp only [oldSide_cons, Run.oldItems, ← h]
    split <;> simp
  · simp only [newSide_cons, Run.newItems, ← h]
    split <;> simp

/-- Removed and added runs change places. -/
theorem same_swap {r q : Run α} (hr : r.kind ≠ .keep) (hq : q.kind ≠ .keep) (h : r.kind ≠ q.kind)
    (s : Script α) : Same (q :: r :: s) (r :: q :: s) := by
  obtain ⟨k, xs, n⟩ := r
  obtain ⟨l, ys, m⟩ := q
  cases k <;> cases l <;> first
    | exact absurd rfl hr
    | exact absurd rfl hq
    | exact absurd rfl h
    | exact ⟨by simp [Run.oldItems], by simp [Run.newItems]⟩

/-- An added run slides up over a common end. -/
theorem same_slide_up {r q : Run α} (hr : r.kind = .keep) (hq : q.kind = .add) {c : List α}
    (hc : c <:+ r.items) (hc' : c <:+ q.items) (n m : Nat) (s : Script α) :
    Same ({ r with items := r.items.take (r.items.length - c.length) } ::
      ⟨q.kind, c ++ q.items.take (q.items.length - c.length), n⟩ :: ⟨.keep, c, m⟩ :: s)
      (r :: q :: s) := by
  have hleft := take_append_of_suffix hc
  have hrest := take_append_of_suffix hc'
  constructor
  · simp only [oldSide_cons, Run.oldItems, hr, hq]
    simp only [reduceCtorEq, ↓reduceIte, List.nil_append]
    rw [← List.append_assoc, hleft]
  · simp only [newSide_cons, Run.newItems, hr, hq]
    simp only [reduceCtorEq, ↓reduceIte]
    conv => rhs; rw [← hleft, ← hrest]
    simp only [List.append_assoc]

/-- An added run slides down over a common start. -/
theorem same_slide_down {r q : Run α} (hr : r.kind = .keep) (hq : q.kind = .add) {c : List α}
    (hc : c <+: r.items) (hc' : c <+: q.items) (n m : Nat) (s : Script α) :
    Same (⟨.keep, c, m⟩ :: ⟨q.kind, q.items.drop c.length ++ c, n⟩ ::
      { r with items := r.items.drop c.length } :: s) (q :: r :: s) := by
  have hleft := append_drop_of_prefix hc
  have hrest := append_drop_of_prefix hc'
  constructor
  · simp only [oldSide_cons, Run.oldItems, hr, hq]
    simp only [reduceCtorEq, ↓reduceIte, List.nil_append]
    rw [← List.append_assoc, hleft]
  · simp only [newSide_cons, Run.newItems, hr, hq]
    simp only [reduceCtorEq, ↓reduceIte]
    conv => rhs; rw [← hleft, ← hrest]
    simp only [List.append_assoc]

namespace Focus

/-- The script in view. -/
def script (f : Focus α) : Script α := f.before.reverse ++ f.run :: f.after

/-- A step that keeps the sides and the kind of the run. -/
structure Keeps (f g : Focus α) : Prop where
  same : Same g.script f.script
  kind : g.run.kind = f.run.kind

theorem Keeps.refl (f : Focus α) : Keeps f f := ⟨.refl _, rfl⟩

theorem Keeps.trans {f g e : Focus α} (h : Keeps f g) (h' : Keeps g e) : Keeps f e :=
  ⟨h'.same.trans h.same, h'.kind.trans h.kind⟩

theorem script_cons (r : Run α) (before : List (Run α)) (run : Run α) (after : List (Run α)) :
    script ⟨r :: before, run, after⟩ = before.reverse ++ (r :: run :: after) := by
  simp [script]

/-! ### Moves -/

/-- How the run in view moves by one run: it slides along kept items, merges with a run of its kind or
changes places with a run of another kind. -/
inductive Move : Focus α → Focus α → Prop
  | slideUp (before after : List (Run α)) {r run : Run α} (hr : r.kind = .keep)
      (hrun : run.kind = .add) {c : List α} (hc : c <:+ r.items) (hc' : c <:+ run.items)
      (hne : c ≠ []) (n : Nat) :
      Move ⟨r :: before, run, after⟩
        ⟨if (r.items.take (r.items.length - c.length)).isEmpty then before
          else { r with items := r.items.take (r.items.length - c.length) } :: before,
          ⟨run.kind, c ++ run.items.take (run.items.length - c.length), n⟩, keepBefore c after⟩
  | mergeUp (before after : List (Run α)) {r run : Run α} (h : r.kind = run.kind) :
      Move ⟨r :: before, run, after⟩ ⟨before, { r with items := r.items ++ run.items }, after⟩
  | swapUp (before after : List (Run α)) {r run : Run α} (hr : r.kind ≠ .keep)
      (h : r.kind ≠ run.kind) : Move ⟨r :: before, run, after⟩ ⟨before, run, r :: after⟩
  | slideDown (before after : List (Run α)) {r run : Run α} (hr : r.kind = .keep)
      (hrun : run.kind = .add) {c : List α} (hc : c <+: r.items) (hc' : c <+: run.items)
      (hne : c ≠ []) (n : Nat) :
      Move ⟨before, run, r :: after⟩
        ⟨keepBehind c before, ⟨run.kind, run.items.drop c.length ++ c, n⟩,
          if (r.items.drop c.length).isEmpty then after
          else { r with items := r.items.drop c.length } :: after⟩
  | mergeDown (before after : List (Run α)) {r run : Run α} (h : r.kind = run.kind) :
      Move ⟨before, run, r :: after⟩ ⟨before, { run with items := run.items ++ r.items }, after⟩
  | swapDown (before after : List (Run α)) {r run : Run α} (hr : r.kind ≠ .keep)
      (h : r.kind ≠ run.kind) : Move ⟨before, run, r :: after⟩ ⟨r :: before, run, after⟩

/-- A move keeps what the script says. -/
theorem Move.keeps {f g : Focus α} (h : Move f g) (hf : f.run.kind ≠ .keep) : Keeps f g := by
  cases h with
  | @slideUp before after r run hr hrun c hc hc' hne n =>
    refine ⟨?_, rfl⟩
    rw [script_cons]
    let left : Run α := { r with items := r.items.take (r.items.length - c.length) }
    let slid : Run α := ⟨run.kind, c ++ run.items.take (run.items.length - c.length), n⟩
    have hbefore := same_unless_empty_behind left before
    have hafter := (Same.refl [slid]).append (same_keepBefore c after 0)
    have hslide := same_slide_up hr hrun hc hc' n 0 after
    have hboth := hbefore.append hafter
    rw [List.append_assoc] at hboth
    exact hboth.trans ((Same.refl _).append hslide)
  | @mergeUp before after r run h =>
    refine ⟨?_, h⟩
    rw [script_cons]
    exact (Same.refl _).append (same_merge h r.found after)
  | swapUp before after hr h =>
    refine ⟨?_, rfl⟩
    rw [script_cons]
    exact (Same.refl _).append (same_swap hr hf h after)
  | @slideDown before after r run hr hrun c hc hc' hne n =>
    refine ⟨?_, rfl⟩
    let left : Run α := { r with items := r.items.drop c.length }
    let slid : Run α := ⟨run.kind, run.items.drop c.length ++ c, n⟩
    have hbefore := same_keepBehind c before 0
    have hafter := (Same.refl [slid]).append (same_unless_empty left after)
    have hslide := same_slide_down hr hrun hc hc' n 0 after
    have hboth := hbefore.append hafter
    rw [List.append_assoc] at hboth
    exact hboth.trans ((Same.refl _).append hslide)
  | @mergeDown before after r run h =>
    exact ⟨(Same.refl _).append (same_merge h.symm run.found after), rfl⟩
  | swapDown before after hr h =>
    refine ⟨?_, rfl⟩
    rw [script_cons]
    exact (Same.refl _).append (same_swap hf hr h.symm after)

/-- The run in view moves any number of times. -/
abbrev Moves : Focus α → Focus α → Prop := Relation.ReflTransGen Move

theorem Moves.keeps {f g : Focus α} (h : Moves f g) (hf : f.run.kind ≠ .keep) : Keeps f g := by
  induction h with
  | refl => exact .refl f
  | tail _ hmove ih => exact ih.trans (hmove.keeps (ih.kind ▸ hf))

variable [DecidableEq α]

theorem moves_up (f : Focus α) (fuel : Nat) : Moves f (f.up fuel) := by
  induction fuel generalizing f with
  | zero => exact .refl
  | succ fuel ih =>
    obtain ⟨before, run, after⟩ := f
    cases before with
    | nil => exact .refl
    | cons prev before =>
      simp only [up]
      by_cases hkeep : prev.kind = .keep
      · rw [if_pos hkeep]
        by_cases hadd : run.kind = .add
        · rw [if_pos hadd]
          split
          · exact .refl
          · rename_i hcommon
            rw [List.isEmpty_iff] at hcommon
            obtain ⟨hprev, hrun⟩ := commonSuffix_suffix prev.items run.items
            exact .head (.slideUp before after hkeep hadd hprev hrun hcommon _) (ih _)
        · rw [if_neg hadd]
          exact .refl
      · rw [if_neg hkeep]
        by_cases hkind : prev.kind = run.kind
        · rw [if_pos hkind]
          exact .head (.mergeUp before after hkind) (ih _)
        · rw [if_neg hkind]
          exact .head (.swapUp before after hkeep hkind) (ih _)

theorem moves_down (f : Focus α) (fuel : Nat) : Moves f (f.down fuel) := by
  induction fuel generalizing f with
  | zero => exact .refl
  | succ fuel ih =>
    obtain ⟨before, run, after⟩ := f
    cases after with
    | nil => exact .refl
    | cons next after =>
      simp only [down]
      by_cases hkeep : next.kind = .keep
      · rw [if_pos hkeep]
        by_cases hadd : run.kind = .add
        · rw [if_pos hadd]
          split
          · exact .refl
          · rename_i hcommon
            rw [List.isEmpty_iff] at hcommon
            obtain ⟨hnext, hrun⟩ := commonPrefix_prefix next.items run.items
            exact .head (.slideDown before after hkeep hadd hnext hrun hcommon _) (ih _)
        · rw [if_neg hadd]
          exact .refl
      · rw [if_neg hkeep]
        by_cases hkind : next.kind = run.kind
        · rw [if_pos hkind]
          exact .head (.mergeDown before after hkind) (ih _)
        · rw [if_neg hkind]
          exact .head (.swapDown before after hkeep hkind) (ih _)

/-- A run settles by moves. -/
theorem moves_settle (f : Focus α) : Moves f f.settle := (moves_up f _).trans (moves_down _ _)

end Focus

variable [DecidableEq α]

theorem same_settleFrom {kind : RunKind} (hkind : kind ≠ .keep) (before after : List (Run α))
    (fuel : Nat) : Same (settleFrom kind before after fuel) (before.reverse ++ after) := by
  induction fuel generalizing before after with
  | zero => exact .refl _
  | succ fuel ih =>
    cases after with
    | nil =>
      rw [settleFrom, List.append_nil]
      exact .refl _
    | cons r after =>
      simp only [settleFrom]
      split
      · rename_i hr
        have hsettle := (Focus.moves_settle ⟨before, r, after⟩).keeps (hr ▸ hkind)
        have hrest := ih ((Focus.mk before r after).settle.run ::
          (Focus.mk before r after).settle.before) (Focus.mk before r after).settle.after
        rw [List.reverse_cons, List.append_assoc] at hrest
        exact hrest.trans hsettle.same
      · have hrest := ih (r :: before) after
        rw [List.reverse_cons, List.append_assoc] at hrest
        exact hrest

/-- A compacted script says the same. -/
theorem same_compact (s : Script α) : Same (compact s) s :=
  (same_settleFrom (by simp) [] _ _).trans (same_settleFrom (by simp) [] s _)

end MarketingForm.LineDiff
