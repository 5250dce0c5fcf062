import MarketingForm.LineDiff.Unified
import MarketingForm.Proofs.LineDiff.Sides

/-!
# Empty diffs

A unified diff is empty only for equal texts: it has a hunk for every change that is more than kept
lines, and if all lines of both texts are kept, the texts are the same.
-/

namespace MarketingForm.LineDiff

open Script

theorem flatten_lines (s : List Char) : (lines s).flatten = s := by
  fun_induction lines s with
  | case1 => rfl
  | case2 r ih => rw [List.flatten_cons, ih]; rfl
  | case3 c r _ _ ih => rw [List.flatten_cons, ih]; rfl
  | case4 c _ d r l ls _ hls ih =>
    simp only [hls] at ih ⊢
    rw [List.flatten_cons] at ih
    rw [List.flatten_cons, List.cons_append, ih]
  | case5 c r _ hend hnone ih =>
    cases r with
    | nil => rfl
    | cons d r =>
      cases hls : lines (d :: r) with
      | nil =>
        rw [hls] at ih
        cases ih
      | cons l ls => exact absurd hls (fun h => hnone d r l ls rfl h)

/-! ## Changes -/

namespace Change

/-- The lines of the old text in a change. -/
def oldLines : Change → List (List Char)
  | kept xs => xs
  | removed xs _ => xs
  | added _ _ => []
  | replaced ds _ => ds

/-- The lines of the new text in a change. -/
def newLines : Change → List (List Char)
  | kept xs => xs
  | removed _ _ => []
  | added xs _ => xs
  | replaced _ as => as

def isKept : Change → Bool
  | kept _ => true
  | _ => false

end Change

theorem lines_changes (s : Script (List Char)) :
    (changes s).flatMap Change.oldLines = oldSide s ∧
      (changes s).flatMap Change.newLines = newSide s := by
  induction s with
  | nil => exact ⟨rfl, rfl⟩
  | cons r s ih =>
    obtain ⟨kind, xs, n⟩ := r
    rw [oldSide_cons, newSide_cons, ← ih.1, ← ih.2]
    simp only [changes]
    split <;> simp [Change.oldLines, Change.newLines, Run.oldItems, Run.newItems, *]

/-- If every change keeps its lines, the sides are the same. -/
theorem sides_eq_of_kept {s : Script (List Char)} (h : ∀ c ∈ changes s, c.isKept = true) :
    oldSide s = newSide s := by
  obtain ⟨hold, hnew⟩ := lines_changes s
  rw [← hold, ← hnew, List.flatMap_def, List.flatMap_def]
  congr 1
  refine List.map_congr_left fun c hc => ?_
  cases c with
  | kept xs => rfl
  | removed | added | replaced => cases h _ hc

/-! ## Hunks -/

theorem map_change_placedFrom (x y : Nat) (cs : List Change) :
    (placedFrom x y cs).map Placed.change = cs := by
  induction cs generalizing x y with
  | nil => rfl
  | cons c cs ih =>
    simp only [placedFrom, List.map_cons, ih]

theorem isKept_firstLines (p : Placed) : p.firstLines.isKept = p.isKept := by
  unfold Placed.firstLines Placed.isKept
  cases h : p.change <;> simp [h]

theorem isKept_lastLines (p : Placed) : p.lastLines.isKept = p.isKept := by
  unfold Placed.lastLines Placed.isKept
  cases h : p.change <;> simp [h]

theorem Placed.isKept_of_isLong {p : Placed} (h : p.isLong = true) : p.isKept = true := by
  obtain ⟨c, x, y⟩ := p
  cases c with
  | kept xs => rfl
  | removed | added | replaced => cases h

theorem map_isKept_trimStart (ps : List Placed) :
    (trimStart ps).map Placed.isKept = ps.map Placed.isKept := by
  cases ps with
  | nil => rfl
  | cons p ps => rw [trimStart, List.map_cons, List.map_cons, isKept_lastLines]

theorem map_isKept_trimStop (ps : List Placed) :
    (trimStop ps).map Placed.isKept = ps.map Placed.isKept := by
  fun_induction trimStop ps with
  | case1 => rfl
  | case2 p => rw [List.map_singleton, List.map_singleton, isKept_firstLines]
  | case3 p ps _ ih => rw [List.map_cons, List.map_cons, ih]

/-- A change that is no kept one stands in some hunk. -/
theorem exists_mem_divideHunks {p : Placed} (hp : p.isKept = false) (hunk : Hunk)
    (ps : List Placed) (h : p ∈ hunk ∨ p ∈ ps) : ∃ g ∈ divideHunks hunk ps, p ∈ g := by
  induction ps generalizing hunk with
  | nil =>
    rw [divideHunks]
    exact ⟨hunk, List.mem_singleton_self _, h.resolve_right List.not_mem_nil⟩
  | cons q ps ih =>
    rw [divideHunks]
    split
    · rename_i hlong
      have hpq : p ≠ q := by
        rintro rfl
        rw [Placed.isKept_of_isLong hlong] at hp
        cases hp
      rcases h with h | h
      · exact ⟨hunk ++ [q.firstLines], List.mem_cons_self, List.mem_append_left _ h⟩
      · have hps : p ∈ ps := (List.mem_cons.1 h).resolve_left hpq
        obtain ⟨g, hg, hpg⟩ := ih [q.lastLines] (.inr hps)
        exact ⟨g, List.mem_cons_of_mem _ hg, hpg⟩
    · refine ih (hunk ++ [q]) ?_
      rw [List.mem_append, List.mem_singleton]
      rcases h with h | h
      · exact .inl (.inl h)
      · exact (List.mem_cons.1 h).elim (fun e => .inl (.inr e)) .inr

theorem kept_of_hunks_eq_nil {s : Script (List Char)} (h : hunks s = []) :
    ∀ c ∈ changes s, c.isKept = true := by
  have hplaced : (trimStop (trimStart (placedFrom 0 0 (changes s)))).map Placed.isKept =
      (changes s).map Change.isKept := by
    have hchange := map_change_placedFrom 0 0 (changes s)
    rw [map_isKept_trimStop, map_isKept_trimStart, ← congrArg (List.map Change.isKept) hchange,
      List.map_map]
    rfl
  have hall : ∀ b ∈ (changes s).map Change.isKept, b = true := by
    rw [← hplaced]
    intro b hb
    obtain ⟨p, hp, rfl⟩ := List.mem_map.1 hb
    cases hkept : p.isKept with
    | true => rfl
    | false =>
      obtain ⟨g, hg, hpg⟩ := exists_mem_divideHunks hkept [] _ (.inr hp)
      have hnone := List.filter_eq_nil_iff.1 h g hg
      simp only [Bool.not_eq_true', Bool.not_eq_false, List.all_eq_true] at hnone
      rw [← hkept, hnone p hpg]
  exact fun c hc => hall _ (List.mem_map_of_mem hc)

/-- Only equal texts have an empty diff. -/
theorem eq_of_unified_eq_empty {filename old new : String} (h : unified filename old new = "") :
    old = new := by
  unfold unified at h
  have hhunks : hunks (compact (search (lines old.toList) (lines new.toList))) = [] := by
    rw [← List.isEmpty_iff]
    by_cases hempty : (hunks (compact (search (lines old.toList) (lines new.toList)))).isEmpty
    · exact hempty
    · simp [hempty] at h
  have hsides := sides_eq_of_kept (kept_of_hunks_eq_nil hhunks)
  have hsame := same_compact (search (lines old.toList) (lines new.toList))
  rw [hsame.old, hsame.new, oldSide_search, newSide_search] at hsides
  rw [← String.toList_inj, ← flatten_lines old.toList, hsides, flatten_lines]

/-- What is shown between two texts is empty exactly if they are the same. -/
theorem diff_eq_empty {filename old new : String} :
    (if old = new then "" else unified filename old new) = "" ↔ old = new := by
  split
  · rename_i h
    exact ⟨fun _ => h, fun _ => rfl⟩
  · rename_i h
    exact ⟨fun hempty => eq_of_unified_eq_empty hempty, fun heq => absurd heq h⟩

end MarketingForm.LineDiff
