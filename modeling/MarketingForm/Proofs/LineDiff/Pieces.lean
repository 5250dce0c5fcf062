import MarketingForm.Proofs.LineDiff.Filled
import MarketingForm.Proofs.LineDiff.Printed

/-!
# The pieces of a diff

A diff of two texts is read back as a patch in pieces that make up both texts. Each head tells where its
hunk stands in one of the texts at least. All heads are right if one of the texts is empty, or if the
diff begins and ends with a kept line (`exists_pieces`).
-/

namespace MarketingForm.LineDiff

/-! ## One text is empty -/

section

variable {α : Type} [DecidableEq α]

theorem search_nil_left (new : List α) : search [] new = runOf .add new 0 := by
  simp [search, Pair.searchTo, Pair.withCommonEnds, Pair.drop, Pair.take, Pair.replaceAll, commonPrefix,
    commonSuffix, runOf]

theorem search_nil_right (old : List α) : search old [] = runOf .remove old 0 := by
  cases old <;>
    simp [search, Pair.searchTo, Pair.withCommonEnds, Pair.drop, Pair.take, Pair.replaceAll,
      commonPrefix, commonSuffix, runOf]

theorem settleAll_singleton (kind : RunKind) (r : Run α) : settleAll kind [r] = [r] := by
  have hextent : 2 ≤ extent [r] + 1 := by simp [extent]
  have hfuel : 2 ≤ (extent [r] + 1) * (extent [r] + 1) :=
    Nat.le_trans hextent (Nat.le_mul_of_pos_right _ (Nat.succ_pos _))
  obtain ⟨n, hn⟩ := Nat.exists_eq_add_of_le' hfuel
  rw [settleAll, hn, settleFrom]
  split
  · rfl
  · rfl

/-- A single run stays as it is. -/
theorem compact_singleton (r : Run α) : compact [r] = [r] := by
  rw [compact, settleAll_singleton, settleAll_singleton]

end

/-- The head of a single hunk with a single change is right if the change begins both texts. -/
theorem headsRight_singleton {p : Placed} {cs : List Piece} (hshows : List.Forall₂ Shows [[p]] cs)
    (hgap : oldSides cs = [] ∨ newSides cs = []) (hold : p.oldRange = ⟨0, p.oldLines.length⟩)
    (hnew : p.newRange = ⟨0, p.newLines.length⟩) : HeadsRight 0 0 cs := by
  obtain ⟨c, _, hc, hnil, rfl⟩ := List.forall₂_cons_left_iff.1 hshows
  obtain rfl := List.forall₂_nil_left_iff.1 hnil
  have hgap : c.gap = [] := by
    rcases hgap with h | h
    · exact (List.append_eq_nil_iff.1 (List.append_eq_nil_iff.1 h).1).1
    · exact (List.append_eq_nil_iff.1 (List.append_eq_nil_iff.1 h).1).1
  obtain ⟨hentries, first, hfirst, last, hlast, ha, hb⟩ := hc
  obtain rfl : p = first := Option.some.inj hfirst
  obtain rfl : p = last := Option.some.inj hlast
  rw [HeadsRight, ha, hb, hentries, hgap, Hunk.oldLines_entries, Hunk.newLines_entries, hold, hnew]
  simp [LineRange.upTo, LineRange.extent, HeadsRight]

theorem headsRight_of_nil {old new : List (List Char)} (h : old = [] ∨ new = []) {cs : List Piece}
    (hshows : List.Forall₂ Shows (hunks (compact (search old new))) cs)
    {rest : List (List Char)} (hold : old = oldSides cs ++ rest) (hnew : new = newSides cs ++ rest) :
    HeadsRight 0 0 cs := by
  have hgap : oldSides cs = [] ∨ newSides cs = [] := by
    rcases h with rfl | rfl
    · exact .inl (List.append_eq_nil_iff.1 hold.symm).1
    · exact .inr (List.append_eq_nil_iff.1 hnew.symm).1
  rcases h with rfl | rfl
  · rw [search_nil_left] at hshows
    cases new with
    | nil =>
      rw [List.forall₂_nil_left_iff.1 hshows]
      exact trivial
    | cons l new =>
      have hhunks : hunks [⟨.add, l :: new, 0⟩] = [[⟨.added (l :: new) 0, 0, 0⟩]] := rfl
      rw [runOf, if_neg (by simp), compact_singleton, hhunks] at hshows
      exact headsRight_singleton hshows hgap rfl (congrArg (LineRange.mk 0) (Nat.zero_add _))
  · rw [search_nil_right] at hshows
    cases old with
    | nil =>
      rw [List.forall₂_nil_left_iff.1 hshows]
      exact trivial
    | cons l old =>
      have hhunks : hunks [⟨.remove, l :: old, 0⟩] = [[⟨.removed (l :: old) 0, 0, 0⟩]] := rfl
      rw [runOf, if_neg (by simp), compact_singleton, hhunks] at hshows
      exact headsRight_singleton hshows hgap (congrArg (LineRange.mk 0) (Nat.zero_add _)) rfl

/-! ## The diff -/

theorem exists_pieces {filename old new : String} (h : unified filename old new ≠ "") :
    ∃ cs rest, readPatch? filename (unified filename old new) = some (shownLines cs) ∧
      lines old.toList = oldSides cs ++ rest ∧ lines new.toList = newSides cs ++ rest ∧
      HeadsLocate 0 0 cs ∧
      (old = "" ∨ new = "" ∨ ContextAtEnds (shownLines cs) → HeadsRight 0 0 cs) := by
  let s := compact (search (lines old.toList) (lines new.toList))
  have hsame := same_compact (search (lines old.toList) (lines new.toList))
  have hstand := stand_hunks s
  rw [hsame.old, hsame.new, oldSide_search, newSide_search] at hstand
  have hne : ∀ g ∈ hunks s, g ≠ [] := by
    rintro g hg rfl
    simp [hunks] at hg
  obtain ⟨cs, rest, hshows, hold, hnew, hlocate, hright⟩ := pieces_of_stand hstand hne
  have hprinted : Printed ((hunks s).flatMap hunkText) (shownLines cs) := by
    refine printed_hunks hshows (fun l hl => ?_) (fun l hl => ?_)
    · exact isLine_of_mem_lines (hold ▸ List.mem_append_left rest hl)
    · exact isLine_of_mem_lines (hnew ▸ List.mem_append_left rest hl)
  have htext : (unified filename old new).toList = fileHead filename ++ (hunks s).flatMap hunkText := by
    unfold unified at h ⊢
    simp only [] at h ⊢
    split at h
    · exact absurd rfl h
    · rename_i hempty
      rw [if_neg hempty, String.toList_append, String.toList_ofList]
      rfl
  refine ⟨cs, rest, ?_, hold, hnew, hlocate, ?_⟩
  · rw [readPatch?, htext, if_pos (List.prefix_append _ _), List.drop_left, hprinted.read]
  · rintro (rfl | rfl | hcontext)
    · exact headsRight_of_nil (.inl rfl) hshows hold hnew
    · exact headsRight_of_nil (.inr rfl) hshows hold hnew
    · have hshow := allShow_hunks (filled_compact_search (lines old.toList) (lines new.toList))
      exact hright (kept_of_contextAtEnds hshows (pairwise_hunks s) hshow hcontext)

end MarketingForm.LineDiff
