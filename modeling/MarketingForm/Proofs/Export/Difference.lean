import MarketingForm.Proofs.Export.Delivery
import MarketingForm.Proofs.LineDiff.Pieces

/-!
# What a diff says

A diff and a dry run decide in two ways whether an artifact is up to date, and agree, except on an
artifact that is not there and an empty document: the diff is empty, but the artifact would be written
(`difference_agrees_deliver`).

A diff that is not empty says in its hunks how the artifact becomes the document. Carried out as a patch
it does so, forwards and backwards, if and only if the heads of its hunks are right; the first one can be
wrong at its start and the last one at its end, where a hunk has no kept line
(`applyPatch_difference`).
-/

namespace MarketingForm

open Files LineDiff

/-! ## Up to date -/

theorem withUnixLines_eq_empty {document : String} : withUnixLines document = "" ↔ document = "" := by
  constructor
  · intro h
    have hnil : unixLines document.toList = [] := by
      rw [← String.ofList_inj]
      exact h
    rw [← String.toList_inj]
    revert hnil
    fun_cases unixLines document.toList with
    | case1 r => exact fun h => absurd h (List.cons_ne_nil _ _)
    | case2 c r => exact fun h => absurd h (List.cons_ne_nil _ _)
    | case3 => exact fun _ => rfl
  · rintro rfl
    rfl

/-- For every tree, document and target the diff and the dry run name the same path and leave the tree
alone. Both fail with the same error of the disk, or the diff is empty exactly if the artifact is found
unchanged; only an artifact that is not there counts as empty for the diff alone. -/
theorem difference_agrees_deliver (t : Tree) (document filename dir : String) :
    (∃ e, e ≠ .notFound ∧ t.text (join dir filename) = .error e ∧
      runOn t (difference document filename dir) = (.error (.io (join dir filename) e), t) ∧
      runOn t (deliver document filename dir true) = (.error (.io (join dir filename) e), t)) ∨
    ∃ diff outcome,
      runOn t (difference document filename dir) = (.ok ⟨join dir filename, diff⟩, t) ∧
      runOn t (deliver document filename dir true) = (.ok ⟨join dir filename, outcome⟩, t) ∧
      outcome ≠ .written ∧
      (t.text (join dir filename) = .error .notFound ∧ document = "" →
        diff = "" ∧ outcome = .wouldWrite) ∧
      (¬ (t.text (join dir filename) = .error .notFound ∧ document = "") →
        (diff = "" ↔ outcome = .unchanged)) := by
  rw [runOn_difference, runOn_deliver]
  unfold artifact
  cases htext : t.text (join dir filename) with
  | ok s =>
    refine .inr ⟨_, if withUnixLines s = withUnixLines document then .unchanged else .wouldWrite, rfl,
      ?_, ?_, ?_, ?_⟩
    · simp only [Option.some.injEq]
      split <;> rfl
    · split <;> simp
    · simp
    · intro _
      rw [diff_eq_empty, Option.getD_some]
      split <;> simp [*]
  | error e =>
    by_cases habsent : e = .notFound
    · subst habsent
      refine .inr ⟨_, .wouldWrite, rfl, by simp, by simp, ?_, ?_⟩
      · rintro ⟨-, rfl⟩
        exact ⟨rfl, rfl⟩
      · intro hdocument
        rw [diff_eq_empty, Option.getD_none, eq_comm, withUnixLines_eq_empty]
        refine iff_of_false (fun h => hdocument ⟨rfl, h⟩) (by simp)
    · simp only [if_neg habsent]
      exact .inl ⟨e, habsent, rfl, rfl, rfl⟩

theorem runOn_difference_of_ne {t : Tree} {document filename dir : String} {a : Option String}
    (ha : artifact t (join dir filename) = .ok a) (h : a.getD "" ≠ withUnixLines document) :
    runOn t (difference document filename dir) =
      (.ok ⟨join dir filename, unified filename (a.getD "") (withUnixLines document)⟩, t) := by
  rw [runOn_difference, ha]
  simp only [if_neg h]

/-! ## Carried out -/

/-- For every tree, document and target with a diff that is not empty: it is read back as a patch in
pieces that make up the artifact (the empty text in its place) on one side and the document on the
other. Carried out it leads from the artifact to the document, and back, if and only if the heads of the
pieces are right. They are if one of the texts is empty, or if the diff begins and ends with a kept
line. -/
theorem applyPatch_difference {t u : Tree} {document filename dir : String} {d : Difference}
    (h : runOn t (difference document filename dir) = (.ok d, u)) (hne : d.diff ≠ "") :
    ∃ a cs rest, artifact t (join dir filename) = .ok a ∧
      readPatch? filename d.diff = some (shownLines cs) ∧
      lines (a.getD "").toList = oldSides cs ++ rest ∧
      lines (withUnixLines document).toList = newSides cs ++ rest ∧
      (applyPatch filename d.diff (a.getD "") = some (withUnixLines document) ↔ HeadsRight 0 0 cs) ∧
      (revertPatch filename d.diff (withUnixLines document) = some (a.getD "") ↔
        HeadsRight 0 0 cs) ∧
      (a.getD "" = "" ∨ document = "" ∨ ContextAtEnds (shownLines cs) → HeadsRight 0 0 cs) := by
  rw [runOn_difference] at h
  cases ha : artifact t (join dir filename) with
  | error e =>
    rw [ha] at h
    cases h
  | ok a =>
    rw [ha] at h
    cases h
    have hdiff : a.getD "" ≠ withUnixLines document := fun h => hne (diff_eq_empty.2 h)
    simp only [if_neg hdiff] at hne ⊢
    obtain ⟨cs, rest, hread, hold, hnew, hlocate, hright⟩ := exists_pieces hne
    refine ⟨a, cs, rest, rfl, hread, hold, hnew, ?_, ?_, ?_⟩
    · rw [applyPatch, hread, Option.bind_some]
      exact applyLines_pieces hlocate hold hnew
    · rw [revertPatch, hread, Option.bind_some]
      exact applyLines_flip hlocate hold hnew
    · have hempty : withUnixLines document = "" ↔ document = "" := withUnixLines_eq_empty
      rw [hempty] at hright
      exact hright

/-- A tree with nothing but the artifact `out/f.html`. -/
def treeOfArtifact (text : String) : Tree :=
  .dir [("out".toList, .dir [("f.html".toList, .file text.toUTF8)])]

theorem applyPatch_difference_line :
    ∃ d, runOn (treeOfArtifact "a\r\nb\nc") (difference "a\nx\ny\nc" "f.html" "out") =
        (.ok d, treeOfArtifact "a\r\nb\nc") ∧ d.diff ≠ "" ∧
      applyPatch "f.html" d.diff "a\nb\nc" = some "a\nx\ny\nc" ∧
      revertPatch "f.html" d.diff "a\nx\ny\nc" = some "a\nb\nc" := by
  have hartifact : artifact (treeOfArtifact "a\r\nb\nc") (join "out" "f.html") =
      .ok (some "a\nb\nc") := rfl
  have hchanged : (some "a\nb\nc").getD "" ≠ withUnixLines "a\nx\ny\nc" := by decide
  have hrun := runOn_difference_of_ne hartifact hchanged
  rw [Option.getD_some] at hrun
  -- From here on only what has been computed of the diff is used.
  generalize hdiff : unified "f.html" "a\nb\nc" (withUnixLines "a\nx\ny\nc") = diff at hrun
  have hne : diff ≠ "" := by
    rw [← hdiff]
    decide +kernel
  have hpatch : readPatch? "f.html" diff =
      some [.head ⟨0, 3⟩ ⟨0, 4⟩, .entry ⟨.keep, "a\n".toList⟩, .entry ⟨.remove, "b\n".toList⟩,
        .entry ⟨.add, "x\n".toList⟩, .entry ⟨.add, "y\n".toList⟩, .entry ⟨.keep, "c".toList⟩] := by
    rw [← hdiff]
    decide +kernel
  obtain ⟨a, cs, rest, ha, hread, -, -, happly, hrevert, hright⟩ := applyPatch_difference hrun hne
  obtain rfl : some "a\nb\nc" = a := Except.ok.inj (hartifact.symm.trans ha)
  have hcontext : ContextAtEnds (shownLines cs) := by
    rw [← Option.some.inj (hpatch.symm.trans hread)]
    exact ⟨⟨_, _, _, List.prefix_append _ _⟩, _, rfl⟩
  have hheads := hright (.inr (.inr hcontext))
  exact ⟨_, hrun, hne, happly.2 hheads, hrevert.2 hheads⟩

/-- The diff from the lines `b a b b c b` to `b a b b b b c` ends with an added line, and its head says
four lines of the artifact where the hunk has five: it cannot be carried out either way. -/
theorem applyPatch_difference_differs :
    ∃ d, runOn (treeOfArtifact "b\na\nb\nb\nc\nb\n")
        (difference "b\na\nb\nb\nb\nb\nc\n" "f.html" "out") =
          (.ok d, treeOfArtifact "b\na\nb\nb\nc\nb\n") ∧
      artifact (treeOfArtifact "b\na\nb\nb\nc\nb\n") d.path = .ok (some "b\na\nb\nb\nc\nb\n") ∧
      d.diff = "--- a/f.html\n+++ b/f.html\n@@ -2,4 +2,6 @@\n a\n b\n b\n-c\n b\n+b\n+c\n" ∧
      applyPatch "f.html" d.diff "b\na\nb\nb\nc\nb\n" ≠ some "b\na\nb\nb\nb\nb\nc\n" ∧
      revertPatch "f.html" d.diff "b\na\nb\nb\nb\nb\nc\n" ≠ some "b\na\nb\nb\nc\nb\n" := by
  have hartifact : artifact (treeOfArtifact "b\na\nb\nb\nc\nb\n") (join "out" "f.html") =
      .ok (some "b\na\nb\nb\nc\nb\n") := rfl
  have hchanged : (some "b\na\nb\nb\nc\nb\n").getD "" ≠
      withUnixLines "b\na\nb\nb\nb\nb\nc\n" := by decide
  have hrun := runOn_difference_of_ne hartifact hchanged
  have hdiff : unified "f.html" "b\na\nb\nb\nc\nb\n" (withUnixLines "b\na\nb\nb\nb\nb\nc\n") =
      "--- a/f.html\n+++ b/f.html\n@@ -2,4 +2,6 @@\n a\n b\n b\n-c\n b\n+b\n+c\n" := by
    decide +kernel
  rw [Option.getD_some, hdiff] at hrun
  exact ⟨_, hrun, hartifact, rfl, by decide +kernel, by decide +kernel⟩

end MarketingForm
