import MarketingForm.Export.Delivery
import MarketingForm.Export.Filename
import MarketingForm.Proofs.Files.Follow
import MarketingForm.Proofs.LineDiff.Unified

/-!
# Delivering twice

A delivered document is read back with its line ends replaced once more. That second replacement
finds something if and only if the document has a carriage return before a carriage return and a
line feed: then the artifact never agrees with the document, and each delivery writes it again.
-/

namespace MarketingForm

open Files

/-! ## Line ends -/

theorem not_crlf_prefix {c : Char} {r : List Char}
    (h : ∀ r', c = '\r' → r = '\n' :: r' → False) : ¬ ['\r', '\n'] <+: c :: r := by
  rintro ⟨r', hr⟩
  cases hr
  exact h r' rfl rfl

theorem unixLines_eq_self (s : List Char) : unixLines s = s ↔ ¬ ['\r', '\n'] <:+: s := by
  fun_induction unixLines s with
  | case1 r ih =>
    constructor
    · intro h
      cases h
    · intro h
      exact absurd (List.prefix_append ['\r', '\n'] r).isInfix h
  | case2 c r hcr ih =>
    have hstart := not_crlf_prefix hcr
    rw [List.cons.injEq, eq_self, true_and, ih, List.infix_cons_iff, not_or]
    exact ⟨fun h => ⟨hstart, h⟩, fun h => h.2⟩
  | case3 => simp

theorem newline_prefix_unixLines (s : List Char) :
    ['\n'] <+: unixLines s ↔ ['\n'] <+: s ∨ ['\r', '\n'] <+: s := by
  fun_cases unixLines s with
  | case1 r => simp
  | case2 c r hcr =>
    have hstart := not_crlf_prefix hcr
    simp [hstart, List.cons_prefix_cons]
  | case3 => simp

theorem crlf_infix_unixLines (s : List Char) :
    ['\r', '\n'] <:+: unixLines s ↔ ['\r', '\r', '\n'] <:+: s := by
  fun_induction unixLines s with
  | case1 r ih => simp [List.infix_cons_iff, ih, List.cons_prefix_cons]
  | case2 c r hcr ih =>
    have hstart : ['\r', '\n'] <+: c :: unixLines r ↔ ['\r', '\r', '\n'] <+: c :: r := by
      rw [List.cons_prefix_cons, List.cons_prefix_cons, newline_prefix_unixLines]
      refine and_congr_right fun hc => ?_
      subst hc
      have hfeed : ¬ ['\n'] <+: r := by
        rintro ⟨r', rfl⟩
        exact hcr r' rfl rfl
      exact or_iff_right hfeed
    rw [List.infix_cons_iff, List.infix_cons_iff, ih, hstart]
  | case3 => simp

/-- Line ends are replaced for good unless a carriage return comes before a replaced one. -/
theorem unixLines_unixLines (s : List Char) :
    unixLines (unixLines s) = unixLines s ↔ ¬ ['\r', '\r', '\n'] <:+: s := by
  rw [unixLines_eq_self, crlf_infix_unixLines]

theorem withUnixLines_withUnixLines (text : String) :
    withUnixLines (withUnixLines text) = withUnixLines text ↔
      ¬ ['\r', '\r', '\n'] <:+: text.toList := by
  unfold withUnixLines
  rw [String.ofList_inj, String.toList_ofList, unixLines_unixLines]

/-! ## Runs -/

/-- The text of an artifact with its line ends replaced, if there is one. -/
def artifact (t : Tree) (path : String) : Except ExportError (Option String) :=
  match t.text path with
  | .ok s => .ok (some (withUnixLines s))
  | .error e => if e = .notFound then .ok none else .error (.io path e)

theorem runOn_readArtifact (t : Tree) (path : String) :
    runOn t (readArtifact path) = (artifact t path, t) := by
  unfold readArtifact artifact
  rw [runOn_bind, runOn_adapt, runOn_readText?]
  cases t.text path with
  | ok s => rfl
  | error e =>
    by_cases he : e = .notFound <;> simp only [he, if_true, if_false] <;> rfl

/-- The part of a delivery that changes the disk. -/
def writeArtifact {m : Type → Type} [Monad m] [Disk m] (path text : String) :
    ExceptT ExportError m Delivery := do
  let beside := besideArtifact path
  makeParent path
  makeParent beside
  replaceText beside path text (.io beside) (.io path)
  pure ⟨path, .written⟩

theorem runOn_deliver (t : Tree) (document filename dir : String) (dryRun : Bool) :
    runOn t (deliver document filename dir dryRun) =
      match artifact t (join dir filename) with
      | .error e => (.error e, t)
      | .ok a =>
        if a = some (withUnixLines document) then (.ok ⟨join dir filename, .unchanged⟩, t)
        else if dryRun then (.ok ⟨join dir filename, .wouldWrite⟩, t)
        else runOn t (writeArtifact (join dir filename) (withUnixLines document)) := by
  unfold deliver
  rw [runOn_bind, runOn_readArtifact]
  cases artifact t (join dir filename) with
  | error e => rfl
  | ok a =>
    simp only
    split
    · rfl
    · cases dryRun <;> rfl

theorem runOn_difference (t : Tree) (document filename dir : String) :
    runOn t (difference document filename dir) =
      match artifact t (join dir filename) with
      | .error e => (.error e, t)
      | .ok a =>
        (.ok ⟨join dir filename, if a.getD "" = withUnixLines document then ""
          else LineDiff.unified filename (a.getD "") (withUnixLines document)⟩, t) := by
  unfold difference
  rw [runOn_bind, runOn_readArtifact]
  cases artifact t (join dir filename) <;> rfl

/-- What is written is read back. -/
theorem artifact_of_writeArtifact {t u : Tree} {path text : String} {d : Delivery}
    (h : runOn t (writeArtifact path text) = (.ok d, u)) :
    d = ⟨path, .written⟩ ∧ artifact u path = .ok (some (withUnixLines text)) := by
  unfold writeArtifact at h
  obtain ⟨_, t₁, -, h⟩ := runOn_bind_eq_ok.1 h
  obtain ⟨_, t₂, -, h⟩ := runOn_bind_eq_ok.1 h
  obtain ⟨_, t₃, hreplace, h⟩ := runOn_bind_eq_ok.1 h
  cases h
  refine ⟨rfl, ?_⟩
  unfold artifact
  rw [text_of_replaceText hreplace]

/-- What a delivery that goes well leaves behind. -/
theorem deliver_cases {t u : Tree} {document filename dir : String} {d : Delivery}
    (h : runOn t (deliver document filename dir false) = (.ok d, u)) :
    (d = ⟨join dir filename, .unchanged⟩ ∧
      artifact u (join dir filename) = .ok (some (withUnixLines document))) ∨
    (d = ⟨join dir filename, .written⟩ ∧
      artifact u (join dir filename) = .ok (some (withUnixLines (withUnixLines document)))) := by
  rw [runOn_deliver] at h
  split at h
  · cases h
  · rename_i a ha
    by_cases hsame : a = some (withUnixLines document)
    · rw [if_pos hsame] at h
      cases h
      exact .inl ⟨rfl, by rw [ha, hsame]⟩
    · rw [if_neg hsame, if_neg Bool.false_ne_true] at h
      exact .inr (artifact_of_writeArtifact h)

/-- A diff is empty exactly if the artifact, or the empty text in its place, is the document. -/
theorem difference_eq_empty {t : Tree} {document filename dir : String} {a : Option String}
    (ha : artifact t (join dir filename) = .ok a) :
    runOn t (difference document filename dir) = (.ok ⟨join dir filename, ""⟩, t) ↔
      a.getD "" = withUnixLines document := by
  rw [runOn_difference, ha]
  simp only [Prod.mk.injEq, and_true, Except.ok.injEq, Difference.mk.injEq, true_and]
  exact LineDiff.diff_eq_empty

/-- A delivery finds its artifact unchanged exactly if the artifact is the document. -/
theorem deliver_eq_unchanged {t : Tree} {document filename dir : String} {a : Option String}
    (ha : artifact t (join dir filename) = .ok a) :
    runOn t (deliver document filename dir false) = (.ok ⟨join dir filename, .unchanged⟩, t) ↔
      a = some (withUnixLines document) := by
  rw [runOn_deliver, ha]
  simp only
  split
  · rename_i h
    exact ⟨fun _ => h, fun _ => rfl⟩
  · rename_i hne
    refine ⟨fun h => ?_, fun h => absurd h hne⟩
    rw [if_neg Bool.false_ne_true] at h
    cases (artifact_of_writeArtifact h).1

/-- After a delivery, a second one changes nothing, and the diff is empty, exactly if the artifact
was left alone at once or the document has no carriage return before a carriage return and a line
feed. -/
theorem deliver_again {t u : Tree} {document filename dir : String} {d : Delivery}
    (h : runOn t (deliver document filename dir false) = (.ok d, u)) :
    (runOn u (deliver document filename dir false) = (.ok ⟨join dir filename, .unchanged⟩, u) ↔
      d.outcome = .unchanged ∨ ¬ ['\r', '\r', '\n'] <:+: document.toList) ∧
    (runOn u (difference document filename dir) = (.ok ⟨join dir filename, ""⟩, u) ↔
      d.outcome = .unchanged ∨ ¬ ['\r', '\r', '\n'] <:+: document.toList) := by
  rw [← withUnixLines_withUnixLines]
  rcases deliver_cases h with ⟨rfl, ha⟩ | ⟨rfl, ha⟩
  · rw [deliver_eq_unchanged ha, difference_eq_empty ha]
    exact ⟨iff_of_true rfl (.inl rfl), iff_of_true rfl (.inl rfl)⟩
  · rw [deliver_eq_unchanged ha, difference_eq_empty ha, Option.some.injEq, Option.getD_some]
    have hwritten : ¬ Outcome.written = .unchanged := by simp
    exact ⟨(or_iff_right hwritten).symm, (or_iff_right hwritten).symm⟩

theorem deliver_again_crlf :
    ∃ u, runOn Tree.empty (deliver "a\r\nb" (artifactName "F") "out" false) =
        (.ok ⟨"out/f.html", .written⟩, u) ∧
      runOn u (deliver "a\r\nb" (artifactName "F") "out" false) =
          (.ok ⟨"out/f.html", .unchanged⟩, u) ∧
      runOn u (difference "a\r\nb" (artifactName "F") "out") = (.ok ⟨"out/f.html", ""⟩, u) := by
  have h : runOn Tree.empty (deliver "a\r\nb" (artifactName "F") "out" false) =
      (.ok ⟨"out/f.html", .written⟩, _) := rfl
  have hjoin : join "out" (artifactName "F") = "out/f.html" := by decide
  have hcond : ¬ ['\r', '\r', '\n'] <:+: "a\r\nb".toList := by decide
  refine ⟨_, h, ?_⟩
  rw [← hjoin]
  exact ⟨(deliver_again h).1.2 (.inr hcond), (deliver_again h).2.2 (.inr hcond)⟩

/-- With a carriage return too many the second delivery writes the document again. -/
theorem deliver_again_differs :
    ∃ u, runOn Tree.empty (deliver "a\r\r\nb" (artifactName "F") "out" false) =
        (.ok ⟨"out/f.html", .written⟩, u) ∧
      (runOn u (deliver "a\r\r\nb" (artifactName "F") "out" false)).1 =
          .ok ⟨"out/f.html", .written⟩ ∧
      runOn u (difference "a\r\r\nb" (artifactName "F") "out") ≠ (.ok ⟨"out/f.html", ""⟩, u) := by
  have h : runOn Tree.empty (deliver "a\r\r\nb" (artifactName "F") "out" false) =
      (.ok ⟨"out/f.html", .written⟩, _) := rfl
  have hjoin : join "out" (artifactName "F") = "out/f.html" := by decide
  refine ⟨_, h, rfl, ?_⟩
  rw [← hjoin]
  intro hdiff
  have hread : some "a\nb" = some (withUnixLines "a\r\r\nb") :=
    congrArg some ((difference_eq_empty (a := some "a\nb") rfl).1 hdiff)
  exact absurd hread (by decide)

end MarketingForm
