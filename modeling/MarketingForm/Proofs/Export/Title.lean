import MarketingForm.Proofs.Export.Filename
import MarketingForm.Proofs.Export.Outline

/-!
# Titles of documents

The text between the title tags of a document is the title that the document shows (`titleText?_document`).
No text of the user stands before it, and none of its characters ends it. The name of the artifact is made
of that title unless the form's title and the fallback are both blank (`document_title`).
-/

namespace MarketingForm

open Text

/-! ## First occurrences -/

/-- The text before the first occurrence of a mark, and the text behind the mark. -/
def splitFirst (mark : List Char) : List Char → Option (List Char × List Char)
  | [] => if mark = [] then some ([], []) else none
  | c :: r =>
    if mark <+: c :: r then some ([], (c :: r).drop mark.length)
    else (splitFirst mark r).map fun x => (c :: x.1, x.2)

section

variable {mark before behind s : List Char}

theorem splitFirst_mark (mark s : List Char) : splitFirst mark (mark ++ s) = some ([], s) := by
  have hprefix : mark <+: mark ++ s := List.prefix_append mark s
  cases hms : mark ++ s with
  | nil =>
    obtain ⟨rfl, rfl⟩ := List.append_eq_nil_iff.1 hms
    rfl
  | cons c r =>
    rw [hms] at hprefix
    rw [splitFirst, if_pos hprefix, ← hms, List.drop_left]

theorem splitFirst_eq_some (h : splitFirst mark s = some (before, behind)) :
    s = before ++ (mark ++ behind) := by
  induction s generalizing before with
  | nil =>
    rw [splitFirst] at h
    split at h
    · cases h
      simp [*]
    · cases h
  | cons c r ih =>
    rw [splitFirst] at h
    split at h
    · rename_i hprefix
      cases h
      exact List.prefix_iff_eq_append.1 hprefix |>.symm
    · obtain ⟨⟨before', behind'⟩, hr, hcons⟩ := Option.map_eq_some_iff.1 h
      cases hcons
      exact congrArg (c :: ·) (ih hr)

/-- Text behind the first occurrence of a mark does not move it. -/
theorem splitFirst_append (h : splitFirst mark s = some (before, behind)) (t : List Char) :
    splitFirst mark (s ++ t) = some (before, behind ++ t) := by
  induction s generalizing before with
  | nil =>
    obtain ⟨rfl, hmark⟩ := List.append_eq_nil_iff.1 (splitFirst_eq_some h).symm
    obtain ⟨rfl, rfl⟩ := List.append_eq_nil_iff.1 hmark
    exact splitFirst_mark [] t
  | cons c r ih =>
    rw [splitFirst] at h
    split at h
    · rename_i hprefix
      obtain ⟨u, hu⟩ := hprefix
      cases h
      rw [← hu, List.drop_left, List.append_assoc]
      exact splitFirst_mark mark (u ++ t)
    · rename_i hprefix
      obtain ⟨⟨before', behind'⟩, hr, hcons⟩ := Option.map_eq_some_iff.1 h
      cases hcons
      -- the mark fits into `r`, so it cannot reach into `t` from the place of `c`
      have hlength : mark.length ≤ (c :: r).length := by
        simp only [splitFirst_eq_some hr, List.length_cons, List.length_append]
        omega
      have hprefix' : ¬ mark <+: c :: (r ++ t) := fun hp =>
        hprefix (List.prefix_of_prefix_length_le hp (List.prefix_append (c :: r) t) hlength)
      rw [List.cons_append, splitFirst, if_neg hprefix', ih hr]
      rfl

/-- A text without the first character of a mark is passed over. -/
theorem splitFirst_of_not_mem {c : Char} {m : List Char} (h : c ∉ s) (t : List Char) :
    splitFirst (c :: m) (s ++ (c :: m ++ t)) = some (s, t) := by
  induction s with
  | nil => exact splitFirst_mark (c :: m) t
  | cons d r ih =>
    rw [List.mem_cons, not_or] at h
    have hprefix : ¬ c :: m <+: d :: (r ++ (c :: m ++ t)) := fun hp => h.1 (List.cons_prefix_cons.1 hp).1
    rw [List.cons_append, splitFirst, if_neg hprefix, ih h.2]
    rfl

end

/-! ## Titles -/

/-- The text between the first opening title tag and the closing one behind it. -/
def titleText? (document : List Char) : Option (List Char) := do
  let (_, behind) ← splitFirst "<title>".toList document
  let (title, _) ← splitFirst "</title>".toList behind
  return title

/-- The title that the document of a form shows: the form's own, the fallback for a blank one, and the
default if both are blank. -/
def Form.shownTitle (form : Form) (fallback : String) : String :=
  if allBlank form.title = false then form.title
  else if allBlank fallback = false then fallback
  else defaultTitle

theorem titleOrDefault_effectiveTitle (form : Form) (fallback : String) :
    titleOrDefault (form.effectiveTitle fallback) = form.shownTitle fallback := by
  unfold Form.shownTitle Form.effectiveTitle titleOrDefault
  cases htitle : allBlank form.title with
  | true => cases hfallback : allBlank fallback <;> simp [hfallback]
  | false => simp [htitle]

theorem not_allBlank_shownTitle (form : Form) (fallback : String) :
    allBlank (form.shownTitle fallback) = false := by
  unfold Form.shownTitle
  split
  · assumption
  split
  · assumption
  · decide

theorem splitFirst_shellHead :
    ∃ before, splitFirst "<title>".toList shellHead = some (before, []) := by
  have h : (splitFirst "<title>".toList shellHead).map Prod.snd = some [] := by decide +kernel
  obtain ⟨⟨before, _⟩, hsplit, rfl⟩ := Option.map_eq_some_iff.1 h
  exact ⟨before, hsplit⟩

/-- A title without tags behind text that ends with the first opening title tag. -/
theorem titleText?_append {head title before : List Char}
    (hhead : splitFirst "<title>".toList head = some (before, [])) (htitle : '<' ∉ title)
    (rest : List Char) : titleText? (head ++ (title ++ ("</title>".toList ++ rest))) = some title := by
  have hclosing : splitFirst "</title>".toList (title ++ ("</title>".toList ++ rest)) =
      some (title, rest) := splitFirst_of_not_mem htitle rest
  rw [titleText?, splitFirst_append hhead, List.nil_append]
  simp only [bind, Option.bind, hclosing]
  rfl

/-- A document shows the title it was composed with. -/
theorem titleText?_document (title css : String) (fragments : List Markup) :
    titleText? (compose builtInShell title css fragments).document.toList =
      some (escape (titleOrDefault title)).toList := by
  obtain ⟨before, hhead⟩ := splitFirst_shellHead
  obtain ⟨rest, hstyle⟩ : ∃ rest, shellStyle = "</title>".toList ++ rest := ⟨_, rfl⟩
  have hlt : '<' ∉ (escape (titleOrDefault title)).toList := by
    rw [escape, String.toList_ofList]
    exact Html.lt_not_mem_encode _ _
  have hsplit := titleText?_append hhead hlt
    (rest ++ (css.toList ++ (shellBody ++ ((contentBlock fragments).text.toList ++ shellFoot))))
  rw [document_builtInShell, hstyle]
  simpa only [List.append_assoc] using hsplit

/-! ## Titles and names -/

theorem artifactName_of_allBlank {title : String} (h : allBlank title = true) :
    artifactName title = ".html" := by
  rw [artifactName, trim_of_all_blank h]
  rfl

/-- The name of an artifact is that of the title shown unless there is nothing but blanks to name it after. -/
theorem artifactName_effectiveTitle (form : Form) (fallback : String) :
    artifactName (form.effectiveTitle fallback) =
      if allBlank form.title = true ∧ allBlank fallback = true then ".html"
      else artifactName (form.shownTitle fallback) := by
  unfold Form.effectiveTitle Form.shownTitle
  cases htitle : allBlank form.title with
  | false => simp
  | true =>
    cases hfallback : allBlank fallback with
    | false => simp
    | true => simp [artifactName_of_allBlank hfallback]

/-- A document in the built-in shell shows a title that is not blank and reads as it was given, whatever
characters it is made of. The artifact is named after the same title if and only if the form's title or the
fallback is not blank; otherwise its name is only the extension. -/
theorem document_title (form : Form) (tokens : Tokens) (fallback : String) :
    (∃ t, titleText? (form.build builtInShell tokens fallback).document.toList = some t ∧
      Html.decode t = (form.shownTitle fallback).toList) ∧
    allBlank (form.shownTitle fallback) = false ∧
    (form.build builtInShell tokens fallback).filename =
      (if allBlank form.title = true ∧ allBlank fallback = true then ".html"
        else artifactName (form.shownTitle fallback)) ∧
    ((form.build builtInShell tokens fallback).filename = artifactName (form.shownTitle fallback) ↔
      allBlank form.title = false ∨ allBlank fallback = false) := by
  have hname : (form.build builtInShell tokens fallback).filename =
      if allBlank form.title = true ∧ allBlank fallback = true then ".html"
      else artifactName (form.shownTitle fallback) := artifactName_effectiveTitle form fallback
  refine ⟨⟨_, titleText?_document _ _ _, ?_⟩, not_allBlank_shownTitle form fallback, hname, ?_⟩
  · rw [titleOrDefault_effectiveTitle, escape, String.toList_ofList, Html.decode_encode]
  rw [hname]
  by_cases hblank : allBlank form.title = true ∧ allBlank fallback = true
  · have hshown : form.shownTitle fallback = defaultTitle := by simp [Form.shownTitle, hblank]
    have hdefault : ".html" ≠ artifactName defaultTitle := by decide +kernel
    rw [if_pos hblank, hshown]
    exact ⟨fun h => absurd h hdefault, by simp [hblank]⟩
  · have hgiven : allBlank form.title = false ∨ allBlank fallback = false := by
      simpa only [Bool.not_eq_true] using Classical.not_and_iff_not_or_not.1 hblank
    rw [if_neg hblank]
    exact iff_of_true rfl hgiven

/-- With a blank title and a blank fallback the document shows the default title and the artifact has no
name in front of its extension. -/
theorem document_title_blank :
    let report := (Form.new "").build builtInShell .empty " "
    ∃ t, titleText? report.document.toList = some t ∧ Html.decode t = "Marketing Form".toList ∧
      report.filename = ".html" ∧ artifactName "Marketing Form" = "marketing-form.html" := by
  refine ⟨_, titleText?_document _ _ _, ?_, artifactName_of_allBlank (by decide), by decide +kernel⟩
  rw [escape, String.toList_ofList, Html.decode_encode]
  rfl

end MarketingForm
