import MarketingForm.Export.Filename
import MarketingForm.Proofs.Files.Names
import MarketingForm.Proofs.Text.Blank
import MarketingForm.Proofs.Text.LowerCase

/-!
# Artifact names

The name of an artifact is made of the words of the title in lower case with hyphens between them
(`toList_artifactName`). So titles with the same words have one name, and no character of it is a blank or
separates the names of a path (`not_isSeparator_slug`). In every directory it lies directly below that
directory (`artifactName_canonical`).
-/

namespace MarketingForm

open Files Text

/-! ## Words in lower case -/

/-- A word of the title as it stands in the file name. -/
def nameWord (w : List Char) : List Char := w.flatMap nameChar

/-- Words of the title as they stand in the file name. -/
def nameWords (ws : List (List Char)) : List Char := ['-'].intercalate (ws.map nameWord)

theorem nameWords_cons_cons (c : Char) (w : List Char) (ws : List (List Char)) :
    nameWords ((c :: w) :: ws) = nameChar c ++ nameWords (w :: ws) := by
  cases ws <;> simp [nameWords, nameWord, List.intercalate]

theorem nameWords_cons (w : List Char) {ws : List (List Char)} (hws : ws ≠ []) :
    nameWords (w :: ws) = nameWord w ++ '-' :: nameWords ws := by
  obtain ⟨v, ws, rfl⟩ := List.exists_cons_of_ne_nil hws
  simp [nameWords, List.intercalate_cons_cons]

/-- The hyphen for the blanks that a text begins with. -/
def gap (cs : List Char) : List Char := if cs = [] ∨ startsWord cs = true then [] else ['-']

theorem nameWords_words_cons {c : Char} {r : List Char} (hc : isBlank c = false)
    (h : EndsInWord (c :: r)) :
    nameWords (words (c :: r)) = nameChar c ++ (gap r ++ nameWords (words r)) := by
  rw [words_cons hc]
  by_cases hnil : r = []
  · subst hnil
    simp [gap, startsWord, nameWords, nameWord]
  have hwords : words r ≠ [] := h.tail.words_ne_nil hnil
  cases hr : startsWord r with
  | true =>
    obtain ⟨w, ws, hws⟩ := List.exists_cons_of_ne_nil hwords
    rw [if_pos rfl, hws, List.modifyHead_cons, nameWords_cons_cons, gap, if_pos (.inr hr), List.nil_append]
  | false =>
    rw [if_neg Bool.false_ne_true, nameWords_cons [c] hwords, gap, if_neg (by simp [hnil, hr])]
    simp [nameWord]

/-- A text that ends in a word becomes its words; blanks that it begins with become a hyphen unless that
has been written before. -/
theorem slug_eq {cs : List Char} (h : EndsInWord cs) :
    slug true cs = nameWords (words cs) ∧ slug false cs = gap cs ++ nameWords (words cs) := by
  induction cs with
  | nil => exact ⟨rfl, rfl⟩
  | cons c r ih =>
    obtain ⟨hafter, hbefore⟩ := ih h.tail
    cases hc : isBlank c with
    | true =>
      have hgap : gap (c :: r) = ['-'] := by simp [gap, startsWord, hc]
      rw [slug, slug, hc, hafter, words_blank hc, hgap]
      exact ⟨rfl, rfl⟩
    | false =>
      have hgap : gap (c :: r) = [] := by simp [gap, startsWord, hc]
      rw [slug, slug, hc, hbefore, nameWords_words_cons hc h, hgap]
      exact ⟨rfl, rfl⟩

/-- The words of the title in lower case, with hyphens between them. -/
theorem toList_artifactName (title : String) :
    (artifactName title).toList = nameWords (words title.toList) ++ ".html".toList := by
  have hgap : gap (trim title.toList) = [] := by
    unfold gap
    by_cases hnil : trim title.toList = []
    · exact if_pos (.inl hnil)
    · exact if_pos (.inr (startsWord_trim hnil))
  rw [artifactName, String.toList_ofList, (slug_eq (endsInWord_trim _)).2, words_trim, hgap,
    List.nil_append]

/-! ## Characters of a name -/

theorem not_isSeparator_slug (afterBlank : Bool) (cs : List Char) {d : Char}
    (hd : d ∈ slug afterBlank cs) : isSeparator d = false := by
  induction cs generalizing afterBlank with
  | nil => cases hd
  | cons c r ih =>
    have hhyphen : isSeparator '-' = false := by decide
    rw [slug] at hd
    split at hd
    · cases afterBlank with
      | true => exact ih true hd
      | false =>
        rcases List.mem_cons.1 hd with rfl | hd
        · exact hhyphen
        · exact ih true hd
    · rename_i hc
      rcases List.mem_append.1 hd with hd | hd
      · unfold nameChar at hd
        split at hd
        · rwa [List.mem_singleton.1 hd]
        · rename_i hslash
          rw [not_or] at hslash
          exact not_isSeparator_lowerChar (by simp [isSeparator, hc, hslash]) hd
      · exact ih false hd

theorem not_isSeparator_artifactName {title : String} {c : Char} (hc : c ∈ (artifactName title).toList) :
    isSeparator c = false := by
  have hextension : (".html".toList.all fun c => !isSeparator c) = true := by decide
  rw [artifactName, String.toList_ofList, List.mem_append] at hc
  rcases hc with hc | hc
  · exact not_isSeparator_slug false _ hc
  · simpa using List.all_eq_true.1 hextension c hc

theorem isFileName_artifactName (title : String) : IsFileName (artifactName title) := by
  constructor
  · intro hslash
    exact absurd (not_isSeparator_artifactName hslash) (by decide)
  · simp [artifactName]

/-! ## Canonical names -/

/-- The name of an artifact is one name of an entry: not a dot or two, without slashes, backslashes and
blanks, and with the extension. In every directory it lies directly below the place of that directory, which
is the parent of the joined path. It is made of the words of the title, so titles that differ only in blanks
have one name. -/
theorem artifactName_canonical (title : String) :
    (IsEntryName (artifactName title) ∧
      Files.segments (artifactName title).toList = [(artifactName title).toList] ∧
      (∀ c ∈ (artifactName title).toList, isBlank c = false ∧ c ≠ '/' ∧ c ≠ '\\') ∧
      ".html".toList <:+ (artifactName title).toList) ∧
    (∀ dir, place (join dir (artifactName title)) = place dir ++ [(artifactName title).toList] ∧
      ∃ parent, parent? (join dir (artifactName title)) = some parent ∧ SamePath parent dir) ∧
    (artifactName title).toList = nameWords (words title.toList) ++ ".html".toList ∧
    ∀ other : String, words other.toList = words title.toList →
      artifactName other = artifactName title := by
  have hentry : IsEntryName (artifactName title) := (isFileName_artifactName title).entry
  have hname := toList_artifactName title
  refine ⟨⟨hentry, segments_of_not_mem hentry.slash, ?_, ?_⟩, ?_, hname, ?_⟩
  · intro c hc
    have hsep := not_isSeparator_artifactName hc
    simp only [isSeparator, Bool.or_eq_false_iff, beq_eq_false_iff_ne] at hsep
    exact ⟨hsep.1.1, hsep.1.2, hsep.2⟩
  · rw [hname]
    exact List.suffix_append _ _
  · exact fun dir => ⟨hentry.place_join, hentry.samePath_parent dir⟩
  · intro other hwords
    apply String.toList_injective
    rw [hname, toList_artifactName, hwords]

/-- An ideographic space, tabs and line ends are blanks like a space. -/
theorem artifactName_canonical_blanks :
    words "\t Spring \u3000/ 10% off\n".toList = words "Spring / 10% off".toList ∧
      artifactName "\t Spring \u3000/ 10% off\n" = artifactName "Spring / 10% off" ∧
      artifactName "Spring / 10% off" = "spring---10%-off.html" := by
  have hwords : words "\t Spring \u3000/ 10% off\n".toList = words "Spring / 10% off".toList := by
    decide +kernel
  exact ⟨hwords, (artifactName_canonical "Spring / 10% off").2.2.2 _ hwords, by decide +kernel⟩

end MarketingForm
