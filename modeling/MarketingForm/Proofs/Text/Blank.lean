import Mathlib.Data.List.DropRight
import Mathlib.Data.List.Induction
import MarketingForm.Text.Blank

/-!
# Words of a text

The words of a text are its longest runs of characters that are not blank. Texts with the same words differ
only in the blanks before, between and behind them. Trimming keeps all words (`words_trim`), and a trimmed
text begins and ends inside a word (`startsWord_trim`, `endsInWord_trim`). It takes away the blanks around
such a text and no more (`exists_trim`, `trim_between`).
-/

namespace MarketingForm.Text

/-- The words of a text, in order. -/
def words (cs : List Char) : List (List Char) := (cs.splitOnP isBlank).filter (· ≠ [])

/-- Whether a text begins with a word. -/
def startsWord (cs : List Char) : Bool := cs.head?.any fun c => !isBlank c

@[simp] theorem words_nil : words [] = [] := rfl

theorem words_blank {c : Char} (hc : isBlank c = true) (r : List Char) : words (c :: r) = words r := by
  rw [words, List.splitOnP_cons_eq_if_modifyHead, if_pos hc]
  rfl

/-- A character that is not blank extends the word behind it or is one of its own. -/
theorem words_cons {c : Char} (hc : isBlank c = false) (r : List Char) :
    words (c :: r) = if startsWord r then (words r).modifyHead (c :: ·) else [c] :: words r := by
  have hc' : ¬ isBlank c = true := by simp [hc]
  rw [words, words, List.splitOnP_cons_eq_if_modifyHead, if_neg hc']
  cases r with
  | nil => rfl
  | cons d r =>
    rw [List.splitOnP_cons_eq_if_modifyHead]
    obtain ⟨w, ws, hws⟩ := List.exists_cons_of_ne_nil (List.splitOnP_ne_nil isBlank r)
    rw [hws]
    cases hd : isBlank d <;> simp [startsWord, hd]

theorem words_eq_nil_iff {cs : List Char} : words cs = [] ↔ cs.all isBlank = true := by
  induction cs with
  | nil => simp
  | cons c r ih =>
    cases hc : isBlank c with
    | true => simp [words_blank hc, hc, ih]
    | false =>
      rw [words_cons hc, List.all_cons, hc]
      split
      · rename_i hr
        obtain ⟨d, hd, hblank⟩ := (Option.any_eq_true _ _).1 hr
        have hne : words r ≠ [] := by
          intro hnil
          rw [ih, List.all_eq_true] at hnil
          simp [hnil d (List.mem_of_head? hd)] at hblank
        simp [hne]
      · simp

theorem words_concat {c : Char} (hc : isBlank c = true) (cs : List Char) :
    words (cs ++ [c]) = words cs := by
  induction cs with
  | nil => exact words_blank hc []
  | cons d r ih =>
    have hstart : startsWord (r ++ [c]) = startsWord r := by
      cases r <;> simp [startsWord, hc]
    cases hd : isBlank d with
    | true => rw [List.cons_append, words_blank hd, words_blank hd, ih]
    | false => rw [List.cons_append, words_cons hd, words_cons hd, hstart, ih]

/-! ## Trimming -/

theorem words_dropWhile (cs : List Char) : words (cs.dropWhile isBlank) = words cs := by
  induction cs with
  | nil => rfl
  | cons c r ih =>
    rw [List.dropWhile_cons]
    split
    · rename_i hc
      rw [ih, words_blank hc]
    · rfl

theorem words_rdropWhile (cs : List Char) : words (cs.rdropWhile isBlank) = words cs := by
  induction cs using List.reverseRecOn with
  | nil => rfl
  | append_singleton cs c ih =>
    rw [List.rdropWhile_concat]
    split
    · rename_i hc
      rw [ih, words_concat hc]
    · rfl

theorem trim_eq (cs : List Char) : trim cs = (cs.dropWhile isBlank).rdropWhile isBlank := rfl

/-- The text does not end in a blank. -/
def EndsInWord (cs : List Char) : Prop := ∀ c, cs.getLast? = some c → isBlank c = false

theorem EndsInWord.tail {c : Char} {r : List Char} (h : EndsInWord (c :: r)) : EndsInWord r := by
  intro d hd
  apply h
  rw [List.getLast?_cons, hd]
  rfl

theorem EndsInWord.words_ne_nil {cs : List Char} (h : EndsInWord cs) (hne : cs ≠ []) :
    words cs ≠ [] := by
  intro hnil
  rw [words_eq_nil_iff, List.all_eq_true] at hnil
  have hlast := h _ (List.getLast?_eq_some_getLast hne)
  rw [hnil _ (List.getLast_mem hne)] at hlast
  cases hlast

theorem endsInWord_trim (cs : List Char) : EndsInWord (trim cs) := by
  intro c hc
  have hne : trim cs ≠ [] := by
    rintro hnil
    rw [hnil] at hc
    cases hc
  rw [List.getLast?_eq_some_getLast hne, Option.some.injEq] at hc
  simpa [trim_eq, ← hc] using List.rdropWhile_last_not isBlank (cs.dropWhile isBlank) hne

theorem startsWord_trim {cs : List Char} (h : trim cs ≠ []) : startsWord (trim cs) = true := by
  obtain ⟨c, r, hcons⟩ := List.exists_cons_of_ne_nil h
  obtain ⟨t, ht⟩ := List.rdropWhile_prefix isBlank (cs.dropWhile isBlank)
  have hhead := List.head?_dropWhile_not isBlank cs
  rw [← trim_eq, hcons] at ht
  rw [← ht] at hhead
  simpa [startsWord, hcons] using hhead

/-- A text is what trimming leaves of it between blanks. -/
theorem exists_trim (cs : List Char) : ∃ lead trail, cs = lead ++ trim cs ++ trail ∧
    (∀ c ∈ lead, isBlank c = true) ∧ ∀ c ∈ trail, isBlank c = true := by
  refine ⟨cs.takeWhile isBlank, (cs.dropWhile isBlank).rtakeWhile isBlank, ?_,
    fun c hc => List.mem_takeWhile_imp hc, fun c hc => List.mem_rtakeWhile_imp hc⟩
  rw [trim_eq, List.append_assoc, List.rdropWhile_append_rtakeWhile,
    List.takeWhile_append_dropWhile]

/-- Trimming takes away the blanks around a text that begins and ends inside a word. -/
theorem trim_between {lead body trail : List Char} (hlead : ∀ c ∈ lead, isBlank c = true)
    (htrail : ∀ c ∈ trail, isBlank c = true) (hstart : startsWord body = true)
    (hend : EndsInWord body) : trim (lead ++ body ++ trail) = body := by
  have hfront : (body ++ trail).dropWhile isBlank = body ++ trail := by
    cases body with
    | nil => cases hstart
    | cons c r =>
      have hc : isBlank c = false := by simpa [startsWord] using hstart
      rw [List.cons_append, List.dropWhile_cons, if_neg (by simp [hc])]
  have hback : (body ++ trail).rdropWhile isBlank = body := by
    have hreverse : ∀ c ∈ trail.reverse, isBlank c = true := by simpa using htrail
    rw [List.rdropWhile, List.reverse_append, List.dropWhile_append_of_pos hreverse]
    refine List.rdropWhile_eq_self_iff.2 fun hne => ?_
    simpa using hend _ (List.getLast?_eq_some_getLast hne)
  rw [trim_eq, List.append_assoc, List.dropWhile_append_of_pos hlead, hfront, hback]

theorem words_trim (cs : List Char) : words (trim cs) = words cs := by
  rw [trim_eq, words_rdropWhile, words_dropWhile]

end MarketingForm.Text
