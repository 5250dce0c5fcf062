import Mathlib.Algebra.Group.Int.Defs
import MarketingForm.Proofs.Text.Numeral
import MarketingForm.Proofs.Yaml.Gap

/-!
# Words that mean themselves

Integers and booleans are written as plain words. Such a word may stand in plain style
(`allowsPlain_of_tame`), and it means the integer or the boolean again (`meaning_decimal`,
`meaning_boolean`). A word that means a text means this very text (`eq_of_meaning`).
-/

namespace MarketingForm.Yaml

open Text (numeral digitChar digitValue? readDigits readNumeral?)

/-! ## Plain words -/

/-- A character without a part in the syntax, wherever it stands in a plain word. -/
def isTame (c : Char) : Bool :=
  isPrintable c && !isBreak c && !isGap c && !"#,[]\x7b\x7d&*!|>'\"%@`?:-.".toList.contains c

theorem isTame_iff {c : Char} : isTame c = true ↔
    isPrintable c = true ∧ isBreak c = false ∧ isGap c = false ∧
      "#,[]\x7b\x7d&*!|>'\"%@`?:-.".toList.contains c = false := by
  simp only [isTame, Bool.and_eq_true, Bool.not_eq_true', and_assoc]

theorem hasPair_eq_false_of_right {p q : Char → Bool} {s : List Char} (h : ∀ c ∈ s, q c = false) :
    hasPair p q s = false := by
  induction s with
  | nil => rfl
  | cons c s ih =>
    cases s with
    | nil => rfl
    | cons d s =>
      rw [hasPair, h d (by simp), Bool.and_false, Bool.false_or]
      exact ih fun e he => h e (List.mem_cons_of_mem c he)

theorem hasKeyMark_eq_false {s : List Char} (h : ∀ c ∈ s, c ≠ ':') : hasKeyMark s = false := by
  induction s with
  | nil => rfl
  | cons c s ih =>
    have hc : (c == ':') = false := by simpa using h c (by simp)
    rw [hasKeyMark, hc, Bool.false_and, Bool.false_or]
    exact ih fun d hd => h d (List.mem_cons_of_mem c hd)

theorem any_eq_false {p : Char → Bool} {o : Option Char} (h : ∀ c ∈ o, p c = false) :
    o.any p = false := by
  cases o with
  | none => rfl
  | some c => exact h c rfl

theorem isEdged_eq_false {p : Char → Bool} {s : List Char} (h : ∀ c ∈ s, p c = false) :
    isEdged p s = false := by
  rw [isEdged, Bool.or_eq_false_iff]
  exact ⟨any_eq_false fun c hc => h c (List.mem_of_mem_head? hc),
    any_eq_false fun c hc => h c (List.mem_of_mem_getLast? hc)⟩

/-- What a word needs to stand in plain style, apart from its start. -/
theorem allowsPlain_of_chars {s : List Char}
    (h : ∀ c ∈ s, isPrintable c = true ∧ isBreak c = false ∧ isGap c = false ∧ c ≠ ':' ∧ c ≠ '#')
    (hstart : hasIndicator s = (hasKeyMark s || hasPair (fun c => isGap c || isBreak c) (· == '#') s)) :
    allowsPlain s = true := by
  have hbreak : ∀ c ∈ s, isBreak c = false := fun c hc => (h c hc).2.1
  have hspace : ∀ c ∈ s, isSpace c = false := fun c hc => by
    have := (h c hc).2.2.1
    rw [isGap, Bool.or_eq_false_iff] at this
    exact this.1
  have hescapes : needsEscapes s = false := by
    rw [needsEscapes, hasSpaceBeforeBreak, hasPair_eq_false_of_right hbreak, Bool.or_false,
      List.all_eq_true.2 fun c hc => (h c hc).1, Bool.not_true]
  have hany : s.any isBreak = false := by
    rw [List.any_eq_false]
    exact fun c hc => by simp [hbreak c hc]
  have hindicator : hasIndicator s = false := by
    rw [hstart, hasKeyMark_eq_false fun c hc => (h c hc).2.2.2.1,
      hasPair_eq_false_of_right fun c hc => by simpa using (h c hc).2.2.2.2, Bool.or_false]
  simp only [allowsPlain, hescapes, hany, isEdged_eq_false hspace, hindicator, Bool.or_false,
    Bool.not_false]

theorem chars_of_tame {c : Char} (h : isTame c = true) :
    isPrintable c = true ∧ isBreak c = false ∧ isGap c = false ∧ c ≠ ':' ∧ c ≠ '#' := by
  obtain ⟨hprintable, hbreak, hgap, hindicators⟩ := isTame_iff.1 h
  refine ⟨hprintable, hbreak, hgap, ?_, ?_⟩
  · rintro rfl
    exact absurd hindicators (by decide)
  · rintro rfl
    exact absurd hindicators (by decide)

/-- A tame word may be plain, also behind a minus sign. -/
theorem allowsPlain_of_tame {s : List Char} (hne : s ≠ []) (h : ∀ c ∈ s, isTame c = true) :
    allowsPlain s = true ∧ allowsPlain ('-' :: s) = true := by
  obtain ⟨c, r, rfl⟩ := List.exists_cons_of_ne_nil hne
  have htame := isTame_iff.1 (h c (by simp))
  have hends : endsWord (c :: r) = false := by
    rw [endsWord, htame.2.1, htame.2.2.1, Bool.or_false]
  have hindicators := htame.2.2.2
  simp at hindicators
  constructor
  · refine allowsPlain_of_chars (fun d hd => chars_of_tame (h d hd)) ?_
    have hword : (c == '?' || c == '-') = false := by simp [hindicators]
    simp [hasIndicator, hindicators, hword]
  · refine allowsPlain_of_chars ?_ ?_
    · intro d hd
      rcases List.mem_cons.1 hd with rfl | hd
      · decide
      · exact chars_of_tame (h d hd)
    · simp [hasIndicator, hindicators, hends]

/-! ## Integers -/

theorem isTame_of_mem_numeral {n : Nat} {c : Char} (hc : c ∈ numeral 10 n) : isTame c = true :=
  Text.forall_mem_numeral (by decide) (isTame · = true) (by decide) hc

/-- An integer may be plain. -/
theorem allowsPlain_decimal (n : Int) :
    allowsPlain (Text.decimal n).toList = true ∧ (Text.decimal n).toList ≠ [] := by
  have hne := Text.numeral_ne_nil 10 n.natAbs
  have hplain := allowsPlain_of_tame hne fun c hc => isTame_of_mem_numeral hc
  rw [Text.toList_decimal]
  split
  · exact ⟨hplain.2, nofun⟩
  · exact ⟨hplain.1, hne⟩

theorem basedNumber?_numeral (n : Nat) : basedNumber? (numeral 10 n) = none := by
  have hmarks : ∀ c ∈ numeral 10 n, c ≠ 'x' ∧ c ≠ 'o' ∧ c ≠ 'b' := fun c hc =>
    Text.forall_mem_numeral (by decide) (fun c => c ≠ 'x' ∧ c ≠ 'o' ∧ c ≠ 'b') (by decide) hc
  unfold basedNumber?
  split
  · rename_i heq
    exact absurd rfl (hmarks 'x' (by simp [heq])).1
  · rename_i heq
    exact absurd rfl (hmarks 'o' (by simp [heq])).2.1
  · rename_i heq
    exact absurd rfl (hmarks 'b' (by simp [heq])).2.2
  · rfl

/-- Only zero itself starts with a zero. -/
theorem numeral_ne_padded (n : Nat) (d : Char) (r : List Char) : numeral 10 n ≠ '0' :: d :: r := by
  intro h
  by_cases hn : n = 0
  · subst hn
    rw [Text.numeral_of_lt (by decide)] at h
    cases h
  · have hhead : (numeral 10 n).head? ≠ some '0' := Text.head?_numeral (by decide) (by decide) hn
    exact hhead (by rw [h]; rfl)

theorem startsSigned_numeral (n : Nat) : startsSigned (numeral 10 n) = false := by
  refine any_eq_false fun c hc => ?_
  exact Text.forall_mem_numeral (by decide) (isSign · = false) (by decide) (List.mem_of_mem_head? hc)

theorem isZeroPadded_numeral (n : Nat) :
    isZeroPadded (numeral 10 n) = false ∧ isZeroPadded ('-' :: numeral 10 n) = false := by
  constructor
  · unfold isZeroPadded
    rw [startsSigned_numeral, if_neg Bool.false_ne_true]
    split
    · rename_i heq
      exact absurd heq (numeral_ne_padded n _ _)
    · rfl
  · unfold isZeroPadded
    rw [if_pos (show startsSigned ('-' :: numeral 10 n) = true by rfl), List.drop_one, List.tail_cons]
    split
    · rename_i heq
      exact absurd heq (numeral_ne_padded n _ _)
    · rfl

theorem unsigned?_numeral (n : Nat) : unsigned? (numeral 10 n) = some n := by
  have hsign : (numeral 10 n).head? ≠ some '+' := fun h =>
    absurd rfl (Text.forall_mem_numeral (by decide) (· ≠ '+') (by decide) (List.mem_of_mem_head? h))
  unfold unsigned?
  rw [if_neg hsign]
  simp only [basedNumber?_numeral, (isZeroPadded_numeral n).1, Bool.false_eq_true, ↓reduceIte,
    Text.readNumeral?_numeral]

theorem unsigned?_minus (n : Nat) : unsigned? ('-' :: numeral 10 n) = none := by
  have hread : readNumeral? 10 ('-' :: numeral 10 n) = none := by
    rw [readNumeral?, readDigits, show digitValue? 10 '-' = none by decide]
    rfl
  have hbased : basedNumber? ('-' :: numeral 10 n) = none := rfl
  unfold unsigned?
  rw [if_neg (show ('-' :: numeral 10 n).head? ≠ some '+' by simp)]
  simp only [hbased, (isZeroPadded_numeral n).2, Bool.false_eq_true, ↓reduceIte, hread]

theorem negative?_minus (n : Nat) : negative? ('-' :: numeral 10 n) = some n := by
  unfold negative?
  simp only [basedNumber?_numeral, (isZeroPadded_numeral n).2, Bool.false_eq_true, ↓reduceIte,
    Text.readNumeral?_numeral]

/-- A 64-bit integer is read as itself. -/
theorem integer?_decimal {n : Int} (h : -(2 ^ 63) ≤ n ∧ n < 2 ^ 63) :
    integer? (Text.decimal n).toList = some (.integer (n < 0) n) := by
  rw [Text.toList_decimal]
  unfold integer?
  by_cases hn : n < 0
  · have habs : n.natAbs ≤ Nat.pow 2 63 := by
      have : Nat.pow 2 63 = 9223372036854775808 := by decide
      omega
    have hnat : -(n.natAbs : Int) = n := by omega
    simp only [hn, ↓reduceIte, List.cons_append, List.nil_append, unsigned?_minus, negative?_minus,
      habs, hnat, decide_true]
  · have habs : n.natAbs < Nat.pow 2 64 := by
      have : Nat.pow 2 64 = 18446744073709551616 := by decide
      omega
    have hnat : (n.natAbs : Int) = n := by omega
    simp only [hn, ↓reduceIte, List.nil_append, unsigned?_numeral, habs, hnat, decide_false]

theorem not_word_of_digit {s : List Char} (h : ∃ c ∈ s, isDigit c = true) :
    (s.isEmpty || isNullWord s) = false ∧ boolean? s = none := by
  obtain ⟨c, hc, hdigit⟩ := h
  have hword : ∀ w : List Char, w.all (fun d => !isDigit d) = true → s ≠ w := by
    rintro w hw rfl
    have := List.all_eq_true.1 hw c hc
    simp [hdigit] at this
  constructor
  · simp only [isNullWord, Bool.or_eq_false_iff, beq_eq_false_iff_ne, List.isEmpty_eq_false_iff]
    exact ⟨hword _ (by decide), ⟨⟨hword _ (by decide), hword _ (by decide)⟩, hword _ (by decide)⟩,
      hword _ (by decide)⟩
  · unfold boolean?
    rw [if_neg (by
      rintro (h | h | h)
      all_goals exact hword _ (by decide) h), if_neg (by
      rintro (h | h | h)
      all_goals exact hword _ (by decide) h)]

/-- A 64-bit integer means itself. -/
theorem meaning_decimal {n : Int} (h : -(2 ^ 63) ≤ n ∧ n < 2 ^ 63) :
    meaning (Text.decimal n).toList = .integer (n < 0) n := by
  have hdigit : ∃ c ∈ (Text.decimal n).toList, isDigit c = true := by
    obtain ⟨c, r, hcons⟩ := List.exists_cons_of_ne_nil (Text.numeral_ne_nil 10 n.natAbs)
    have hc : c ∈ numeral 10 n.natAbs := by simp [hcons]
    refine ⟨c, ?_, Text.forall_mem_numeral (by decide) (isDigit · = true) (by decide) hc⟩
    rw [Text.toList_decimal]
    exact List.mem_append_right _ hc
  obtain ⟨hnull, hboolean⟩ := not_word_of_digit hdigit
  unfold meaning
  rw [hnull, if_neg Bool.false_ne_true, hboolean]
  simp only [integer?_decimal h]

/-! ## Booleans and texts -/

/-- The word of a boolean. -/
theorem meaning_boolean (b : Bool) :
    meaning (if b then "true" else "false").toList = .boolean b := by
  cases b <;> decide

theorem allowsPlain_boolean (b : Bool) :
    allowsPlain (if b then "true" else "false").toList = true ∧
      (if b then "true" else "false").toList ≠ [] := by
  cases b <;> decide

theorem integer?_ne_text {s t : List Char} : integer? s ≠ some (.text t) := by
  unfold integer?
  split
  · split
    · nofun
    · split <;> nofun
  · split
    · nofun
    · split <;> nofun
  · nofun

/-- A word that means a text means this text. -/
theorem eq_of_meaning {s t : List Char} (h : meaning s = .text t) : t = s := by
  unfold meaning at h
  split at h
  · cases h
  · split at h
    · cases h
    · split at h
      · rename_i hinteger
        exact absurd (hinteger.trans (congrArg some h)) integer?_ne_text
      · split at h
        · cases h
        · exact (Meaning.text.inj h).symm

theorem meaning_of_readsAsText {s : List Char} (h : readsAsText s = true) : meaning s = .text s := by
  unfold readsAsText at h
  split at h
  · rename_i t heq
    rwa [eq_of_meaning heq] at heq
  · cases h

end MarketingForm.Yaml
