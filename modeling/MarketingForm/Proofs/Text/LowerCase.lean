import MarketingForm.Text.Blank
import MarketingForm.Text.LowerCase

/-!
# Lower case and separators

Blanks and slashes are in no lower-case form of another character (`not_isSeparator_lowerChar`). In the
table of case mappings none of them lies where a run of characters is moved to.
-/

namespace MarketingForm.Text

/-- Whether a character separates words or the names of a path. -/
def isSeparator (c : Char) : Bool := isBlank c || c == '/' || c == '\\'

/-- The code points of the separators. -/
def separators : List Nat := [
  0x09, 0x0A, 0x0B, 0x0C, 0x0D, 0x20, 0x2F, 0x5C, 0x85, 0xA0, 0x1680, 0x2000, 0x2001, 0x2002, 0x2003,
  0x2004, 0x2005, 0x2006, 0x2007, 0x2008, 0x2009, 0x200A, 0x2028, 0x2029, 0x202F, 0x205F, 0x3000]

theorem mem_separators {c : Char} (h : isSeparator c = true) : c.toNat ∈ separators := by
  simp only [isSeparator, isBlank, Bool.or_eq_true, Bool.and_eq_true, decide_eq_true_eq,
    beq_iff_eq] at h
  rcases h with (hblank | rfl) | rfl
  · simp only [separators, List.mem_cons, List.not_mem_nil]
    omega
  · decide
  · decide

theorem toNat_of_ofNat_eq {n : Nat} {c : Char} (hc : isSeparator c = true) (h : Char.ofNat n = c) :
    c.toNat = n := by
  by_cases hvalid : n.isValidChar
  · rw [Char.ofNat, dif_pos hvalid] at h
    exact congrArg Char.toNat h.symm
  · rw [Char.ofNat, dif_neg hvalid] at h
    subst h
    exact absurd hc (by decide)

/-- A character that is no separator has none in its lower-case form. -/
theorem not_isSeparator_lowerChar {c d : Char} (hc : isSeparator c = false) (hd : d ∈ lowerChar c) :
    isSeparator d = false := by
  have hascii : ∀ n < 0x80, isSeparator (Char.ofNat n) = false →
      isSeparator (Char.ofNat n).toLower = false := by decide +kernel
  have hruns : ∀ r ∈ caseRuns, ∀ n ∈ separators,
      (n : Int) < r.first + r.offset ∨ r.last + r.offset < n := by decide +kernel
  unfold lowerChar at hd
  split at hd
  · rename_i hlow
    have := hascii c.toNat hlow (by rwa [Char.ofNat_toNat])
    rw [Char.ofNat_toNat] at this
    rwa [List.mem_singleton.1 hd]
  split at hd
  · rw [List.mem_cons, List.mem_singleton] at hd
    rcases hd with rfl | rfl
    · decide
    · decide
  split at hd
  · rename_i r hr
    have hcontains : r.first ≤ c.toNat ∧ c.toNat ≤ r.last := by
      have := List.find?_some hr
      simp only [CaseRun.contains, Bool.and_eq_true, decide_eq_true_eq] at this
      exact this.1
    rw [List.mem_singleton] at hd
    rw [Bool.eq_false_iff]
    intro hsep
    have hcode : d.toNat = (c.toNat + r.offset).toNat := toNat_of_ofNat_eq hsep hd.symm
    have hmem : d.toNat ∈ separators := mem_separators hsep
    have hpositive : ∀ n ∈ separators, 0 < n := by decide
    have hoff := hruns r (List.mem_of_find?_eq_some hr) d.toNat hmem
    have := hpositive d.toNat hmem
    omega
  · rwa [List.mem_singleton.1 hd]

end MarketingForm.Text
