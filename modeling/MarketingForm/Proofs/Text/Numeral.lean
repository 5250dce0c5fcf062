import Mathlib.Algebra.Group.Nat.Defs
import MarketingForm.Text.Numeral

/-!
# Numerals are read back

The digits of a number are read as that number again, in any base whose digits keep their values,
behind zeros and in any case (`readDigits_numeral`). So different numbers have different numerals
(`numeral_inj`), and the numeral of a larger number is not shorter (`length_numeral_le_length`).
-/

namespace MarketingForm.Text

theorem digitValue?_digitChar {b d : Nat} (hb : b ≤ 36) (h : d < b) :
    digitValue? b (digitChar d) = some d := by
  have hall : ∀ e ∈ List.range 36, digitValue? 36 (digitChar e) = some e := by decide
  have hd := hall d (List.mem_range.2 (by omega))
  simp only [digitValue?, Option.filter_eq_some_iff] at hd ⊢
  exact ⟨hd.1, by simpa using h⟩

theorem digitValue?_toUpper {d : Nat} (h : d < 16) :
    digitValue? 16 (digitChar d).toUpper = some d := by
  have hall : ∀ e ∈ List.range 16, digitValue? 16 (digitChar e).toUpper = some e := by decide
  exact hall d (List.mem_range.2 h)

theorem digitChar_ne_zero {d : Nat} (h : d < 36) (hd : d ≠ 0) : digitChar d ≠ '0' := by
  have hall : ∀ e ∈ List.range 36, e ≠ 0 → digitChar e ≠ '0' := by decide
  exact hall d (List.mem_range.2 h) hd

/-! ## Digits -/

/-- A numeral is made of its digits, the most significant one first. -/
theorem numeral_induction {b : Nat} (hb : 2 ≤ b) {P : Nat → List Char → Prop}
    (digit : ∀ n, n < b → P n [digitChar n])
    (more : ∀ n, b ≤ n → P (n / b) (numeral b (n / b)) →
      P n (numeral b (n / b) ++ [digitChar (n % b)])) (n : Nat) : P n (numeral b n) := by
  induction n using Nat.strongRecOn with
  | _ n ih =>
    by_cases h : n < b
    · rw [numeral_of_lt h]
      exact digit n h
    · have hle := Nat.not_lt.1 h
      rw [numeral_of_le hle hb]
      exact more n hle (ih (n / b) (Nat.div_lt_self (by omega) (by omega)))

/-- What holds of the digits of a base holds of all characters of a numeral. -/
theorem forall_mem_numeral {b : Nat} (hb : 2 ≤ b) (P : Char → Prop)
    (h : ∀ d ∈ List.range b, P (digitChar d)) {n : Nat} {c : Char} (hc : c ∈ numeral b n) : P c := by
  refine numeral_induction hb (P := fun _ s => c ∈ s → P c) ?_ ?_ n hc
  · intro n hn hc
    rw [List.mem_singleton.1 hc]
    exact h n (List.mem_range.2 hn)
  · intro n _ ih hc
    rcases List.mem_append.1 hc with hc | hc
    · exact ih hc
    · rw [List.mem_singleton.1 hc]
      exact h (n % b) (List.mem_range.2 (Nat.mod_lt n (by omega)))

/-- Only the numeral of zero starts with a zero. -/
theorem head?_numeral {b n : Nat} (hb : 2 ≤ b) (hb' : b ≤ 36) (hn : n ≠ 0) :
    (numeral b n).head? ≠ some '0' := by
  refine numeral_induction hb (P := fun n s => n ≠ 0 → s.head? ≠ some '0') ?_ ?_ n hn
  · intro n hn hne h
    exact digitChar_ne_zero (by omega) hne (Option.some.inj h)
  · intro n hn ih _ h
    have hpos : 0 < n / b := Nat.div_pos hn (by omega)
    refine ih (by omega) ?_
    obtain ⟨c, r, hcons⟩ := List.exists_cons_of_ne_nil (numeral_ne_nil b (n / b))
    rw [hcons] at h ⊢
    exact h

theorem length_numeral_le {b n k : Nat} (hb : 2 ≤ b) (hn : n < b ^ (k + 1)) :
    (numeral b n).length ≤ k + 1 := by
  refine numeral_induction hb (P := fun n s => ∀ k, n < b ^ (k + 1) → s.length ≤ k + 1) ?_ ?_ n k hn
  · intro n _ k _
    simp
  · intro n hle ih k hn
    cases k with
    | zero =>
      rw [Nat.zero_add, Nat.pow_one] at hn
      omega
    | succ k =>
      have hdiv : n / b < b ^ (k + 1) := by
        rw [Nat.div_lt_iff_lt_mul (by omega)]
        rwa [Nat.pow_succ] at hn
      rw [List.length_append, List.length_singleton]
      exact Nat.succ_le_succ (ih k hdiv)

theorem lt_length_numeral {b n k : Nat} (hb : 2 ≤ b) (hn : b ^ k ≤ n) : k < (numeral b n).length := by
  refine numeral_induction hb (P := fun n s => ∀ k, b ^ k ≤ n → k < s.length) ?_ ?_ n k hn
  · intro n hlt k hk
    cases k with
    | zero => simp
    | succ k =>
      have hle : b ^ 1 ≤ b ^ (k + 1) := Nat.pow_le_pow_right (by omega) (by omega)
      rw [Nat.pow_one] at hle
      omega
  · intro n _ ih k hk
    rw [List.length_append, List.length_singleton]
    cases k with
    | zero => omega
    | succ k =>
      have hdiv : b ^ k ≤ n / b := by
        rw [Nat.le_div_iff_mul_le (by omega)]
        rwa [Nat.pow_succ] at hk
      exact Nat.succ_lt_succ (ih k hdiv)

/-- The numeral of a larger number is not shorter. -/
theorem length_numeral_le_length {b m n : Nat} (hb : 2 ≤ b) (h : m ≤ n) :
    (numeral b m).length ≤ (numeral b n).length := by
  obtain ⟨c, s, hcons⟩ := List.exists_cons_of_ne_nil (numeral_ne_nil b n)
  have hn : n < b ^ (s.length + 1) := by
    rcases Nat.lt_or_ge n (b ^ (s.length + 1)) with hlt | hge
    · exact hlt
    · have hlength : s.length + 1 < (numeral b n).length := lt_length_numeral hb hge
      rw [hcons, List.length_cons] at hlength
      omega
  rw [hcons]
  exact length_numeral_le hb (Nat.lt_of_le_of_lt h hn)

theorem toList_decimal (i : Int) :
    (decimal i).toList = (if i < 0 then ['-'] else []) ++ numeral 10 i.natAbs := by
  unfold decimal
  split
  · simp
  · simp

theorem toList_decimal_natCast (n : Nat) : (decimal n).toList = numeral 10 n := by
  have hnonneg : ¬ (n : Int) < 0 := by omega
  rw [toList_decimal, if_neg hnonneg, List.nil_append, Int.natAbs_natCast]

/-! ## Reading -/

theorem readDigits_append (b acc : Nat) (s t : List Char) :
    readDigits b acc (s ++ t) = (readDigits b acc s).bind fun n => readDigits b n t := by
  induction s generalizing acc with
  | nil => rfl
  | cons c s ih =>
    rw [List.cons_append, readDigits, readDigits]
    cases digitValue? b c with
    | none => rfl
    | some d => exact ih _

/-- A numeral is read back if its digits are written so that they keep their values. -/
theorem readDigits_numeral {b : Nat} (hb : 2 ≤ b) {write : Char → Char}
    (hwrite : ∀ d < b, digitValue? b (write (digitChar d)) = some d) (n : Nat) :
    readDigits b 0 ((numeral b n).map write) = some n := by
  refine numeral_induction hb (P := fun n s => readDigits b 0 (s.map write) = some n) ?_ ?_ n
  · intro n hn
    simp [readDigits, hwrite n hn]
  · intro n _ ih
    have hdigit := hwrite (n % b) (Nat.mod_lt n (by omega))
    rw [List.map_append, readDigits_append, ih]
    simp [readDigits, hdigit, Nat.div_add_mod']

theorem readDigits_zeros {b : Nat} (hb : digitValue? b '0' = some 0) (k : Nat) (s : List Char) :
    readDigits b 0 (List.replicate k '0' ++ s) = readDigits b 0 s := by
  induction k with
  | zero => rfl
  | succ k ih =>
    rw [List.replicate_succ, List.cons_append, readDigits, hb]
    simpa using ih

theorem readNumeral?_of_ne_nil {b : Nat} {s : List Char} (h : s ≠ []) :
    readNumeral? b s = readDigits b 0 s := by
  cases s with
  | nil => exact absurd rfl h
  | cons c s => rfl

theorem readDigits_self {b : Nat} (hb : 2 ≤ b) (hb' : b ≤ 36) (n : Nat) :
    readDigits b 0 (numeral b n) = some n := by
  have hwrite : ∀ d < b, digitValue? b (id (digitChar d)) = some d := by
    intro d hd
    rw [id_eq]
    exact digitValue?_digitChar hb' hd
  have hread := readDigits_numeral hb hwrite n
  rwa [List.map_id] at hread

theorem readNumeral?_numeral (n : Nat) : readNumeral? 10 (numeral 10 n) = some n := by
  rw [readNumeral?_of_ne_nil (numeral_ne_nil 10 n)]
  exact readDigits_self (by decide) (by decide) n

theorem numeral_inj {b m n : Nat} (hb : 2 ≤ b) (hb' : b ≤ 36) (h : numeral b m = numeral b n) :
    m = n := by
  have hread := readDigits_self hb hb' m
  rw [h, readDigits_self hb hb'] at hread
  exact (Option.some.inj hread).symm

end MarketingForm.Text
