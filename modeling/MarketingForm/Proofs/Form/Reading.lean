import Mathlib.Data.Nat.Digits.Defs
import MarketingForm.Form.Reading
import MarketingForm.Proofs.Json.Manifest
import MarketingForm.Proofs.Text.Blank
import MarketingForm.Proofs.Text.Numeral

/-!
# Typed values are read back

A typed text is read as a value of the template's kind (`Value.kind_read`). As an integer it is read
exactly if it denotes one of 64 bits: decimal digits behind an optional sign, with blanks around them
(`Value.readAs_integer_iff`). So every value is read back from the text that it is written as
(`Value.read_written`).
-/

namespace MarketingForm

/-! ## Decimal integers -/

namespace Text

/-- The number that decimal digits denote, the most significant digit first. -/
def digitsValue (ds : List Char) : Nat := Nat.ofDigits 10 (ds.map fun c => c.toNat - 0x30).reverse

/-- The text is one decimal digit or more. -/
structure IsDigits (ds : List Char) : Prop where
  ne_nil : ds ≠ []
  digit : ∀ c ∈ ds, '0' ≤ c ∧ c ≤ '9'

/-- The text is an integer: decimal digits behind an optional sign. -/
inductive Denotes : List Char → Int → Prop where
  | bare {ds : List Char} (h : IsDigits ds) : Denotes ds (digitsValue ds)
  | plus {ds : List Char} (h : IsDigits ds) : Denotes ('+' :: ds) (digitsValue ds)
  | minus {ds : List Char} (h : IsDigits ds) : Denotes ('-' :: ds) (-digitsValue ds)

/-- The text is an integer between blanks. -/
def DenotesPadded (cs : List Char) (i : Int) : Prop :=
  ∃ lead body trail, cs = lead ++ body ++ trail ∧ (∀ c ∈ lead, isBlank c = true) ∧
    (∀ c ∈ trail, isBlank c = true) ∧ Denotes body i

theorem digitsValue_cons (c : Char) (r : List Char) :
    digitsValue (c :: r) = digitsValue r + 10 ^ r.length * (c.toNat - 0x30) := by
  rw [digitsValue, List.map_cons, Nat.ofDigits_reverse_cons, List.length_map]
  rfl

theorem digitsValue_concat (ds : List Char) (c : Char) :
    digitsValue (ds ++ [c]) = (c.toNat - 0x30) + 10 * digitsValue ds := by
  rw [digitsValue, List.map_append, List.reverse_append]
  rfl

theorem isDigits_numeral (n : Nat) : IsDigits (numeral 10 n) where
  ne_nil := numeral_ne_nil 10 n
  digit _ hc := forall_mem_numeral (by decide) (fun c => '0' ≤ c ∧ c ≤ '9') (by decide) hc

theorem toNat_digitChar {d : Nat} (h : d < 10) : (digitChar d).toNat - 0x30 = d := by
  have hall : ∀ e ∈ List.range 10, (digitChar e).toNat - 0x30 = e := by decide
  exact hall d (List.mem_range.2 h)

theorem digitsValue_numeral (n : Nat) : digitsValue (numeral 10 n) = n := by
  refine numeral_induction (by decide) (P := fun n s => digitsValue s = n) ?_ ?_ n
  · intro n hn
    have hdigit := digitsValue_concat [] (digitChar n)
    rwa [toNat_digitChar hn] at hdigit
  · intro n _ ih
    rw [digitsValue_concat, ih, toNat_digitChar (Nat.mod_lt n (by decide))]
    exact Nat.mod_add_div n 10

theorem denotes_decimal (i : Int) : Denotes (decimal i).toList i := by
  have hdigits := isDigits_numeral i.natAbs
  have hvalue := digitsValue_numeral i.natAbs
  rw [toList_decimal]
  split
  · have hminus := Denotes.minus hdigits
    rwa [hvalue, show -(i.natAbs : Int) = i by omega] at hminus
  · have hbare := Denotes.bare hdigits
    rwa [hvalue, show (i.natAbs : Int) = i by omega] at hbare

/-! ## Blanks around an integer -/

theorem not_isBlank_digit {c : Char} (h : '0' ≤ c ∧ c ≤ '9') : isBlank c = false := by
  have hlow : 0x30 ≤ c.toNat := h.1
  have hhigh : c.toNat ≤ 0x39 := h.2
  simp only [isBlank, Bool.or_eq_false_iff, Bool.and_eq_false_iff, decide_eq_false_iff_not,
    beq_eq_false_iff_ne, ne_eq]
  omega

theorem Denotes.not_isBlank {cs : List Char} {i : Int} (h : Denotes cs i) :
    ∀ c ∈ cs, isBlank c = false := by
  cases h with
  | bare h => exact fun c hc => not_isBlank_digit (h.digit c hc)
  | plus h =>
    rw [List.forall_mem_cons]
    exact ⟨by decide, fun c hc => not_isBlank_digit (h.digit c hc)⟩
  | minus h =>
    rw [List.forall_mem_cons]
    exact ⟨by decide, fun c hc => not_isBlank_digit (h.digit c hc)⟩

theorem Denotes.ne_nil {cs : List Char} {i : Int} (h : Denotes cs i) : cs ≠ [] := by
  cases h with
  | bare h => exact h.ne_nil
  | plus h => exact List.cons_ne_nil _ _
  | minus h => exact List.cons_ne_nil _ _

theorem denotesPadded_iff {cs : List Char} {i : Int} : DenotesPadded cs i ↔ Denotes (trim cs) i := by
  constructor
  · rintro ⟨lead, body, trail, rfl, hlead, htrail, h⟩
    have hstart : startsWord body = true := by
      obtain ⟨c, r, rfl⟩ := List.exists_cons_of_ne_nil h.ne_nil
      simp [startsWord, h.not_isBlank c]
    have hend : EndsInWord body := fun c hc => h.not_isBlank c (List.mem_of_getLast? hc)
    rwa [trim_between hlead htrail hstart hend]
  · intro h
    obtain ⟨lead, trail, hcs, hlead, htrail⟩ := exists_trim cs
    exact ⟨lead, trim cs, trail, hcs, hlead, htrail, h⟩

theorem Denotes.padded {cs : List Char} {i : Int} (h : Denotes cs i) : DenotesPadded cs i :=
  ⟨[], cs, [], by simp, nofun, nofun, h⟩

end Text

open Text

/-! ## Reading integers -/

theorem decimalDigit?_of_digit {c : Char} (h : '0' ≤ c ∧ c ≤ '9') :
    decimalDigit? c = some (c.toNat - 0x30) := if_pos h

/-- Digits are read as what they denote behind the digits before them, if that is within the limit. -/
theorem readBounded_eq_ok_iff {limit acc m : Nat} {overflow : IntegerFault} {ds : List Char}
    (hacc : acc ≤ limit) : readBounded limit overflow acc ds = .ok m ↔
      (∀ c ∈ ds, '0' ≤ c ∧ c ≤ '9') ∧ acc * 10 ^ ds.length + digitsValue ds = m ∧ m ≤ limit := by
  induction ds generalizing acc with
  | nil =>
    have hvalue : acc * 10 ^ ([] : List Char).length + digitsValue [] = acc := by
      simp [digitsValue]
    rw [readBounded, Except.ok.injEq, hvalue]
    constructor
    · rintro rfl
      exact ⟨nofun, rfl, hacc⟩
    · exact fun h => h.2.1
  | cons c r ih =>
    rw [readBounded, List.forall_mem_cons]
    by_cases hc : '0' ≤ c ∧ c ≤ '9'
    · obtain ⟨d, hd⟩ : ∃ d, c.toNat - 0x30 = d := ⟨_, rfl⟩
      have hvalue : acc * 10 ^ (c :: r).length + digitsValue (c :: r) =
          (acc * 10 + d) * 10 ^ r.length + digitsValue r := by
        rw [digitsValue_cons, List.length_cons, hd, Nat.pow_succ]
        ring
      rw [decimalDigit?_of_digit hc, hd, hvalue]
      simp only [hc, true_and]
      split
      · rename_i hle
        exact ih hle
      · rename_i hgt
        -- The digits that follow only make the number larger.
        have hpos : (acc * 10 + d) * 1 ≤ (acc * 10 + d) * 10 ^ r.length :=
          Nat.mul_le_mul_left _ (Nat.pow_pos (by decide))
        constructor
        · nofun
        · rintro ⟨-, hm, hle⟩
          omega
    · have hnone : decimalDigit? c = none := if_neg hc
      rw [hnone]
      exact iff_of_false nofun fun h => hc h.1.1

theorem readMagnitude_eq_ok_iff {limit m : Nat} {overflow : IntegerFault} {ds : List Char} :
    readMagnitude limit overflow ds = .ok m ↔ IsDigits ds ∧ digitsValue ds = m ∧ m ≤ limit := by
  cases ds with
  | nil => exact iff_of_false nofun fun h => h.1.ne_nil rfl
  | cons c r =>
    rw [readMagnitude, readBounded_eq_ok_iff (Nat.zero_le limit), Nat.zero_mul, Nat.zero_add]
    constructor
    · rintro ⟨hdigits, hvalue⟩
      exact ⟨⟨List.cons_ne_nil c r, hdigits⟩, hvalue⟩
    · rintro ⟨hdigits, hvalue⟩
      exact ⟨hdigits.digit, hvalue⟩

theorem map_eq_ok_iff {ε α β : Type} {x : Except ε α} {f : α → β} {b : β} :
    x.map f = .ok b ↔ ∃ a, x = .ok a ∧ f a = b := by
  cases x <;> simp [Except.map]

/-- What is read as a signed number of 64 bits denotes it, if the limit is that of 64 bits. -/
theorem map_readMagnitude_eq_ok_iff {limit : Nat} {overflow : IntegerFault} {signed : Nat → Int}
    (hlimit : ∀ m, m ≤ limit ↔ -2 ^ 63 ≤ signed m ∧ signed m < 2 ^ 63) (ds : List Char) (n : Int64) :
    (readMagnitude limit overflow ds).map (fun m => Int64.ofInt (signed m)) = .ok n ↔
      IsDigits ds ∧ signed (digitsValue ds) = n.toInt := by
  rw [map_eq_ok_iff]
  constructor
  · rintro ⟨m, hm, rfl⟩
    obtain ⟨hds, rfl, hle⟩ := readMagnitude_eq_ok_iff.1 hm
    obtain ⟨hlow, hhigh⟩ := (hlimit _).1 hle
    exact ⟨hds, (Int64.toInt_ofInt_of_le hlow hhigh).symm⟩
  · rintro ⟨hds, hn⟩
    have hle : digitsValue ds ≤ limit := by
      rw [hlimit, hn]
      exact ⟨n.le_toInt, n.toInt_lt⟩
    exact ⟨_, readMagnitude_eq_ok_iff.2 ⟨hds, rfl, hle⟩, by rw [hn, Int64.ofInt_toInt]⟩

theorem readInt64_minus_iff {ds : List Char} {n : Int64} :
    readInt64 ('-' :: ds) = .ok n ↔ IsDigits ds ∧ -(digitsValue ds : Int) = n.toInt := by
  have hpow : Nat.pow 2 63 = 2 ^ 63 := rfl
  have hlimit : ∀ m : Nat, m ≤ Nat.pow 2 63 ↔ -2 ^ 63 ≤ -(m : Int) ∧ -(m : Int) < 2 ^ 63 := by omega
  exact map_readMagnitude_eq_ok_iff hlimit ds n

theorem readInt64_plus_iff {ds : List Char} {n : Int64} :
    readInt64 ('+' :: ds) = .ok n ↔ IsDigits ds ∧ (digitsValue ds : Int) = n.toInt := by
  have hpow : Nat.pow 2 63 = 2 ^ 63 := rfl
  have hlimit : ∀ m : Nat, m ≤ Nat.pow 2 63 - 1 ↔ -2 ^ 63 ≤ (m : Int) ∧ (m : Int) < 2 ^ 63 := by omega
  exact map_readMagnitude_eq_ok_iff hlimit ds n

/-- Without a sign a text is read as if a plus sign stood before it. -/
theorem readInt64_bare {c : Char} (hminus : c ≠ '-') (hplus : c ≠ '+') (r : List Char) :
    readInt64 (c :: r) = readInt64 ('+' :: c :: r) := by
  rw [readInt64.eq_def]
  split
  all_goals rename_i heq
  · cases heq
  · exact absurd (List.cons.inj heq).1 hminus
  · exact absurd (List.cons.inj heq).1 hplus
  · rfl

/-- What is read as an integer of 64 bits is what denotes it. -/
theorem readInt64_eq_ok_iff {cs : List Char} {n : Int64} :
    readInt64 cs = .ok n ↔ Denotes cs n.toInt := by
  constructor
  · intro h
    cases cs with
    | nil => cases h
    | cons c r =>
      by_cases hminus : c = '-'
      · subst hminus
        obtain ⟨hds, hn⟩ := readInt64_minus_iff.1 h
        exact hn ▸ .minus hds
      by_cases hplus : c = '+'
      · subst hplus
        obtain ⟨hds, hn⟩ := readInt64_plus_iff.1 h
        exact hn ▸ .plus hds
      · rw [readInt64_bare hminus hplus] at h
        obtain ⟨hds, hn⟩ := readInt64_plus_iff.1 h
        exact hn ▸ .bare hds
  · intro h
    generalize hn : n.toInt = i at h
    cases h with
    | bare hds =>
      obtain ⟨c, r, rfl⟩ := List.exists_cons_of_ne_nil hds.ne_nil
      have hdigit := hds.digit c List.mem_cons_self
      have hminus : c ≠ '-' := by
        rintro rfl
        exact absurd hdigit (by decide)
      have hplus : c ≠ '+' := by
        rintro rfl
        exact absurd hdigit (by decide)
      rw [readInt64_bare hminus hplus]
      exact readInt64_plus_iff.2 ⟨hds, hn.symm⟩
    | plus hds => exact readInt64_plus_iff.2 ⟨hds, hn.symm⟩
    | minus hds => exact readInt64_minus_iff.2 ⟨hds, hn.symm⟩

/-! ## Typed values -/

namespace Value

theorem kind_readAs {kind : ValueKind} {raw : String} {v : Value} (h : readAs kind raw = .ok v) :
    v.kind = kind := by
  cases kind with
  | flag =>
    rw [readAs] at h
    split at h <;> cases h
    rfl
  | integer =>
    rw [readAs] at h
    split at h <;> cases h
    rfl
  | choices =>
    rw [readAs] at h
    split at h <;> cases h
    rfl
  | text =>
    cases h
    rfl

theorem kind_read {template : Option Value} {raw : String} {v : Value}
    (h : read template raw = .ok v) : v.kind = (template.map kind).getD .text := by
  cases template with
  | none =>
    cases h
    rfl
  | some u => exact kind_readAs h

/-- An integer is read from a text that denotes it, with blanks around it or without. -/
theorem readAs_integer_iff {raw : String} {n : Int64} :
    readAs .integer raw = .ok (.integer n) ↔ DenotesPadded raw.toList n.toInt := by
  rw [denotesPadded_iff, ← readInt64_eq_ok_iff, readAs]
  cases readInt64 (trim raw.toList) <;> simp

theorem exists_readAs_integer_iff {raw : String} :
    (∃ v, readAs .integer raw = .ok v) ↔
      ∃ i, DenotesPadded raw.toList i ∧ -2 ^ 63 ≤ i ∧ i < 2 ^ 63 := by
  constructor
  · rintro ⟨v, h⟩
    cases v with
    | integer n => exact ⟨n.toInt, readAs_integer_iff.1 h, n.le_toInt, n.toInt_lt⟩
    | flag b => cases kind_readAs h
    | text s => cases kind_readAs h
    | choices cs => cases kind_readAs h
  · rintro ⟨i, h, hlow, hhigh⟩
    refine ⟨.integer (Int64.ofInt i), readAs_integer_iff.2 ?_⟩
    rwa [Int64.toInt_ofInt_of_le hlow hhigh]

/-! ## Written values -/

/-- The text that a value is read back from: what markup shows, and the manifest of a choice list. -/
def written : Value → String
  | choices cs => Choice.manifest cs
  | v => v.asText

theorem readAs_written (v : Value) : readAs v.kind v.written = .ok v := by
  cases v with
  | flag b => cases b <;> rfl
  | integer n => exact readAs_integer_iff.2 (denotes_decimal n.toInt).padded
  | text s => rfl
  | choices cs =>
    rw [kind, written, readAs, Json.readChoices_manifest]

/-- A value is read back from its text as a value of its kind, and whatever is read is of the template's
kind. Every text is read as a text, and one is read as an integer exactly if it denotes one of 64 bits,
with blanks around it or without. -/
theorem read_written :
    (∀ v template : Value, template.kind = v.kind → read (some template) v.written = .ok v) ∧
    (∀ template raw v, read template raw = .ok v → v.kind = (template.map kind).getD .text) ∧
    (∀ template raw, (template.map kind).getD .text = .text → read template raw = .ok (.text raw)) ∧
    (∀ k raw, (∃ v, read (some (.integer k)) raw = .ok v) ↔
      ∃ i, DenotesPadded raw.toList i ∧ -2 ^ 63 ≤ i ∧ i < 2 ^ 63) ∧
    ∀ k raw n, read (some (.integer k)) raw = .ok (.integer n) ↔
      DenotesPadded raw.toList n.toInt := by
  refine ⟨fun v template hkind => ?_, fun _ _ _ h => kind_read h, fun template raw htext => ?_,
    fun _ _ => exists_readAs_integer_iff, fun _ _ _ => readAs_integer_iff⟩
  · rw [read, hkind]
    exact readAs_written v
  · cases template with
    | none => rfl
    | some u =>
      have hkind : u.kind = .text := htext
      rw [read, hkind]
      rfl

/-- The least integer, choices with characters that JSON escapes, a number with zeros and blanks around
it, a switch word and a text without a template. -/
theorem read_written_limits :
    read (some (.integer 0)) "-9223372036854775808" = .ok (.integer Int64.minValue) ∧
    read (some (.choices [])) (Choice.manifest [⟨"a\"\\\n", "\x07é"⟩, ⟨"", ","⟩]) =
      .ok (.choices [⟨"a\"\\\n", "\x07é"⟩, ⟨"", ","⟩]) ∧
    (read (some (.flag false)) "Yes" = .ok (.flag true) ∧ (Value.flag true).kind = .flag) ∧
    read none " 42" = .ok (.text " 42") ∧
    (∃ v, read (some (.integer 0)) "\u3000+007\n" = .ok v) ∧
    read (some (.integer 0)) "\u3000+007\n" = .ok (.integer 7) := by
  obtain ⟨hwritten, hkind, htext, hexists, hinteger⟩ := read_written
  have hseven : DenotesPadded "\u3000+007\n".toList 7 :=
    ⟨['\u3000'], "+007".toList, ['\n'], by decide, List.forall_mem_singleton.2 (by decide),
      List.forall_mem_singleton.2 (by decide), @Denotes.plus ['0', '0', '7'] ⟨by decide, by simp⟩⟩
  have hyes : read (some (.flag false)) "Yes" = .ok (.flag true) := by decide
  have hleast : (Value.integer Int64.minValue).written = "-9223372036854775808" := by decide +kernel
  refine ⟨hleast ▸ hwritten (.integer Int64.minValue) (.integer 0) rfl,
    hwritten (.choices _) (.choices []) rfl, ⟨hyes, hkind _ _ _ hyes⟩, htext none " 42" rfl,
    (hexists 0 _).2 ⟨7, hseven, by decide, by decide⟩, (hinteger 0 _ 7).2 hseven⟩

end Value

end MarketingForm
