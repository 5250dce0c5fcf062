import Mathlib.Data.List.Nodup
import Mathlib.Order.Monotone.Basic
import MarketingForm.Form.FieldId
import MarketingForm.Proofs.Text.Numeral

/-!
# Minted ids

An id is a clock reading and a sequence number without a mark between them. Where the sequence numbers
of two ids take the same number of digits, equal ids have equal parts (`FieldId.mint_inj`). That is so
for all sequence numbers of up to four digits, whatever the clock reads (`FieldId.sequence_inj`), and for
all sequence numbers while the clock does not go back, because then neither part ever gets shorter
(`FieldId.mint_ne_of_lt`). So one process mints distinct ids (`IdSource.nodup_generateAll`).
-/

namespace MarketingForm

open Text (numeral)

theorem length_padZeros (width : Nat) (cs : List Char) :
    (padZeros width cs).length = max width cs.length := by
  rw [padZeros, List.length_append, List.length_replicate]
  omega

theorem padZeros_numeral_inj {width n n' : Nat}
    (h : padZeros width (numeral 36 n) = padZeros width (numeral 36 n')) : n = n' := by
  have hread : ∀ n, Text.readDigits 36 0 (padZeros width (numeral 36 n)) = some n := by
    intro n
    rw [padZeros, Text.readDigits_zeros (by decide)]
    exact Text.readDigits_self (by decide) (by decide) n
  have hn := hread n
  rw [h, hread n'] at hn
  exact (Option.some.inj hn).symm

namespace FieldId

variable {millis millis' : Int} {n n' : Nat}

/-! ## The parts of an id -/

/-- Where the sequence numbers take the same number of digits, equal ids have equal parts. -/
theorem mint_inj
    (hlength : (padZeros 4 (numeral 36 n)).length = (padZeros 4 (numeral 36 n')).length)
    (h : mint millis n = mint millis' n') : millis.toNat = millis'.toNat ∧ n = n' := by
  have htext := String.ofList_inj.1 (congrArg FieldId.text h)
  obtain ⟨hmillis, hn⟩ := List.append_inj' htext hlength
  exact ⟨Text.numeral_inj (by decide) (by decide) hmillis, padZeros_numeral_inj hn⟩

/-- Ids with sequence numbers of four digits are equal only if their sequence numbers are. -/
theorem sequence_inj (hn : n < 36 ^ 4) (hn' : n' < 36 ^ 4) (h : mint millis n = mint millis' n') :
    n = n' := by
  have hfour : ∀ {m : Nat}, m < 36 ^ 4 → (padZeros 4 (numeral 36 m)).length = 4 := by
    intro m hm
    have hlength : (numeral 36 m).length ≤ 4 := Text.length_numeral_le (by decide) hm
    rw [length_padZeros, Nat.max_eq_left hlength]
  exact (mint_inj ((hfour hn).trans (hfour hn').symm) h).2

/-- An id with a later sequence number is another one, unless the clock has gone back. -/
theorem mint_ne_of_lt (hclock : millis ≤ millis') (hn : n < n') : mint millis n ≠ mint millis' n' := by
  intro h
  have hmillis : (numeral 36 millis.toNat).length ≤ (numeral 36 millis'.toNat).length :=
    Text.length_numeral_le_length (by decide) (Int.toNat_le_toNat hclock)
  have hsequence : (numeral 36 n).length ≤ (numeral 36 n').length :=
    Text.length_numeral_le_length (by decide) (Nat.le_of_lt hn)
  -- Neither part is shorter in the second id, so in equal ids both are as long.
  have hlength : (padZeros 4 (numeral 36 n)).length = (padZeros 4 (numeral 36 n')).length := by
    have htext := congrArg List.length (String.ofList_inj.1 (congrArg FieldId.text h))
    rw [List.length_append, List.length_append, length_padZeros, length_padZeros] at htext
    rw [length_padZeros, length_padZeros]
    omega
  exact Nat.ne_of_lt hn (mint_inj hlength h).2

theorem digits_mint (millis : Int) (n : Nat) :
    ∀ c ∈ (mint millis n).text.toList, ('0' ≤ c ∧ c ≤ '9') ∨ ('a' ≤ c ∧ c ≤ 'z') := by
  have hdigits : ∀ m, ∀ c ∈ numeral 36 m, ('0' ≤ c ∧ c ≤ '9') ∨ ('a' ≤ c ∧ c ≤ 'z') := fun _ c hc =>
    Text.forall_mem_numeral (by decide) (fun c => ('0' ≤ c ∧ c ≤ '9') ∨ ('a' ≤ c ∧ c ≤ 'z'))
      (by decide) hc
  intro c hc
  rw [mint, String.toList_ofList, padZeros, List.mem_append, List.mem_append] at hc
  rcases hc with hc | hc | hc
  · exact hdigits _ c hc
  · rw [List.eq_of_mem_replicate hc]
    decide
  · exact hdigits _ c hc

/-- What an id looks like that is minted today: twelve digits or more, in base 36. -/
structure IsMinted (id : FieldId) : Prop where
  length : 12 ≤ id.text.toList.length
  digits : ∀ c ∈ id.text.toList, ('0' ≤ c ∧ c ≤ '9') ∨ ('a' ≤ c ∧ c ≤ 'z')

theorem isMinted_mint (h : 36 ^ 7 ≤ millis.toNat) (n : Nat) : (mint millis n).IsMinted := by
  have hlength : 7 < (numeral 36 millis.toNat).length := Text.lt_length_numeral (by decide) h
  refine ⟨?_, digits_mint millis n⟩
  rw [mint, String.toList_ofList, List.length_append, length_padZeros]
  omega

end FieldId

/-! ## The ids of one process -/

namespace IdSource

/-- The ids minted at clock readings, one after the other. -/
def generateAll (s : IdSource) : List Int → List FieldId
  | [] => []
  | millis :: clock => (s.generate millis).1 :: (s.generate millis).2.generateAll clock

theorem next_generate {s : IdSource} (h : s.next.toNat + 1 < UInt64.size) (millis : Int) :
    (s.generate millis).2.next.toNat = s.next.toNat + 1 :=
  Nat.mod_eq_of_lt h

/-- As long as the count does not overflow, the sequence numbers follow one another. -/
theorem generateAll_eq {s : IdSource} {clock : List Int}
    (h : s.next.toNat + clock.length < UInt64.size) :
    s.generateAll clock = (clock.zipIdx s.next.toNat).map fun p => FieldId.mint p.1 p.2 := by
  induction clock generalizing s with
  | nil => rfl
  | cons millis clock ih =>
    rw [List.length_cons] at h
    have hnext := next_generate (s := s) (by omega) millis
    have hrest := ih (s := (s.generate millis).2) (by omega)
    rw [generateAll, hrest, hnext, List.zipIdx_cons, List.map_cons]
    rfl

theorem nodup_mint_zipIdx {clock : List Int} (hclock : clock.Pairwise (· ≤ ·)) (n : Nat) :
    ((clock.zipIdx n).map fun p => FieldId.mint p.1 p.2).Nodup := by
  induction hclock generalizing n with
  | nil => exact List.nodup_nil
  | cons hfirst _ ih =>
    rw [List.zipIdx_cons, List.map_cons, List.nodup_cons]
    refine ⟨fun hmem => ?_, ih (n + 1)⟩
    obtain ⟨⟨millis', n'⟩, hp, heq⟩ := List.mem_map.1 hmem
    obtain ⟨hn, -, hmillis⟩ := List.mem_zipIdx hp
    exact FieldId.mint_ne_of_lt (hfirst millis' (hmillis ▸ List.getElem_mem _)) hn heq.symm

theorem digits_generateAll {s : IdSource} {clock : List Int} {id : FieldId}
    (h : id ∈ s.generateAll clock) :
    ∀ c ∈ id.text.toList, ('0' ≤ c ∧ c ≤ '9') ∨ ('a' ≤ c ∧ c ≤ 'z') := by
  induction clock generalizing s with
  | nil => cases h
  | cons millis clock ih =>
    rcases List.mem_cons.1 h with rfl | h
    · exact FieldId.digits_mint millis s.next.toNat
    · exact ih h

/-- The ids of one process are distinct as long as its clock does not go back and its count does not
overflow, and they are made of digits and small letters. The numerals that they are made of differ for
different numbers, have no zero in front but for zero itself, and do not get shorter as the number
grows. -/
theorem nodup_generateAll :
    (∀ clock : List Int, clock.Pairwise (· ≤ ·) → clock.length < UInt64.size →
      (new.generateAll clock).Nodup) ∧
    (∀ (s : IdSource) (clock : List Int), ∀ id ∈ s.generateAll clock, ∀ c ∈ id.text.toList,
      ('0' ≤ c ∧ c ≤ '9') ∨ ('a' ≤ c ∧ c ≤ 'z')) ∧
    Function.Injective (numeral 36) ∧
    (numeral 36 0 = ['0'] ∧ ∀ n ≠ 0, (numeral 36 n).head? ≠ some '0') ∧
    Monotone fun n => (numeral 36 n).length := by
  refine ⟨fun clock hclock hcount => ?_, fun _ _ _ hid => digits_generateAll hid, ?_, ⟨?_, ?_⟩, ?_⟩
  · have hcount' : new.next.toNat + clock.length < UInt64.size := by
      rwa [show new.next.toNat = 0 from rfl, Nat.zero_add]
    rw [generateAll_eq hcount']
    exact nodup_mint_zipIdx hclock _
  · intro m n h
    exact Text.numeral_inj (by decide) (by decide) h
  · exact Text.numeral_of_lt (by decide)
  · intro n hn
    exact Text.head?_numeral (by decide) (by decide) hn
  · intro m n h
    exact Text.length_numeral_le_length (by decide) h

/-- Readings from before 1970 until the timestamp grows from eight digits to nine. -/
def longClock : List Int := [-5, 0, 2821109907455, 2821109907456]

theorem nodup_generateAll_longClock :
    new.generateAll longClock = [⟨"00000"⟩, ⟨"00001"⟩, ⟨"zzzzzzzz0002"⟩, ⟨"1000000000003"⟩] ∧
      (new.generateAll longClock).Nodup ∧
      (∀ c ∈ "zzzzzzzz0002".toList, ('0' ≤ c ∧ c ≤ '9') ∨ ('a' ≤ c ∧ c ≤ 'z')) ∧
      (numeral 36 36).head? ≠ some '0' ∧
      (numeral 36 (36 ^ 4 - 1)).length ≤ (numeral 36 (36 ^ 4)).length := by
  obtain ⟨hnodup, hdigits, -, ⟨-, hhead⟩, hlength⟩ := nodup_generateAll
  have hids : new.generateAll longClock =
      [⟨"00000"⟩, ⟨"00001"⟩, ⟨"zzzzzzzz0002"⟩, ⟨"1000000000003"⟩] := by decide +kernel
  refine ⟨hids, hnodup longClock (by decide) (by decide), ?_, hhead 36 (by decide), hlength (by decide)⟩
  exact hdigits new longClock ⟨"zzzzzzzz0002"⟩ (by simp [hids])

end IdSource

end MarketingForm
