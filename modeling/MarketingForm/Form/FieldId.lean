import MarketingForm.Text.Numeral

/-!
# Field ids

A minted id is the clock reading in milliseconds followed by a sequence number, both in base 36.
The sequence number is padded to four digits. A process counts the ids that it has minted in 64 bits.
-/

namespace MarketingForm

/-- The identity of a field within its form. -/
structure FieldId where
  text : String
deriving DecidableEq, Inhabited

/-- Pads a numeral with zeros to at least `width` digits. -/
def padZeros (width : Nat) (cs : List Char) : List Char :=
  List.replicate (width - cs.length) '0' ++ cs

/-- The id minted at a clock reading with a sequence number; before the epoch the clock reads zero.
-/
def FieldId.mint (millis : Int) (sequence : Nat) : FieldId :=
  ⟨String.ofList (Text.numeral 36 millis.toNat ++ padZeros 4 (Text.numeral 36 sequence))⟩

/-- Where a process takes its ids from: the sequence number of the next one. -/
structure IdSource where
  next : UInt64
deriving DecidableEq

/-- The source of a process that has not minted any id. -/
def IdSource.new : IdSource := ⟨0⟩

/-- Mints an id at a clock reading; behind the last sequence number comes zero again. -/
def IdSource.generate (s : IdSource) (millis : Int) : FieldId × IdSource :=
  (FieldId.mint millis s.next.toNat, ⟨s.next + 1⟩)

end MarketingForm
