import MarketingForm.Form.Bag
import MarketingForm.Yaml.Decode

/-!
# Mappings as bags

The entries of a mapping are assigned in turn: a repeated key keeps its first place and takes its
last value.
-/

namespace MarketingForm

open Yaml

/-- Reads a mapping as a bag. -/
def Bag.decode {α : Type} (decode : Decoder α) : Decoder (Bag α) :=
  mappingOf "a map"
    ⟨fun _ => text, fun name (b : Bag α) s n => do
      let v ← decode s n
      pure (b.insert name v)⟩
    .empty pure

end MarketingForm
