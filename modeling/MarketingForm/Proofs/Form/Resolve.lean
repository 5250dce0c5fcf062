import MarketingForm.Form.Resolve
import MarketingForm.Proofs.Form.Bag

/-!
# Effective properties

The own entries of a field stand first and unchanged, the missing defaults behind them in the order of the
definition (`Bag.entries_fill`). So a bag that has been completed lacks nothing (`Bag.fill_fill`), and a
field that carries its effective properties has no others (`Field.resolve_resolved`).
-/

namespace MarketingForm

/-- The properties that a kind declares, in order. -/
def Kind.declared (k : Kind) : List String := k.definition.defaults.names

/-- What a kind declares has an effective value. -/
theorem Kind.exists_get?_of_declared {k : Kind} {name : String} (h : name ∈ k.declared)
    (props : Properties) : ∃ v, (props.fill k.definition.defaults).get? name = some v := by
  obtain ⟨e, he, rfl⟩ := List.mem_map.1 h
  exact Option.isSome_iff_exists.1 (Bag.contains_fill props he)

namespace Field

/-- Fields with one type key have effective properties of one kind. -/
theorem kind_eq_of_resolve {f g : Field} {r s : Resolved} (hr : f.resolve = .ok r)
    (hs : g.resolve = .ok s) (hkey : g.typeKey = f.typeKey) : s.kind = r.kind := by
  unfold resolve at hr hs
  rw [hkey] at hs
  cases hd : Definition.lookup? f.typeKey with
  | none =>
    rw [hd] at hr
    cases hr
  | some d =>
    rw [hd] at hr hs
    cases hr
    cases hs
    rfl

variable {f : Field} {k : Kind} (h : f.typeKey = k.key)
include h

theorem resolve_of_key : f.resolve = .ok ⟨k, f.props.fill k.definition.defaults⟩ := by
  have hlookup : Definition.lookup? f.typeKey = some k.definition := by
    rw [h, Definition.lookup?, Kind.ofKey?_key]
    rfl
  unfold resolve
  rw [hlookup]
  simp only [Kind.kind_definition]

/-- A field that carries its effective properties resolves to them. -/
theorem resolve_resolved {r : Resolved} (hr : f.resolve = .ok r) :
    resolve { f with props := r.props } = .ok r := by
  rw [resolve_of_key h] at hr
  cases hr
  have hagain := resolve_of_key (f := { f with props := f.props.fill k.definition.defaults }) h
  rwa [Bag.fill_fill] at hagain

end Field

end MarketingForm
