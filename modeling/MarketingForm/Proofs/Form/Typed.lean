import MarketingForm.Command.Run
import MarketingForm.Proofs.Form.Ids
import MarketingForm.Proofs.Form.Reading

/-!
# Well-typed forms

A field is well typed if its type is known, if it holds all properties that the type declares, each as a
value of the kind of the default, and if its other properties are texts. New fields are (`wellTyped_new`),
and the edits keep it so: a typed value is read as the kind that its property must have
(`kind_typedValue`).
-/

namespace MarketingForm

/-! ## Kinds of values -/

/-- The properties are those of a definition, with values of the kinds of its defaults, and texts. -/
structure Properties.Fit (ps : Properties) (d : Definition) : Prop where
  declared : ∀ name v, d.defaults.get? name = some v → ∃ w, ps.get? name = some w ∧ w.kind = v.kind
  others : ∀ name w, ps.get? name = some w → d.defaults.get? name = none → w.kind = .text

/-- The kind that a definition demands of a property. -/
def Definition.kindOf (d : Definition) (name : String) : ValueKind :=
  ((d.defaults.get? name).map Value.kind).getD .text

namespace Properties.Fit

variable {ps : Properties} {d : Definition}

theorem defaults (d : Definition) : Properties.Fit d.defaults d where
  declared _ v hv := ⟨v, hv, rfl⟩
  others name w hw hnone := by
    rw [hnone] at hw
    cases hw

/-- A property may be set to any value of the kind that it must have. -/
theorem insert (h : Properties.Fit ps d) {name : String} {v : Value} (hv : v.kind = d.kindOf name) :
    Properties.Fit (ps.insert name v) d where
  declared key u hu := by
    rw [Bag.get?_insert]
    by_cases hkey : key = name
    · subst hkey
      refine ⟨v, if_pos rfl, ?_⟩
      rw [hv, Definition.kindOf, hu]
      rfl
    · rw [if_neg hkey]
      exact h.declared key u hu
  others key w hw hnone := by
    rw [Bag.get?_insert] at hw
    by_cases hkey : key = name
    · subst hkey
      rw [if_pos rfl] at hw
      obtain rfl := Option.some.inj hw
      rw [hv, Definition.kindOf, hnone]
      rfl
    · rw [if_neg hkey] at hw
      exact h.others key w hw hnone

end Properties.Fit

/-- A typed value is read as the kind that its property must have, because the field's own value serves
as a template only for a property that is not declared. -/
theorem kind_typedValue {f : Field} {d : Definition} (hlookup : Definition.lookup? f.typeKey = some d)
    (hfit : Properties.Fit f.props d) {name raw : String} {v : Value}
    (h : typedValue f name raw false = .ok v) : v.kind = d.kindOf name := by
  have hread : Value.read (f.template name) raw = .ok v := h
  rw [Value.kind_read hread, Definition.kindOf, Field.template, hlookup, Option.bind_some]
  cases hdefault : d.defaults.get? name with
  | some u => rfl
  | none =>
    rw [Option.none_or]
    cases hown : f.props.get? name with
    | none => rfl
    | some w => exact hfit.others name w hown hdefault

/-! ## Fields and forms -/

def Field.WellTyped (f : Field) : Prop :=
  ∃ d, Definition.lookup? f.typeKey = some d ∧ Properties.Fit f.props d

def Form.WellTyped (form : Form) : Prop := ∀ f ∈ form.fields, f.WellTyped

theorem wellTyped_new (k : Kind) (id : FieldId) : (Field.new k.definition id).WellTyped := by
  refine ⟨k.definition, ?_, .defaults _⟩
  rw [Field.new, Definition.key, Kind.kind_definition, Definition.lookup?, Kind.ofKey?_key]
  rfl

namespace Form.WellTyped

variable {form form' : Form} {id newId : FieldId}

theorem add (h : form.WellTyped) {key : String} {index? : Option Nat}
    (hadd : form.add newId key index? = .ok form') : form'.WellTyped := by
  obtain ⟨k, i, -, -, hi, rfl⟩ := exists_of_add hadd
  intro f hf
  rcases (List.mem_insertIdx hi).1 hf with rfl | hf
  · exact wellTyped_new k newId
  · exact h f hf

theorem remove (h : form.WellTyped) {f : Field} (hremove : form.remove id = .ok (f, form')) :
    form'.WellTyped := by
  obtain ⟨before, after, hfields, -, -, rfl⟩ := exists_of_remove hremove
  intro f' hf'
  refine h f' ?_
  rw [hfields]
  rcases List.mem_append.1 hf' with hf' | hf'
  · exact List.mem_append_left _ hf'
  · exact List.mem_append_right _ (List.mem_cons_of_mem _ hf')

theorem set (h : form.WellTyped) {field : Field} (hfield : form.field? id = some field)
    {name raw : String} {v : Value} (hv : typedValue field name raw false = .ok v)
    (hset : form.set id name v = .ok form') : form'.WellTyped := by
  unfold Form.set at hset
  obtain ⟨hid, before, after, hfields, hbefore⟩ := List.find?_eq_some_iff_append.1 hfield
  rw [hfields, change_first (by simpa using hbefore) (by simpa using hid)] at hset
  cases hset
  have hmem : ∀ f, f ∈ before ++ field :: after → f.WellTyped := by
    rw [← hfields]
    exact h
  obtain ⟨d, hlookup, hfit⟩ := hmem field (by simp)
  intro f hf
  rcases List.mem_append.1 hf with hf | hf
  · exact hmem f (List.mem_append_left _ hf)
  · rcases List.mem_cons.1 hf with rfl | hf
    · exact ⟨d, hlookup, hfit.insert (kind_typedValue hlookup hfit hv)⟩
    · exact hmem f (List.mem_append_right _ (List.mem_cons_of_mem _ hf))

end Form.WellTyped

end MarketingForm
