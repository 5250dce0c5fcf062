import MarketingForm.Proofs.Fragment.Switches

/-!
# Scalar properties in fragments

The fragment of a field that takes input shows the text of each of its scalar properties, but for the
default of a radio field, in an attribute of its own; the label of a consent field is its text
(`Fragment.textOf_element`). With the ids and the switches this makes fields of one kind whose fragments are
equal agree on their ids and on all of that (`scalars_of_render_eq`).
-/

namespace MarketingForm

open Html

/-- The properties of a kind that hold texts or numbers, and the opt-in rule; without the default of a radio
field. -/
def Kind.scalars (k : Kind) : List String :=
  (k.definition.defaults.entries.filter fun e =>
    (e.2.kind = .text || e.2.kind = .integer || e.1 = "optInWhenChecked") &&
      !(k = .radio && e.1 = "defaultValue")).map Prod.fst

theorem Kind.declared_of_scalars {k : Kind} {name : String} (h : name ∈ k.scalars) :
    name ∈ k.declared := by
  obtain ⟨e, he, rfl⟩ := List.mem_map.1 h
  exact List.mem_map_of_mem (List.mem_filter.1 he).1

/-- The attribute that shows a property. -/
def attributeOf : String → String
  | "label" => "title"
  | "logicalName" => "data-targetproperty"
  | "maxLength" => "maxlength"
  | "complianceSettingsId" => "data-compliancesettingsid"
  | "complianceSettingsName" => "data-compliancesettingsname"
  | "purposeId" => "data-purposeid"
  | "purposeName" => "data-purposename"
  | "channels" => "data-channels"
  | "optInWhenChecked" => "data-optinwhenchecked"
  | name => name

/-- The text of a property as the tree of a kind shows it. -/
def Html.Node.textOf (k : Kind) (name : String) (n : Node) : Option String :=
  if k = .consent ∧ name = "label" then some n.content else (n.values (attributeOf name)).head?

namespace Fragment

open Element

section

variable (r : Resolved) (id : FieldId) {name : String}

@[simp] theorem own_title_label (forId : String) (block : Bool) :
    (label r forId block).own "title" = [r.text "label"] := by
  simp [label]

@[simp] theorem own_target_boundWrapper :
    (boundWrapper r).own "data-targetproperty" = [r.text "logicalName"] := by
  simp [boundWrapper]

/-! ## The texts -/

theorem scalars_inputBlock (type : String) {extra : Element → Element}
    (hown : ∀ e name, name ∉ ["maxlength", "pattern"] → (extra e).own name = e.own name)
    (hinner : ∀ e name, (extra e).inner name = e.inner name) :
    ∀ name ∈ ["label", "placeholder", "logicalName"],
      ((inputBlock r id type extra).tree.values (attributeOf name)).head? = some (r.text name) := by
  simp [attributeOf, values_tree, inputBlock, hown, hinner]

theorem maxLength_textInput : ((textInput r id).tree.values "maxlength").head? = some (r.text "maxLength") := by
  simp [values_tree, textInput, inputBlock]

theorem scalars_textArea : ∀ name ∈ Kind.textArea.scalars,
    ((textArea r id).tree.values (attributeOf name)).head? = some (r.text name) := by
  have hscalars : Kind.textArea.scalars = ["label", "placeholder", "logicalName", "rows", "maxLength"] :=
    rfl
  rw [hscalars]
  simp [attributeOf, values_tree, textArea]

theorem scalars_dropdown : ∀ name ∈ ["label", "logicalName"],
    ((dropdown r id).tree.values (attributeOf name)).head? = some (r.text name) := by
  simp [attributeOf, values_tree, dropdown]

theorem scalars_checkbox : ∀ name ∈ ["label", "logicalName"],
    ((checkbox r id).tree.values (attributeOf name)).head? = some (r.text name) := by
  simp [attributeOf, values_tree, checkbox, choiceWrapper]

theorem scalars_radio : ∀ name ∈ ["label", "logicalName"],
    ((radio r id).tree.values (attributeOf name)).head? = some (r.text name) := by
  simp [attributeOf, values_tree, radio, choiceWrapper]

theorem scalars_consent : ∀ name ∈ Kind.consent.scalars, name ≠ "label" →
    ((consent r id).tree.values (attributeOf name)).head? = some (r.text name) := by
  have hscalars : Kind.consent.scalars = ["label", "complianceSettingsId", "complianceSettingsName",
    "purposeId", "purposeName", "channels", "optInWhenChecked"] := rfl
  rw [hscalars]
  simp [attributeOf, values_tree, consent]

theorem content_consent : (consent r id).tree.content = r.text "label" := by
  obtain ⟨input, caption, hconsent, -, hinput, hcaption⟩ := exists_consent_parts id
  have hbox : (((new "div").child (markControl (input r) r)).child (caption r)).Holds
      [markControl (input r) r, caption r] :=
    ((holds_new "div").child _).child _
  have htext : ((new "p").text (r.text "label")).tree.content = r.text "label" :=
    content_text (holds_new "p") _
  simp [content_of_holds (hconsent r), content_of_holds hbox,
    content_of_holds (holds_markControl r (hinput r).2), content_of_holds (hcaption r).2, htext,
    Node.contentAll]

end

theorem textOf_of_values {k : Kind} {name t : String} {n : Node} (hk : k ≠ .consent)
    (h : (n.values (attributeOf name)).head? = some t) : n.textOf k name = some t := by
  rw [Node.textOf, if_neg fun hconsent => hk hconsent.1, h]

/-- The tree of a fragment shows the scalar properties of its field. -/
theorem textOf_element {r : Resolved} {k : Kind} (hr : r.kind = k) (hk : k.TakesInput) (id : FieldId)
    {name : String} (hname : name ∈ k.scalars) :
    (r.element id).tree.textOf k name = some (r.text name) := by
  have hpattern (e : Element) (a : String) (ha : a ∉ ["maxlength", "pattern"]) :
      (e.attr "pattern" phonePattern).own a = e.own a :=
    e.own_attr_of_ne a _ fun heq => ha (heq ▸ by decide)
  have hlength (e : Element) (a : String) (ha : a ∉ ["maxlength", "pattern"]) :
      (e.attr "maxlength" (r.text "maxLength")).own a = e.own a :=
    e.own_attr_of_ne a _ fun heq => ha (heq ▸ by decide)
  unfold Resolved.element
  rw [hr]
  cases k with
  | text =>
    have hscalars : Kind.text.scalars = ["label", "placeholder", "logicalName"] ++ ["maxLength"] := rfl
    rw [hscalars, List.mem_append, List.mem_singleton] at hname
    refine textOf_of_values (by decide) ?_
    rcases hname with hname | rfl
    · exact scalars_inputBlock r id "text" hlength (fun _ _ => rfl) name hname
    · exact maxLength_textInput r id
  | email =>
    exact textOf_of_values (by decide)
      (scalars_inputBlock r id "email" (fun _ _ _ => rfl) (fun _ _ => rfl) name hname)
  | phone =>
    exact textOf_of_values (by decide)
      (scalars_inputBlock r id "tel" hpattern (fun _ _ => rfl) name hname)
  | dateTime =>
    exact textOf_of_values (by decide)
      (scalars_inputBlock r id "datetime-local" (fun _ _ _ => rfl) (fun _ _ => rfl) name hname)
  | textArea => exact textOf_of_values (by decide) (scalars_textArea r id name hname)
  | dropdown => exact textOf_of_values (by decide) (scalars_dropdown r id name hname)
  | checkbox => exact textOf_of_values (by decide) (scalars_checkbox r id name hname)
  | radio => exact textOf_of_values (by decide) (scalars_radio r id name hname)
  | consent =>
    by_cases hlabel : name = "label"
    · subst hlabel
      exact congrArg some (content_consent r id)
    · rw [Node.textOf, if_neg fun h => hlabel h.2]
      exact scalars_consent r id name hname hlabel
  | textBlock | divider | submit => exact absurd rfl hk

/-! ## The switches -/

theorem own_of_lacks {tag name : String} {names : List String} {as : List Attribute} {ns : List Node}
    (h : Node.Lacks names (.element tag as ns)) (hname : name ∈ names) : attributeValues name as = [] := by
  refine List.filterMap_eq_nil_iff.2 fun a ha => ?_
  have hne : ¬ a.name = name := fun heq => h a (List.mem_append_left _ ha) (heq ▸ hname)
  rw [if_neg hne]

/-- The wrapper shows which switches are on. -/
theorem own_switches {t : SwitchedTree} (h : (t.tree false false).Lacks switchNames) (p q : Bool) :
    (t.tree p q).own "data-required" = (if p then [t.requiredValue] else []) ∧
      (t.tree p q).own "data-prefill" = if q then ["prefill"] else [] := by
  have hrequired := own_of_lacks h (show "data-required" ∈ switchNames by decide)
  have hprefill := own_of_lacks h (show "data-prefill" ∈ switchNames by decide)
  simp only [attributeValues, List.filterMap_append, List.append_eq_nil_iff] at hrequired hprefill
  obtain ⟨⟨⟨hfront, -⟩, hrear⟩, -⟩ := hrequired
  obtain ⟨⟨⟨hfront', -⟩, hrear'⟩, -⟩ := hprefill
  simp only [SwitchedTree.tree, Node.own, attributeValues, List.filterMap_append, hfront, hrear, hfront',
    hrear']
  cases p <;> cases q <;> exact ⟨rfl, rfl⟩

/-- The tree of a field that takes input, as one of a pattern. -/
theorem own_switches_element {r : Resolved} (hk : r.kind.TakesInput) (id : FieldId) : ∃ value,
    (r.element id).tree.own "data-required" = (if r.isOn "required" then [value] else []) ∧
      (r.element id).tree.own "data-prefill" = if r.isOn "prefill" then ["prefill"] else [] := by
  obtain ⟨front, rear, parts, hfollows⟩ := follows_element r id hk
  have hlacks : ((r.switched false false).element id).tree.Lacks switchNames :=
    lacks_element (r.isOn_required_switched _ _) (r.isOn_prefill_switched _ _) id hk
  rw [hfollows.tree] at hlacks
  have hsame := element_congr id (Resolved.agreeOn_switched (r := r) rfl fun _ _ _ _ => rfl)
  rw [hsame, hfollows.tree]
  exact ⟨_, own_switches hlacks _ _⟩

/-- Fields whose fragments have one tree agree on the switches. -/
theorem isOn_eq_of_tree_eq {r s : Resolved} {id id' : FieldId} (hr : r.kind.TakesInput)
    (hs : s.kind.TakesInput) (h : (r.element id).tree = (s.element id').tree) :
    r.isOn "required" = s.isOn "required" ∧ r.isOn "prefill" = s.isOn "prefill" := by
  obtain ⟨value, hrequired, hprefill⟩ := own_switches_element hr id
  obtain ⟨value', hrequired', hprefill'⟩ := own_switches_element hs id'
  rw [h, hrequired'] at hrequired
  rw [h, hprefill'] at hprefill
  constructor
  · revert hrequired
    cases r.isOn "required" <;> cases s.isOn "required" <;> simp
  · revert hprefill
    cases r.isOn "prefill" <;> cases s.isOn "prefill" <;> simp

/-! ## The id -/

theorem id_eq_of_text_append {id id' : FieldId} {s : String} (h : s ++ id.text = s ++ id'.text) :
    id = id' := by
  have htext : id.text = id'.text := by
    refine String.toList_injective ?_
    simpa using congrArg String.toList h
  cases id
  cases id'
  exact congrArg FieldId.mk htext

/-- Fields of one kind with one logical name whose fragments have the same ids are one field. -/
theorem id_eq_of_elementIds_eq {r s : Resolved} {k : Kind} {id id' : FieldId} (hr : r.kind = k)
    (hs : s.kind = k) (hk : k.TakesInput)
    (hname : k ≠ .consent → r.text "logicalName" = s.text "logicalName")
    (h : r.elementIds id = s.elementIds id') : id = id' := by
  have hbound (hne : k ≠ .consent) (hhead : controlId r id = controlId s id') : id = id' := by
    rw [controlId, controlId, hname hne] at hhead
    exact id_eq_of_text_append hhead
  unfold Resolved.elementIds at h
  rw [hr, hs] at h
  cases k with
  | text | email | phone | textArea | dateTime | dropdown | checkbox | radio =>
    exact hbound (by decide) (List.cons.inj h).1
  | consent => exact id_eq_of_text_append (List.cons.inj h).1
  | textBlock | divider | submit => exact absurd rfl hk

end Fragment

/-! ## Fields -/

theorem Kind.logicalName_mem_scalars {k : Kind} (hk : k.TakesInput) (hne : k ≠ .consent) :
    "logicalName" ∈ k.scalars := by
  revert hk hne
  cases k <;> decide

/-- For any two fields of one kind that takes input: if their fragments are equal, they have the same id,
and their effective properties hold values with the same text for every declared text and number and for the
opt-in rule, but for the default of a radio field, and values that are both on or both off for the two
switches. -/
theorem scalars_of_render_eq {f g : Field} {k : Kind} (hk : k.TakesInput) (hf : f.typeKey = k.key)
    (hg : g.typeKey = k.key) (h : f.render = g.render) :
    f.id = g.id ∧ ∃ r s, f.resolve = .ok r ∧ g.resolve = .ok s ∧
      (∀ name ∈ k.scalars, ∃ v w, r.props.get? name = some v ∧ s.props.get? name = some w ∧
        v.asText = w.asText) ∧
      ∀ name ∈ ["required", "prefill"], ∃ v w, r.props.get? name = some v ∧
        s.props.get? name = some w ∧ v.isOn = w.isOn := by
  have hr := Field.resolve_of_key hf
  have hs := Field.resolve_of_key hg
  generalize hrdef : (⟨k, f.props.fill k.definition.defaults⟩ : Resolved) = r at hr
  generalize hsdef : (⟨k, g.props.fill k.definition.defaults⟩ : Resolved) = s at hs
  have hrk : r.kind = k := hrdef ▸ rfl
  have hsk : s.kind = k := hsdef ▸ rfl
  have hvalues : ∀ name ∈ k.declared, ∃ v w,
      r.props.get? name = some v ∧ s.props.get? name = some w := by
    intro name hname
    obtain ⟨v, hv⟩ := Kind.exists_get?_of_declared hname f.props
    obtain ⟨w, hw⟩ := Kind.exists_get?_of_declared hname g.props
    exact ⟨v, w, hrdef ▸ hv, hsdef ▸ hw⟩
  have htree : (r.element f.id).tree = (s.element g.id).tree := by
    rw [Field.render_of_resolve hr, Field.render_of_resolve hs, Except.ok.injEq] at h
    have hread := Adds.read rfl (Element.adds_render (Fragment.frame_ok_element r f.id))
    rw [h, Adds.read rfl (Element.adds_render (Fragment.frame_ok_element s g.id))] at hread
    exact (Option.some.inj hread).symm
  have htexts : ∀ name ∈ k.scalars, r.text name = s.text name := by
    intro name hname
    have hshown := Fragment.textOf_element hrk hk f.id hname
    rw [htree, Fragment.textOf_element hsk hk g.id hname] at hshown
    exact (Option.some.inj hshown).symm
  have hids : r.elementIds f.id = s.elementIds g.id := by
    rw [← (Fragment.values_element r f.id).1, htree, (Fragment.values_element s g.id).1]
  have hid : f.id = g.id := Fragment.id_eq_of_elementIds_eq hrk hsk hk
    (fun hne => htexts _ (Kind.logicalName_mem_scalars hk hne)) hids
  obtain ⟨hrequired, hprefill⟩ := Fragment.isOn_eq_of_tree_eq (hrk ▸ hk) (hsk ▸ hk) htree
  refine ⟨hid, r, s, hr, hs, fun name hname => ?_, fun name hname => ?_⟩
  · obtain ⟨v, w, hv, hw⟩ := hvalues name (Kind.declared_of_scalars hname)
    exact ⟨v, w, hv, hw, by
      rw [← Resolved.text_of_get? hv, ← Resolved.text_of_get? hw, htexts name hname]⟩
  · have hswitch : name ∈ k.declared ∧ r.isOn name = s.isOn name := by
      rcases List.mem_pair.1 hname with rfl | rfl
      · exact ⟨hk.declared.1, hrequired⟩
      · exact ⟨hk.declared.2, hprefill⟩
    obtain ⟨v, w, hv, hw⟩ := hvalues name hswitch.1
    exact ⟨v, w, hv, hw, by
      rw [← Resolved.isOn_of_get? hv, ← Resolved.isOn_of_get? hw, hswitch.2]⟩

/-- An email field with a flag for a text and a property that is not declared. -/
def flaggedEmail : Field := ⟨⟨"0"⟩, "email", .ofList [
  ("placeholder", .flag true), ("required", .flag true), ("note", .text "n")]⟩

/-- The same field with other values of the same meaning. -/
def spelledEmail : Field := ⟨⟨"0"⟩, "email", .ofList [
  ("required", .text "True"), ("placeholder", .text "true"), ("prefill", .integer 1)]⟩

theorem scalars_of_render_eq_spelled : Kind.email.TakesInput ∧
    flaggedEmail.typeKey = Kind.email.key ∧ spelledEmail.typeKey = Kind.email.key ∧
    flaggedEmail.render = spelledEmail.render ∧ flaggedEmail.id = spelledEmail.id ∧
    ∃ r s v w, flaggedEmail.resolve = .ok r ∧ spelledEmail.resolve = .ok s ∧
      r.props.get? "placeholder" = some (.flag true) ∧
      s.props.get? "placeholder" = some v ∧ v.asText = "true" ∧
      r.props.get? "required" = some (.flag true) ∧
      s.props.get? "required" = some w ∧ w.isOn = true := by
  have hagree : Resolved.AgreeOn .email ⟨.email, flaggedEmail.props.fill Kind.email.definition.defaults⟩
      ⟨.email, spelledEmail.props.fill Kind.email.definition.defaults⟩ :=
    ⟨rfl, rfl, by decide, by decide, by decide, by decide⟩
  have hrender : flaggedEmail.render = spelledEmail.render := by
    rw [Field.render_of_resolve (Field.resolve_of_key (k := .email) rfl),
      Field.render_of_resolve (f := spelledEmail) (Field.resolve_of_key (k := .email) rfl),
      Fragment.element_congr _ hagree]
    rfl
  obtain ⟨hid, r, s, hr, hs, htexts, hswitches⟩ :=
    scalars_of_render_eq (k := .email) (by decide) rfl rfl hrender
  have hplaceholder : r.props.get? "placeholder" = some (.flag true) := by
    rw [Field.resolve_of_key (k := .email) rfl] at hr
    cases hr
    decide
  have hrequired : r.props.get? "required" = some (.flag true) := by
    rw [Field.resolve_of_key (k := .email) rfl] at hr
    cases hr
    decide
  -- the other field is read back from the fragment
  obtain ⟨_, v, hv, hv', htext⟩ := htexts "placeholder" (by decide)
  obtain ⟨_, w, hw, hw', hon⟩ := hswitches "required" (by decide)
  cases hplaceholder.symm.trans hv
  cases hrequired.symm.trans hw
  exact ⟨by decide, rfl, rfl, hrender, hid, r, s, v, w, hr, hs, hplaceholder, hv', htext.symm, hrequired,
    hw', hon.symm⟩

end MarketingForm
