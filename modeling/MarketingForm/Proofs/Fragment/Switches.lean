import MarketingForm.Proofs.Fragment.Choices
import MarketingForm.Proofs.Fragment.Declared
import MarketingForm.Proofs.Html.Controls

/-!
# The required and prefill switches

The fragment of a field that takes input follows a pattern with two switches (`SwitchedTree`): a required
field has one more attribute on its wrapper and two more on each of its controls, a prefilled field has one
more on its wrapper. The pattern is that of the other properties, and of the two switches only whether they
are on is used (`render_of_switches`).
-/

namespace MarketingForm

open Html

/-- What a required field adds to each of its controls. -/
def requiredPair : List Attribute := [⟨"required", none⟩, ⟨"aria-required", some "true"⟩]

/-- The names of the attributes that the switches add. -/
def switchNames : List String := ["data-required", "data-prefill", "required", "aria-required"]

/-- The trees of one field at all settings of its switches. -/
structure SwitchedTree where
  /-- The attributes of the wrapper before and behind the place of the required mark. -/
  front : List Attribute
  rear : List Attribute
  requiredValue : String
  children : List Node

/-- The tree at one setting. -/
def SwitchedTree.tree (t : SwitchedTree) (required prefill : Bool) : Node :=
  .element "div"
    (t.front ++ (if required then [⟨"data-required", some t.requiredValue⟩] else []) ++ t.rear ++
      if prefill then [⟨"data-prefill", some "prefill"⟩] else [])
    (if required then t.children.map (Node.extendControls requiredPair) else t.children)

namespace Resolved

/-- The tags of a field's form controls, in document order. -/
def controls (r : Resolved) : List String :=
  match r.kind with
  | .text | .email | .phone | .dateTime | .checkbox | .consent => ["input"]
  | .textArea => ["textarea"]
  | .dropdown => ["select"]
  | .radio => (r.choices "options").map fun _ => "input"
  | .textBlock | .divider | .submit => []

/-! ## Setting the switches -/

/-- The properties with both switches set. -/
def switched (r : Resolved) (required prefill : Bool) : Resolved :=
  { r with props := (r.props.insert "required" (.flag required)).insert "prefill" (.flag prefill) }

section

variable (r : Resolved) (p q : Bool) {name : String}

theorem get?_switched (hrequired : name ≠ "required") (hprefill : name ≠ "prefill") :
    (r.switched p q).get? name = r.get? name := by
  simp only [get?, switched, Bag.get?_insert, if_neg hrequired, if_neg hprefill]

@[simp] theorem isOn_required_switched : (r.switched p q).isOn "required" = p := by
  have hvalue : (r.switched p q).get? "required" = some (.flag p) := by
    simp [get?, switched, Bag.get?_insert]
  rw [isOn, hvalue]
  rfl

@[simp] theorem isOn_prefill_switched : (r.switched p q).isOn "prefill" = q := by
  have hvalue : (r.switched p q).get? "prefill" = some (.flag q) := by
    simp [get?, switched, Bag.get?_insert]
  rw [isOn, hvalue]
  rfl

@[simp] theorem text_switched (hrequired : name ≠ "required") (hprefill : name ≠ "prefill") :
    (r.switched p q).text name = r.text name :=
  text_congr (r.get?_switched p q hrequired hprefill)

@[simp] theorem choices_switched : (r.switched p q).choices "options" = r.choices "options" :=
  choices_congr (r.get?_switched p q (by decide) (by decide))

end

/-- Properties that differ in the switches alone are seen as one of them with the switches of the other. -/
theorem agreeOn_switched {r s : Resolved} (hkind : s.kind = r.kind)
    (h : ∀ name ∈ r.kind.declared, name ≠ "required" → name ≠ "prefill" → s.get? name = r.get? name) :
    s.AgreeOn r.kind (r.switched (s.isOn "required") (s.isOn "prefill")) where
  left := hkind
  right := rfl
  text name hname := by
    obtain ⟨hdeclared, hrequired, hprefill⟩ := Kind.declared_of_shown hname
    rw [text_switched _ _ _ hrequired hprefill]
    exact text_congr (h name hdeclared hrequired hprefill)
  choices hk := by
    rw [choices_switched]
    exact choices_congr (h _ hk.declared (by decide) (by decide))
  required _ := (isOn_required_switched _ _ _).symm
  prefill _ := (isOn_prefill_switched _ _ _).symm

end Resolved

namespace Fragment

open Element

/-! ## The pattern of a fragment -/

/-- Elements for all settings of two switches that have the trees of one pattern. -/
structure Follows (e : Bool → Bool → Element) (front rear : List Attribute) (value : String)
    (parts : List Element) : Prop where
  tag : ∀ p q, (e p q).tag = "div"
  attributes : ∀ p q, (e p q).attributes =
    front ++ (if p then [⟨"data-required", some value⟩] else []) ++ rear ++
      if q then [⟨"data-prefill", some "prefill"⟩] else []
  holds : ∀ p q, (e p q).Holds (if p then parts.map (extendControls requiredPair) else parts)

theorem Follows.tree {e : Bool → Bool → Element} {front rear : List Attribute} {value : String}
    {parts : List Element} (h : Follows e front rear value parts) (p q : Bool) :
    (e p q).tree = SwitchedTree.tree ⟨front, rear, value, parts.map Element.tree⟩ p q := by
  rw [tree_of_holds (h.holds p q), h.tag, h.attributes, SwitchedTree.tree]
  cases p with
  | false => rfl
  | true => simp [tree_extendControls]

section

variable (r : Resolved) (id : FieldId) (p q : Bool)

@[simp] theorem definition_switched : definition (r.switched p q) = definition r := rfl

@[simp] theorem controlId_switched : controlId (r.switched p q) id = controlId r id := by
  simp [controlId]

@[simp] theorem boundWrapper_switched : boundWrapper (r.switched p q) = boundWrapper r := by
  simp [boundWrapper]

@[simp] theorem label_switched (forId : String) (block : Bool) :
    label (r.switched p q) forId block = label r forId block := by
  simp [label]

/-- A control as it is, or with the pair of a required field. -/
theorem markControl_switched {e : Element} (h : isControlTag e.tag = true) (hbare : e.Holds []) :
    markControl e (r.switched p q) = if p then e.extendControls requiredPair else e := by
  cases p with
  | false => simp [markControl, flagIf, attrIf]
  | true =>
    rw [if_pos rfl, extendControls_control requiredPair h hbare]
    simp [markControl, flagIf, attrIf, flag, attr, requiredPair]

@[simp] theorem extendControls_label (extra : List Attribute) (forId : String) (block : Bool) :
    (label r forId block).extendControls extra = label r forId block := by
  simp [label, isControlTag]

/-- A wrapper with both marks around parts whose controls have one of them. -/
theorem follows_mark {w : Element} (htag : w.tag = "div") (hbare : w.Holds [])
    {e : Bool → Bool → Element} {parts : List Element}
    (he : ∀ p q, e p q = (mark w (r.switched p q)).childList
      (if p then parts.map (extendControls requiredPair) else parts)) :
    Follows e w.attributes [] "required" parts where
  tag p q := by simp [he, htag]
  attributes p q := by simp [he, mark]
  holds p q := by
    rw [he]
    exact (holds_mark (r.switched p q) hbare).childList _

/-! ## The fragments -/

/-- A label and a block in which the controls of a field have been marked. -/
theorem follows_labelled (block : Bool) {f d : Resolved → Element} (part : Element)
    (hf : ∀ s, f s = ((mark (boundWrapper s) s).child (label s (controlId s id) block)).child (d s))
    (hd : ∀ p q, d (r.switched p q) = if p then part.extendControls requiredPair else part) :
    Follows (fun p q => f (r.switched p q)) (boundWrapper r).attributes [] "required"
      [label r (controlId r id) block, part] := by
  refine follows_mark r (tag_boundWrapper r) (holds_boundWrapper r) fun p q => ?_
  rw [hf, hd, boundWrapper_switched, controlId_switched, label_switched, child_child]
  cases p with
  | false => rfl
  | true => simp

/-- A label and one control. -/
theorem follows_control {f control : Resolved → Element}
    (hf : ∀ s, f s =
      ((mark (boundWrapper s) s).child (label s (controlId s id) false)).child (markControl (control s) s))
    (hsame : ∀ p q, control (r.switched p q) = control r)
    (htag : isControlTag (control r).tag = true) (hbare : (control r).Holds []) :
    Follows (fun p q => f (r.switched p q)) (boundWrapper r).attributes [] "required"
      [label r (controlId r id) false, control r] := by
  refine follows_labelled r id false _ hf fun p q => ?_
  rw [hsame, markControl_switched r p q htag hbare]

theorem follows_inputBlock (type : String) (extra : Resolved → Element → Element)
    (hsame : ∀ p q, extra (r.switched p q) = extra r) (htag : ∀ e, (extra r e).tag = e.tag)
    (hholds : ∀ e, e.Holds [] → (extra r e).Holds []) :
    ∃ parts, Follows (fun p q => inputBlock (r.switched p q) id type (extra (r.switched p q)))
      (boundWrapper r).attributes [] "required" parts :=
  ⟨_, follows_control r id (f := fun s => inputBlock s id type (extra s)) (fun _ => rfl)
    (fun p q => by simp [hsame]) (by simp [htag, isControlTag])
    (hholds _ ((((((holds_new "input").attr _ _).attr _ _).attr _ _).attr _ _).attr _ _))⟩

theorem follows_textArea :
    ∃ parts, Follows (fun p q => textArea (r.switched p q) id) (boundWrapper r).attributes []
      "required" parts :=
  ⟨_, follows_control r id (f := fun s => textArea s id) (fun _ => rfl) (fun p q => by simp)
    (by simp [isControlTag]) ((((((((holds_new "textarea").attr _ _).attr _ _).attr _ _).attr _ _).attr
      _ _).attr _ _).attr _ _)⟩

theorem follows_dropdown :
    ∃ parts, Follows (fun p q => dropdown (r.switched p q) id) (boundWrapper r).attributes []
      "required" parts := by
  have hparts : ∃ select : Resolved → Element, (∀ s, dropdown s id =
      ((mark (boundWrapper s) s).child (label s (controlId s id) true)).child
        (((markControl (select s) s).child selectPlaceholder).childList
          ((s.choices "options").map selectOption))) ∧
      (∀ p q, select (r.switched p q) = select r) ∧ isControlTag (select r).tag = true ∧
      (select r).Holds [] :=
    ⟨_, fun _ => rfl, fun p q => by simp, by simp [isControlTag],
      (((holds_new "select").attr _ _).attr _ _).attr _ _⟩
  obtain ⟨select, hdropdown, hsame, htag, hbare⟩ := hparts
  have hplaceholder : selectPlaceholder.extendControls requiredPair = selectPlaceholder := by
    simp [selectPlaceholder, isControlTag]
  have hoption (c : Choice) : (selectOption c).extendControls requiredPair = selectOption c := by
    simp [selectOption, isControlTag]
  refine ⟨_, follows_labelled r id true
    (((select r).child selectPlaceholder).childList ((r.choices "options").map selectOption))
    hdropdown fun p q => ?_⟩
  rw [hsame, markControl_switched r p q htag hbare, Resolved.choices_switched]
  cases p with
  | false => rfl
  | true => simp [hplaceholder, Function.comp_def, hoption]

theorem follows_checkbox :
    ∃ parts, Follows (fun p q => checkbox (r.switched p q) id)
      ((boundWrapper r).attr "data-options" (Choice.manifest (r.choices "options"))).attributes []
      "required" parts := by
  have hparts : ∃ input : Resolved → Element, (∀ s, checkbox s id =
      (choiceWrapper s).childList [((new "div").cls "twooption_checkbox").child
        (((new "div").child (markControl (input s) s)).child (label s (controlId s id) true))]) ∧
      (∀ p q, input (r.switched p q) = input r) ∧ isControlTag (input r).tag = true ∧
      (input r).Holds [] :=
    ⟨_, fun _ => rfl, fun p q => by simp, by simp [isControlTag],
      (((((holds_new "input").attr _ _).attr _ _).attr _ _).attr _ _).attr _ _⟩
  obtain ⟨input, hcheckbox, hsame, htag, hbare⟩ := hparts
  refine ⟨[((new "div").cls "twooption_checkbox").child
      (((new "div").child (input r)).child (label r (controlId r id) true))],
    follows_mark r (by simp) ((holds_boundWrapper r).attr _ _) fun p q => ?_⟩
  rw [hcheckbox, hsame, markControl_switched r p q htag hbare, choiceWrapper, boundWrapper_switched,
    Resolved.choices_switched, controlId_switched, label_switched]
  cases p with
  | false => rfl
  | true => simp [isControlTag]

/-- The block of a choice, whose button has been marked. -/
theorem exists_radioButton_switched : ∃ block : Nat → Choice → Element, ∀ p q,
    radioButton (r.switched p q) id =
      if p then fun i c => (block i c).extendControls requiredPair else block := by
  have hparts : ∃ input caption : Resolved → Nat → Choice → Element,
      (∀ s i c, radioButton s id i c =
        ((new "div").child (markControl (input s i c) s)).child (caption s i c)) ∧
      (∀ p q, input (r.switched p q) = input r) ∧ (∀ p q, caption (r.switched p q) = caption r) ∧
      (∀ i c, isControlTag (input r i c).tag = true) ∧ (∀ i c, (input r i c).Holds []) ∧
      ∀ i c, (caption r i c).extendControls requiredPair = caption r i c :=
    ⟨_, _, fun _ _ _ => rfl, fun p q => by simp, fun p q => by simp,
      fun i c => by simp [isControlTag],
      fun i c => ((((((holds_new "input").attr _ _).attr _ _).attr _ _).attr _ _).attr _ _).flagIf _ _,
      fun i c => by simp [isControlTag]⟩
  obtain ⟨input, caption, hbutton, hinput, hcaption, htag, hbare, hextend⟩ := hparts
  refine ⟨fun i c => ((new "div").child (input r i c)).child (caption r i c), fun p q => ?_⟩
  funext i c
  rw [hbutton, hinput, hcaption, markControl_switched r p q (htag i c) (hbare i c)]
  cases p with
  | false => rfl
  | true => simp [hextend, isControlTag]

theorem follows_radio :
    ∃ parts, Follows (fun p q => radio (r.switched p q) id)
      ((boundWrapper r).attr "data-options" (Choice.manifest (r.choices "options"))).attributes []
      "required" parts := by
  obtain ⟨block, hblock⟩ := exists_radioButton_switched r id
  refine ⟨[label r (controlId r id) true, (((new "div").attr "id" (controlId r id)).cls
      "radiobuttons").childList ((r.choices "options").mapIdx block)],
    follows_mark r (by simp) ((holds_boundWrapper r).attr _ _) fun p q => ?_⟩
  rw [radio, hblock, choiceWrapper, boundWrapper_switched, Resolved.choices_switched,
    controlId_switched, label_switched, child_child]
  cases p with
  | false => rfl
  | true => simp [isControlTag, List.mapIdx_eq_zipIdx_map, Function.comp_def]

/-- The attributes of the wrapper of a consent field behind the place of the required mark. -/
def consentRear (r : Resolved) : List Attribute :=
  [⟨"style", some "padding: 4px 30px;"⟩,
    ⟨"data-compliancesettingsid", some (r.text "complianceSettingsId")⟩,
    ⟨"data-compliancesettingsname", some (r.text "complianceSettingsName")⟩,
    ⟨"data-purposeid", some (r.text "purposeId")⟩, ⟨"data-purposename", some (r.text "purposeName")⟩,
    ⟨"data-channels", some (r.text "channels")⟩,
    ⟨"data-optinwhenchecked", some (r.text "optInWhenChecked")⟩]

/-- A consent field is a wrapper around a box with one control, which is marked, and its caption. -/
theorem exists_consent_parts (id : FieldId) : ∃ input caption : Resolved → Element,
    (∀ s, (consent s id).Holds [((new "div").child (markControl (input s) s)).child (caption s)]) ∧
    (∀ s p q, input (s.switched p q) = input s ∧ caption (s.switched p q) = caption s) ∧
    (∀ s, isControlTag (input s).tag = true ∧ (input s).Holds []) ∧
    ∀ s, (caption s).extendControls requiredPair = caption s ∧
      (caption s).Holds [(new "p").text (s.text "label")] :=
  ⟨_, _, fun _ => ((((((((((((holds_new "div").cls _).attr _ _).attrIf _ _ _).attr _ _).attr _ _).attr
      _ _).attr _ _).attr _ _).attr _ _).attr _ _).attrIf _ _ _).child _,
    fun s p q => ⟨by simp [consentValue], by simp⟩,
    fun s => ⟨by simp [isControlTag], ((((holds_new "input").attr _ _).attr _ _).attr _ _).attr _ _⟩,
    fun s => ⟨by simp [isControlTag], (((holds_new "label").attr _ _).attr _ _).child _⟩⟩

theorem follows_consent :
    ∃ front parts, Follows (fun p q => consent (r.switched p q) id) front (consentRear r) "true"
      parts := by
  obtain ⟨input, caption, hholds, hsame, hinput, hcaption⟩ := exists_consent_parts id
  refine ⟨(((new "div").cls (definition r).cssClass).attr "data-editorblocktype"
      (definition r).blockType).attributes,
    [((new "div").child (input r)).child (caption r)], fun p q => by simp [consent], fun p q => ?_,
    fun p q => ?_⟩
  · simp [consent, consentRear]
  · have hbox := hholds (r.switched p q)
    rw [(hsame r p q).1, (hsame r p q).2, markControl_switched r p q (hinput r).1 (hinput r).2] at hbox
    cases p with
    | false => exact hbox
    | true => simpa [(hcaption r).1, isControlTag] using hbox

end

/-- The fragments of a field that takes input, at all settings of its switches, follow one pattern. -/
theorem follows_element (r : Resolved) (id : FieldId) (hk : r.kind.TakesInput) :
    ∃ front rear parts, Follows (fun p q => (r.switched p q).element id) front rear
      (if r.kind = .consent then "true" else "required") parts := by
  obtain ⟨k, props⟩ := r
  cases k with
  | text =>
    obtain ⟨parts, h⟩ := follows_inputBlock ⟨.text, props⟩ id "text"
      (fun s input => input.attr "maxlength" (s.text "maxLength")) (fun p q => by simp) (fun _ => rfl)
      (fun _ h => h.attr _ _)
    exact ⟨_, _, parts, h⟩
  | email =>
    obtain ⟨parts, h⟩ := follows_inputBlock ⟨.email, props⟩ id "email" (fun _ input => input)
      (fun _ _ => rfl) (fun _ => rfl) (fun _ h => h)
    exact ⟨_, _, parts, h⟩
  | phone =>
    obtain ⟨parts, h⟩ := follows_inputBlock ⟨.phone, props⟩ id "tel"
      (fun _ input => input.attr "pattern" phonePattern) (fun _ _ => rfl) (fun _ => rfl)
      (fun _ h => h.attr _ _)
    exact ⟨_, _, parts, h⟩
  | dateTime =>
    obtain ⟨parts, h⟩ := follows_inputBlock ⟨.dateTime, props⟩ id "datetime-local"
      (fun _ input => input) (fun _ _ => rfl) (fun _ => rfl) (fun _ h => h)
    exact ⟨_, _, parts, h⟩
  | textArea =>
    obtain ⟨parts, h⟩ := follows_textArea ⟨.textArea, props⟩ id
    exact ⟨_, _, parts, h⟩
  | dropdown =>
    obtain ⟨parts, h⟩ := follows_dropdown ⟨.dropdown, props⟩ id
    exact ⟨_, _, parts, h⟩
  | checkbox =>
    obtain ⟨parts, h⟩ := follows_checkbox ⟨.checkbox, props⟩ id
    exact ⟨_, _, parts, h⟩
  | radio =>
    obtain ⟨parts, h⟩ := follows_radio ⟨.radio, props⟩ id
    exact ⟨_, _, parts, h⟩
  | consent =>
    obtain ⟨front, parts, h⟩ := follows_consent ⟨.consent, props⟩ id
    exact ⟨front, _, parts, h⟩
  | textBlock | divider | submit => exact absurd rfl hk

/-! ## Controls, and nothing left of the marks -/

section

variable (r : Resolved) (id : FieldId)

@[simp] theorem below_choiceWrapper : (choiceWrapper r).below = [] := by simp [choiceWrapper]

@[simp] theorem tag_label (forId : String) (block : Bool) : (label r forId block).tag = "label" := by
  simp [label]

theorem controls_inputBlock (type : String) {extra : Element → Element}
    (htag : ∀ e, (extra e).tag = e.tag) (hbelow : ∀ e, (extra e).below = e.below) :
    (inputBlock r id type extra).tree.controls = ["input"] := by
  simp [controls_tree, inputBlock, htag, hbelow, isControlTag]

theorem controls_dropdown : (dropdown r id).tree.controls = ["select"] := by
  have hoptions : (((r.choices "options").map selectOption).flatMap fun c =>
      (c.tag, c.attributes) :: c.below) = (r.choices "options").map fun c =>
        ("option", [⟨"value", some c.value⟩]) := by
    rw [List.flatMap_map, List.map_eq_flatMap]
    simp [selectOption]
  simp [controls_tree, dropdown, selectPlaceholder, hoptions, isControlTag]

theorem controls_radio :
    (radio r id).tree.controls = (r.choices "options").map fun _ => "input" := by
  have hblock (i : Nat) (c : Choice) :
      (((radioButton r id i c).tag, (radioButton r id i c).attributes) ::
        (radioButton r id i c).below).map Prod.fst = ["div", "input", "label"] := by
    simp [radioButton]
  have hblocks : (((r.choices "options").mapIdx (radioButton r id)).flatMap fun e =>
      (e.tag, e.attributes) :: e.below).map Prod.fst =
        (r.choices "options").flatMap fun _ => ["div", "input", "label"] := by
    rw [List.mapIdx_eq_zipIdx_map, List.flatMap_map, List.map_flatMap]
    simp only [hblock, List.flatMap_def, List.map_const', List.length_zipIdx]
  rw [List.map_eq_flatMap]
  simp [controls_tree, radio, hblocks, List.filter_flatMap, isControlTag]

theorem controls_element (hk : r.kind.TakesInput) :
    (r.element id).tree.controls = r.controls := by
  unfold Resolved.element Resolved.controls
  cases hkind : r.kind with
  | text => exact controls_inputBlock r id "text" (fun _ => rfl) (fun _ => rfl)
  | email => exact controls_inputBlock r id "email" (fun _ => rfl) (fun _ => rfl)
  | phone => exact controls_inputBlock r id "tel" (fun _ => rfl) (fun _ => rfl)
  | dateTime => exact controls_inputBlock r id "datetime-local" (fun _ => rfl) (fun _ => rfl)
  | textArea => simp [controls_tree, textArea, isControlTag]
  | dropdown => exact controls_dropdown r id
  | checkbox => simp [controls_tree, checkbox, isControlTag]
  | radio => exact controls_radio r id
  | consent => simp [controls_tree, consent, isControlTag]
  | textBlock | divider | submit => exact absurd (by rw [hkind]; rfl) hk

end

section

variable (r : Resolved)

@[simp] theorem lacks_boundWrapper : (boundWrapper r).tree.Lacks switchNames := by
  simp (disch := decide) [boundWrapper]

@[simp] theorem lacks_label (forId : String) (block : Bool) :
    (label r forId block).tree.Lacks switchNames := by
  simp (disch := decide) [label]

end

section

variable {r : Resolved} (hrequired : r.isOn "required" = false) (hprefill : r.isOn "prefill" = false)
  (id : FieldId)
include hrequired

theorem markControl_of_off (e : Element) : markControl e r = e := by
  simp [markControl, hrequired, flagIf, attrIf]

include hprefill

theorem mark_of_off (e : Element) : mark e r = e := by
  simp [mark, hrequired, hprefill, attrIf]

theorem lacks_inputBlock (type : String) {extra : Element → Element}
    (hextra : ∀ e : Element, (extra e).tree.Lacks switchNames ↔ e.tree.Lacks switchNames) :
    (inputBlock r id type extra).tree.Lacks switchNames := by
  simp (disch := decide) [inputBlock, hextra, markControl_of_off hrequired,
    mark_of_off hrequired hprefill]

theorem lacks_element (hk : r.kind.TakesInput) : (r.element id).tree.Lacks switchNames := by
  have hcontrol (e : Element) : markControl e r = e := markControl_of_off hrequired e
  have hmark (e : Element) : mark e r = e := mark_of_off hrequired hprefill e
  unfold Resolved.element
  cases hkind : r.kind with
  | text =>
    exact lacks_inputBlock hrequired hprefill id "text" fun e => e.lacks_attr _ (by decide)
  | email => exact lacks_inputBlock hrequired hprefill id "email" fun _ => Iff.rfl
  | phone =>
    exact lacks_inputBlock hrequired hprefill id "tel" fun e => e.lacks_attr _ (by decide)
  | dateTime => exact lacks_inputBlock hrequired hprefill id "datetime-local" fun _ => Iff.rfl
  | textArea => simp (disch := decide) [textArea, hcontrol, hmark]
  | dropdown =>
    simp (disch := decide) [dropdown, selectPlaceholder, selectOption, hcontrol, hmark]
  | checkbox => simp (disch := decide) [checkbox, choiceWrapper, hcontrol, hmark]
  | radio =>
    have hbuttons : ∀ e ∈ (r.choices "options").mapIdx (radioButton r id), e.tree.Lacks switchNames := by
      intro e he
      obtain ⟨i, -, rfl⟩ := List.mem_mapIdx.1 he
      simp (disch := decide) [radioButton, hcontrol]
    simp (disch := decide) only [radio, choiceWrapper, hmark, lacks_child, lacks_childList, lacks_attr,
      lacks_cls, lacks_new, lacks_label, lacks_boundWrapper, true_and]
    exact hbuttons
  | consent => simp (disch := decide) [consent, hcontrol, attrIf, hrequired, hprefill]
  | textBlock | divider | submit => exact absurd (by rw [hkind]; rfl) hk

end

end Fragment

/-! ## Fields -/

/-- For every field that takes input: the fragments of the fields that have its id, its kind and its
properties but for the two switches are read as the trees of one pattern. Without the switches a tree has
none of their attributes; its form controls are those of the field's kind. A required field has one more
attribute on its wrapper and two on every control, a prefilled field one more on its wrapper, whatever the
other switch is. Of the values of the switches nothing is used but whether they are on. -/
theorem render_of_switches {f : Field} {r : Resolved} (hr : f.resolve = .ok r)
    (hk : r.kind.TakesInput) :
    ∃ t : SwitchedTree,
      t.requiredValue = (if r.kind = .consent then "true" else "required") ∧
      (t.tree false false).Lacks switchNames ∧
      (t.tree false false).controls = r.controls ∧
      ∀ (g : Field) (s : Resolved), g.id = f.id → g.typeKey = f.typeKey → g.resolve = .ok s →
        (∀ name ∈ r.kind.declared, name ≠ "required" → name ≠ "prefill" →
          s.get? name = r.get? name) →
        ∃ m, g.render = .ok m ∧
          read? m.text.toList = some (t.tree (s.isOn "required") (s.isOn "prefill")) := by
  obtain ⟨front, rear, parts, hfollows⟩ := Fragment.follows_element r f.id hk
  have hcontrols : (r.switched false false).controls = r.controls := by
    rw [Resolved.controls, Resolved.choices_switched]
    rfl
  refine ⟨⟨front, rear, if r.kind = .consent then "true" else "required", parts.map Element.tree⟩, rfl,
    ?_, ?_, fun g s hid hkey hs hsame => ?_⟩
  · rw [← hfollows.tree]
    exact Fragment.lacks_element (r.isOn_required_switched _ _) (r.isOn_prefill_switched _ _) f.id hk
  · rw [← hfollows.tree, Fragment.controls_element (r.switched false false) f.id hk, hcontrols]
  · have hkind := Field.kind_eq_of_resolve hr hs hkey
    have helement := Fragment.element_congr g.id (Resolved.agreeOn_switched hkind hsame)
    have hread : read? (s.element g.id).render.text.toList = some (s.element g.id).tree :=
      Adds.read rfl (Element.adds_render (Fragment.frame_ok_element s g.id))
    refine ⟨_, Field.render_of_resolve hs, ?_⟩
    rw [hread, helement, hid, ← hfollows.tree]

/-- A radio field whose texts have the names of the attributes in them. -/
def loudRadio (required prefill : Value) : Field := ⟨⟨"0"⟩, "radio", .ofList [
  ("required", required), ("label", .text "x\" required aria-required=\"true"), ("prefill", prefill),
  ("options", .choices [⟨"required", "data-required"⟩, ⟨"data-prefill", "prefill"⟩])]⟩

theorem render_of_switches_loud : ∃ t : SwitchedTree, t.requiredValue = "required" ∧
    (t.tree false false).Lacks switchNames ∧ (t.tree false false).controls = ["input", "input"] ∧
    (∃ m, (loudRadio (.text "TRUE") (.integer 0)).render = .ok m ∧
      read? m.text.toList = some (t.tree true false)) ∧
    ∃ m, (loudRadio (.text "required") (.integer (-1))).render = .ok m ∧
      read? m.text.toList = some (t.tree false true) := by
  let resolved (required prefill : Value) : Resolved :=
    ⟨.radio, (loudRadio required prefill).props.fill Kind.radio.definition.defaults⟩
  have hresolve (required prefill : Value) :
      (loudRadio required prefill).resolve = .ok (resolved required prefill) :=
    Field.resolve_of_key rfl
  obtain ⟨t, hvalue, hlacks, hcontrols, hrender⟩ :=
    render_of_switches (hresolve (.flag true) (.flag true)) (by decide)
  refine ⟨t, hvalue, hlacks, hcontrols.trans (by decide), ?_, ?_⟩
  · have hon : (resolved (.text "TRUE") (.integer 0)).isOn "required" = true ∧
        (resolved (.text "TRUE") (.integer 0)).isOn "prefill" = false := by decide
    rw [← hon.1, ← hon.2]
    exact hrender _ _ rfl rfl (hresolve _ _) (by decide)
  · have hon : (resolved (.text "required") (.integer (-1))).isOn "required" = false ∧
        (resolved (.text "required") (.integer (-1))).isOn "prefill" = true := by decide
    rw [← hon.1, ← hon.2]
    exact hrender _ _ rfl rfl (hresolve _ _) (by decide)

end MarketingForm
