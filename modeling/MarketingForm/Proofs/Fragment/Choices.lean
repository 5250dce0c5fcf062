import MarketingForm.Proofs.Fragment.Labels
import MarketingForm.Proofs.Html.Query
import MarketingForm.Proofs.Json.Manifest

/-!
# Choices in fragments

The choices of a selection field are read from its fragment as they are: the entries of a drop-down list
behind the placeholder, the buttons of a radio field with the texts of their labels, the value of a check
box, and the list that check boxes and radio fields carry as JSON (`choices_of_fragment`).
-/

namespace MarketingForm

open Html

/-! ## What a fragment shows -/

/-- An entry of a drop-down list. -/
structure ListEntry where
  value : List String
  text : String
  disabled : Bool
deriving DecidableEq

/-- A radio button; its captions are the texts of the labels that name its id. -/
structure RadioButton where
  id : List String
  value : List String
  title : List String
  checked : Bool
  captions : List String
deriving DecidableEq

namespace Html.Node

/-- The entries of the drop-down lists in a tree. -/
def listEntries (n : Node) : List ListEntry :=
  (n.tagged "option").map fun o => ⟨o.own "value", o.content, o.flagged "disabled"⟩

/-- The texts of the labels in a tree that name an id. -/
def captions (n : Node) (id : List String) : List String :=
  ((n.tagged "label").filter fun l => l.own "for" = id).map content

/-- The radio buttons in a tree. -/
def radioButtons (n : Node) : List RadioButton :=
  ((n.tagged "input").filter fun b => b.own "type" = ["radio"]).map fun b =>
    ⟨b.own "id", b.own "value", b.own "title", b.flagged "checked", n.captions (b.own "id")⟩

end Html.Node

/-! ## Parts -/

namespace Fragment

open Element

section

variable (r : Resolved) (id : FieldId)

theorem holds_boundWrapper : (boundWrapper r).Holds [] :=
  (((holds_new "div").cls _).attr _ _).attr _ _

theorem holds_mark {e : Element} {cs : List Element} (h : e.Holds cs) : (mark e r).Holds cs :=
  (h.attrIf _ _ _).attrIf _ _ _

theorem holds_markControl {e : Element} {cs : List Element} (h : e.Holds cs) :
    (markControl e r).Holds cs :=
  (h.flagIf _ _).attrIf _ _ _

theorem holds_choiceWrapper : (choiceWrapper r).Holds [] :=
  holds_mark r ((holds_boundWrapper r).attr _ _)

@[simp] theorem tag_mark (e : Element) : (mark e r).tag = e.tag := by simp [mark]

@[simp] theorem tag_markControl (e : Element) : (markControl e r).tag = e.tag := by
  simp [markControl]

@[simp] theorem tag_boundWrapper : (boundWrapper r).tag = "div" := by simp [boundWrapper]

@[simp] theorem tag_choiceWrapper : (choiceWrapper r).tag = "div" := by simp [choiceWrapper]

theorem tagged_label (forId : String) (block : Bool) (tag : String) :
    (label r forId block).tree.tagged tag =
      if "label" = tag then [(label r forId block).tree] else [] := by
  have hbare : ((((new "label").attr "title" (r.text "label")).attrIf block "class"
      "block-label").attr "for" forId).Holds [] :=
    (((holds_new "label").attr _ _).attrIf _ _ _).attr _ _
  have htagged := tagged_text hbare (r.text "label") tag
  rw [tag_attr, tag_attrIf, tag_attr, tag_new] at htagged
  exact htagged

/-! ## Drop-down lists -/

theorem tagged_selectOption (c : Choice) : (selectOption c).tree.tagged "option" = [(selectOption c).tree] :=
  tagged_text ((holds_new "option").attr _ _) c.label "option"

theorem tagged_selectPlaceholder :
    selectPlaceholder.tree.tagged "option" = [selectPlaceholder.tree] :=
  tagged_text (((((holds_new "option").attr _ _).flag _).flag _).flag _) "Select" "option"

theorem tagged_dropdown :
    (dropdown r id).tree.tagged "option" =
      selectPlaceholder.tree :: (r.choices "options").map fun c => (selectOption c).tree := by
  have hparts : ∃ select : Element, (dropdown r id).Holds [label r (controlId r id) true, select] ∧
      (dropdown r id).tag = "div" ∧ select.tag = "select" ∧
      select.Holds (selectPlaceholder :: (r.choices "options").map selectOption) :=
    ⟨_, ((holds_mark r (holds_boundWrapper r)).child _).child _, by simp [dropdown], by simp,
      ((holds_markControl r ((((holds_new "select").attr _ _).attr _ _).attr _ _)).child _).childList _⟩
  obtain ⟨select, hdropdown, htag, hselectTag, hselect⟩ := hparts
  have hoptions : (((r.choices "options").map selectOption).flatMap fun e => e.tree.tagged "option") =
      (r.choices "options").map fun c => (selectOption c).tree := by
    rw [List.flatMap_map, List.map_eq_flatMap]
    simp only [tagged_selectOption]
  rw [tagged_of_holds hdropdown, htag]
  simp [tagged_label, tagged_of_holds hselect, hselectTag, tagged_selectPlaceholder, hoptions]

theorem listEntries_dropdown :
    (dropdown r id).tree.listEntries =
      ⟨[""], "Select", true⟩ :: (r.choices "options").map fun c => ⟨[c.value], c.label, false⟩ := by
  have hplaceholder : selectPlaceholder.tree.content = "Select" :=
    content_text (((((holds_new "option").attr _ _).flag _).flag _).flag _) "Select"
  have hcontent (c : Choice) : (selectOption c).tree.content = c.label :=
    content_text ((holds_new "option").attr _ _) c.label
  rw [Node.listEntries, tagged_dropdown, List.map_cons, List.map_map]
  simp only [Function.comp_def, own_tree, flagged_tree, hplaceholder, hcontent]
  simp [selectPlaceholder, selectOption]

/-! ## Check boxes -/

theorem own_choiceWrapper :
    (choiceWrapper r).own "data-options" = [Choice.manifest (r.choices "options")] := by
  simp [choiceWrapper, mark, boundWrapper]

theorem inner_choiceWrapper (name : String) : (choiceWrapper r).inner name = [] := by
  simp [choiceWrapper]

theorem values_checkbox :
    (checkbox r id).tree.values "data-options" = [Choice.manifest (r.choices "options")] := by
  rw [values_tree]
  simp [checkbox, own_choiceWrapper, inner_choiceWrapper, markControl, label]

/-- A check box submits the value of the first choice. -/
theorem inputs_checkbox :
    ((checkbox r id).tree.tagged "input").map (Node.own "value") =
      [[((r.choices "options").head?.map Choice.value).getD ""]] := by
  have hparts : ∃ input box frame : Element, (checkbox r id).Holds [frame] ∧
      (checkbox r id).tag = "div" ∧ frame.Holds [box] ∧ frame.tag = "div" ∧
      box.Holds [input, label r (controlId r id) true] ∧ box.tag = "div" ∧
      input.Holds [] ∧ input.tag = "input" ∧
      input.own "value" = [tickedValue (r.choices "options")] :=
    ⟨_, _, _, (holds_choiceWrapper r).child _, by simp [checkbox],
      ((holds_new "div").cls _).child _, by simp, ((holds_new "div").child _).child _, by simp,
      holds_markControl r ((((((holds_new "input").attr _ _).attr _ _).attr _ _).attr _ _).attr _ _),
      by simp, by simp [markControl]⟩
  obtain ⟨input, box, frame, hcheckbox, htag, hframe, hframeTag, hbox, hboxTag, hinput, hinputTag,
    hvalue⟩ := hparts
  have hticked : tickedValue (r.choices "options") =
      ((r.choices "options").head?.map Choice.value).getD "" := by
    cases r.choices "options" <;> rfl
  simp [tagged_of_holds hcheckbox, htag, tagged_of_holds hframe, hframeTag, tagged_of_holds hbox,
    hboxTag, tagged_of_holds hinput, hinputTag, tagged_label, own_tree, hvalue, hticked]

/-! ## Radio buttons -/

theorem values_radio :
    (radio r id).tree.values "data-options" = [Choice.manifest (r.choices "options")] := by
  have hbuttons : (((r.choices "options").mapIdx (radioButton r id)).flatMap fun e =>
      e.own "data-options" ++ e.inner "data-options") = [] := by
    refine List.flatMap_eq_nil_iff.2 fun e he => ?_
    obtain ⟨i, -, rfl⟩ := List.mem_mapIdx.1 he
    simp [radioButton, markControl]
  rw [values_tree]
  simp [radio, own_choiceWrapper, inner_choiceWrapper, label, hbuttons]

/-- The block of a choice has one button and one label, which names the button. -/
theorem exists_radioButton (i : Nat) (c : Choice) : ∃ input caption : Node,
    (radioButton r id i c).tree.tagged "input" = [input] ∧
      (radioButton r id i c).tree.tagged "label" = [caption] ∧
      input.own "type" = ["radio"] ∧ input.own "id" = [buttonId r id i] ∧
      input.own "value" = [c.value] ∧ input.own "title" = [c.label] ∧
      input.flagged "checked" = (c.value == r.text "defaultValue") ∧
      caption.own "for" = [buttonId r id i] ∧ caption.content = c.label := by
  have hparts : ∃ input caption : Element,
      (radioButton r id i c).Holds [input, caption.text c.label] ∧
      (radioButton r id i c).tag = "div" ∧ input.Holds [] ∧ input.tag = "input" ∧
      caption.Holds [] ∧ caption.tag = "label" ∧
      input.own "type" = ["radio"] ∧ input.own "id" = [buttonId r id i] ∧
      input.own "value" = [c.value] ∧ input.own "title" = [c.label] ∧
      input.flagged "checked" = (c.value == r.text "defaultValue") ∧
      caption.own "for" = [buttonId r id i] :=
    ⟨_, _, ((holds_new "div").child _).child _, by simp [radioButton],
      holds_markControl r
        ((((((holds_new "input").attr _ _).attr _ _).attr _ _).attr _ _).attr _ _ |>.flagIf _ _),
      by simp, ((holds_new "label").attr _ _).attr _ _, by simp, by simp [markControl],
      by simp [buttonId], by simp [markControl], by simp [markControl], by simp [markControl],
      by simp [buttonId]⟩
  obtain ⟨input, caption, hbutton, htag, hinput, hinputTag, hcaption, hcaptionTag, htype, hid, hvalue,
    htitle, hchecked, hfor⟩ := hparts
  refine ⟨input.tree, (caption.text c.label).tree, ?_, ?_, htype, hid, hvalue, htitle, hchecked, hfor,
    content_text hcaption c.label⟩
  · simp [tagged_of_holds hbutton, htag, tagged_of_holds hinput, hinputTag, tagged_text hcaption,
      hcaptionTag]
  · simp [tagged_of_holds hbutton, htag, tagged_of_holds hinput, hinputTag, tagged_text hcaption,
      hcaptionTag]

/-- Questions with one answer for every choice. -/
theorem flatMap_mapIdx_of_singleton {α β γ : Type} {f : Nat → α → β} {g : β → List γ} {k : Nat → α → γ}
    (h : ∀ i a, g (f i a) = [k i a]) (xs : List α) : (xs.mapIdx f).flatMap g = xs.mapIdx k := by
  rw [List.mapIdx_eq_zipIdx_map, List.mapIdx_eq_zipIdx_map, List.flatMap_map, List.map_eq_flatMap]
  simp only [h]

theorem filter_mapIdx_of_iff {α β : Type} {f : Nat → α → β} {p : β → Bool} {xs : List α} {i : Nat}
    (hi : i < xs.length) (h : ∀ j a, p (f j a) = true ↔ j = i) :
    (xs.mapIdx f).filter p = [f i xs[i]] := by
  induction xs generalizing i f with
  | nil => cases hi
  | cons x xs ih =>
    rw [List.mapIdx_cons]
    cases i with
    | zero =>
      have hrest : (xs.mapIdx fun j => f (j + 1)).filter p = [] := by
        refine List.filter_eq_nil_iff.2 fun y hy hp => ?_
        obtain ⟨j, _, rfl⟩ := List.mem_mapIdx.1 hy
        exact absurd ((h (j + 1) _).1 hp) (Nat.succ_ne_zero j)
      rw [List.filter_cons_of_pos ((h 0 x).2 rfl), hrest]
      rfl
    | succ i =>
      have hfirst : ¬ p (f 0 x) = true := fun hp => absurd ((h 0 x).1 hp) (Nat.succ_ne_zero i).symm
      rw [List.filter_cons_of_neg hfirst]
      exact ih (Nat.lt_of_succ_lt_succ hi) fun j a => (h (j + 1) a).trans Nat.succ_inj

/-- The elements with a tag in a radio field: those of its own label, and one in the block of each
choice. -/
theorem tagged_radio {tag : String} {part : Nat → Choice → Node} (hdiv : "div" ≠ tag)
    (h : ∀ i c, (radioButton r id i c).tree.tagged tag = [part i c]) :
    (radio r id).tree.tagged tag =
      (label r (controlId r id) true).tree.tagged tag ++ (r.choices "options").mapIdx part := by
  have hparts : ∃ buttons : Element,
      (radio r id).Holds [label r (controlId r id) true, buttons] ∧ (radio r id).tag = "div" ∧
      buttons.Holds ((r.choices "options").mapIdx (radioButton r id)) ∧ buttons.tag = "div" :=
    ⟨_, ((holds_choiceWrapper r).child _).child _, by simp [radio],
      (((holds_new "div").attr _ _).cls _).childList _, by simp⟩
  obtain ⟨buttons, hradio, htag, hbuttons, hbuttonsTag⟩ := hparts
  have hblocks := flatMap_mapIdx_of_singleton (g := fun e : Element => e.tree.tagged tag) h
    (r.choices "options")
  simp [tagged_of_holds hradio, htag, tagged_of_holds hbuttons, hbuttonsTag, hdiv, hblocks]

/-- A radio field has a button for every choice, in order, with the choice's label as its only caption. -/
theorem radioButtons_radio :
    (radio r id).tree.radioButtons = (r.choices "options").mapIdx fun i c =>
      ⟨[buttonId r id i], [c.value], [c.label], c.value == r.text "defaultValue", [c.label]⟩ := by
  choose input caption hinputs hlabels htype hid hvalue htitle hchecked hfor hcontent using
    exists_radioButton r id
  have hallInputs : (radio r id).tree.tagged "input" = (r.choices "options").mapIdx input := by
    rw [tagged_radio r id (by decide) hinputs, tagged_label, if_neg (by decide), List.nil_append]
  have hallLabels : (radio r id).tree.tagged "label" =
      (label r (controlId r id) true).tree :: (r.choices "options").mapIdx caption := by
    rw [tagged_radio r id (by decide) hlabels, tagged_label, if_pos rfl, List.singleton_append]
  have hcaptions : ∀ i (hi : i < (r.choices "options").length),
      (radio r id).tree.captions [buttonId r id i] = [(r.choices "options")[i].label] := by
    intro i hi
    have hfield : ¬ (label r (controlId r id) true).tree.own "for" = [buttonId r id i] := by
      rw [own_tree, own_for_label]
      exact fun h => buttonId_ne_controlId i (List.cons.inj h).1.symm
    have hown (j : Nat) (c : Choice) :
        decide ((caption j c).own "for" = [buttonId r id i]) = true ↔ j = i := by
      rw [hfor, decide_eq_true_iff]
      exact ⟨fun h => buttonId_inj (List.cons.inj h).1, fun h => by rw [h]⟩
    rw [Node.captions, hallLabels, List.filter_cons_of_neg (by simpa using hfield),
      filter_mapIdx_of_iff hi hown, List.map_singleton, hcontent]
  have hradioInputs : (((r.choices "options").mapIdx input).filter fun b => b.own "type" = ["radio"]) =
      (r.choices "options").mapIdx input := by
    refine List.filter_eq_self.2 fun b hb => ?_
    obtain ⟨i, _, rfl⟩ := List.mem_mapIdx.1 hb
    exact decide_eq_true (htype i _)
  rw [Node.radioButtons, hallInputs, hradioInputs]
  refine List.ext_getElem (by simp) fun i hi hi' => ?_
  rw [List.length_mapIdx] at hi'
  rw [List.getElem_map, List.getElem_mapIdx, List.getElem_mapIdx]
  simp only [hid, hvalue, htitle, hchecked, hcaptions i hi']

end

end Fragment

/-! ## Fields -/

/-- For every field whose kind is known, with any effective choices: its fragment is read as an element.
Check boxes and radio fields carry their choices once, as JSON that is read as that very list. A check box
has one input, with the value of the first choice. A radio field has a button for every choice, in order,
with the choice's value and label and a number in its id, and checked if its value is the default. A
drop-down list has an entry for every choice, in order, behind one that is disabled. -/
theorem choices_of_fragment {f : Field} {r : Resolved} (hr : f.resolve = .ok r) :
    ∃ m n, f.render = .ok m ∧ read? m.text.toList = some n ∧
      (r.kind = .checkbox ∨ r.kind = .radio →
        ∃ json, n.values "data-options" = [json] ∧
          Json.readChoices json.toList = .ok (r.choices "options")) ∧
      (r.kind = .checkbox →
        (n.tagged "input").map (Node.own "value") =
          [[((r.choices "options").head?.map Choice.value).getD ""]]) ∧
      (r.kind = .radio →
        n.radioButtons = (r.choices "options").mapIdx fun i c =>
          ⟨[buttonId r f.id i], [c.value], [c.label], c.value == r.text "defaultValue", [c.label]⟩) ∧
      (r.kind = .dropdown →
        n.listEntries = ⟨[""], "Select", true⟩ ::
          (r.choices "options").map fun c => ⟨[c.value], c.label, false⟩) := by
  have hrender : f.render = .ok (r.element f.id).render := by rw [Field.render, hr]
  have hread : read? (r.element f.id).render.text.toList = some (r.element f.id).tree :=
    Adds.read rfl (Element.adds_render (Fragment.frame_ok_element r f.id))
  refine ⟨_, _, hrender, hread, ?_, ?_, ?_, ?_⟩
  · rintro (hkind | hkind)
    · rw [Resolved.element, hkind]
      exact ⟨_, Fragment.values_checkbox r f.id, Json.readChoices_manifest _⟩
    · rw [Resolved.element, hkind]
      exact ⟨_, Fragment.values_radio r f.id, Json.readChoices_manifest _⟩
  · intro hkind
    rw [Resolved.element, hkind]
    exact Fragment.inputs_checkbox r f.id
  · intro hkind
    rw [Resolved.element, hkind]
    exact Fragment.radioButtons_radio r f.id
  · intro hkind
    rw [Resolved.element, hkind]
    exact Fragment.listEntries_dropdown r f.id

/-- A radio field whose choices have quotes of both kinds, escapes and markup, and one value twice. -/
def hostileChoices : Field := ⟨⟨"0"⟩, "radio", .ofList [
  ("logicalName", .text "n"),
  ("defaultValue", .text "\"a\""),
  ("options", .choices [⟨"\"a\"", "<b title='c'>&amp;"⟩, ⟨"\\u0041", "\x01\n]"⟩, ⟨"\"a\"", ""⟩])]⟩

theorem choices_of_fragment_hostile :
    ∃ m n, hostileChoices.render = .ok m ∧ read? m.text.toList = some n ∧
      (∃ json, n.values "data-options" = [json] ∧ Json.readChoices json.toList =
        .ok [⟨"\"a\"", "<b title='c'>&amp;"⟩, ⟨"\\u0041", "\x01\n]"⟩, ⟨"\"a\"", ""⟩]) ∧
      n.radioButtons = [
        ⟨["n-0-0"], ["\"a\""], ["<b title='c'>&amp;"], true, ["<b title='c'>&amp;"]⟩,
        ⟨["n-0-1"], ["\\u0041"], ["\x01\n]"], false, ["\x01\n]"]⟩,
        ⟨["n-0-2"], ["\"a\""], [""], true, [""]⟩] := by
  have hresolve : hostileChoices.resolve =
      .ok ⟨.radio, hostileChoices.props.fill Kind.radio.definition.defaults⟩ := rfl
  obtain ⟨m, n, hrender, hread, hmanifest, -, hbuttons, -⟩ := choices_of_fragment hresolve
  exact ⟨m, n, hrender, hread, hmanifest (.inr rfl), (hbuttons rfl).trans (by decide +kernel)⟩

end MarketingForm
