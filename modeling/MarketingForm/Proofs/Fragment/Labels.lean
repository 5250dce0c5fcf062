import MarketingForm.Proofs.Form.Ids
import MarketingForm.Proofs.Fragment.Tree

/-!
# Ids and labels in fragments

The ids of the elements of a fragment, and the ids that its labels name, are those of a few shapes
(`Resolved.elementIds`, `Resolved.labelled`). In every shape the id of the field can be made out, whatever
the logical name is (`owner_of_mem_elementIds`). So ids of different fields are different, and a label
names an element of its own field (`nodup_ids_labels_own`).
-/

namespace MarketingForm

open Html

/-! ## Parts between hyphens -/

/-- What stands before the last hyphen, and what stands behind it. -/
def splitLast (s : List Char) : List Char × List Char :=
  ((s.reverse.dropWhile (· != '-')).tail.reverse, (s.reverse.takeWhile (· != '-')).reverse)

theorem splitLast_append {t : List Char} (h : '-' ∉ t) (s : List Char) :
    splitLast (s ++ '-' :: t) = (s, t) := by
  have hall : ∀ c ∈ t.reverse, (c != '-') = true := by
    intro c hc
    rw [bne_iff_ne]
    rintro rfl
    exact h (List.mem_reverse.1 hc)
  unfold splitLast
  rw [List.reverse_append, List.reverse_cons, List.append_assoc, List.dropWhile_append_of_pos hall,
    List.takeWhile_append_of_pos hall]
  simp

/-- The id of the field that the id of an element belongs to: the last part, or the one before it if the
last one is too short. -/
def owner (s : String) : List Char :=
  let (before, last) := splitLast s.toList
  if 12 ≤ last.length then last else (splitLast before).2

namespace FieldId.IsMinted

variable {id : FieldId} (h : id.IsMinted)
include h

theorem hyphen : '-' ∉ id.text.toList := by
  intro hmem
  have hdigit := h.digits '-' hmem
  revert hdigit
  decide

theorem owner_last (name : String) : owner (name ++ "-" ++ id.text) = id.text.toList := by
  have hlist : (name ++ "-" ++ id.text).toList = name.toList ++ '-' :: id.text.toList := by simp
  simp only [owner, hlist, splitLast_append h.hyphen, if_pos h.length]

theorem owner_beforeLast (name part : String) (hpart : '-' ∉ part.toList)
    (hlength : part.toList.length < 12) :
    owner (name ++ "-" ++ id.text ++ "-" ++ part) = id.text.toList := by
  have hlist : (name ++ "-" ++ id.text ++ "-" ++ part).toList =
      (name.toList ++ '-' :: id.text.toList) ++ '-' :: part.toList := by simp
  simp only [owner, hlist, splitLast_append hpart, if_neg (Nat.not_le.2 hlength),
    splitLast_append h.hyphen]

end FieldId.IsMinted

/-! ## The ids in a fragment -/

/-- The id of the button of a choice. -/
def buttonId (r : Resolved) (id : FieldId) (i : Nat) : String :=
  Fragment.controlId r id ++ "-" ++ Text.decimal i

namespace Resolved

variable (r : Resolved) (id : FieldId)

/-- The ids of the buttons of a radio field. -/
def buttonIds : List String := (List.range (r.choices "options").length).map (buttonId r id)

/-- The ids of the elements of a fragment, in document order. -/
def elementIds : List String :=
  match r.kind with
  | .text | .email | .phone | .textArea | .dateTime | .dropdown | .checkbox => [Fragment.controlId r id]
  | .radio => Fragment.controlId r id :: r.buttonIds id
  | .consent => [Fragment.consentId id, Fragment.consentId id ++ "-label"]
  | .textBlock | .divider | .submit => []

/-- The ids that the labels of a fragment name, in document order. -/
def labelled : List String :=
  match r.kind with
  | .text | .email | .phone | .textArea | .dateTime | .dropdown | .checkbox => [Fragment.controlId r id]
  | .radio => Fragment.controlId r id :: r.buttonIds id
  | .consent => [Fragment.consentId id]
  | .textBlock | .divider | .submit => []

end Resolved

namespace Fragment

open Element

section

variable (r : Resolved) (id : FieldId) (name : String) (e : Element)

/-! The attributes of the wrapper, the marks and the label of a control. -/

@[simp] theorem below_boundWrapper : (boundWrapper r).below = [] := by simp [boundWrapper]

@[simp] theorem below_mark : (mark e r).below = e.below := by simp [mark]

@[simp] theorem below_markControl : (markControl e r).below = e.below := by simp [markControl]

@[simp] theorem below_label (forId : String) (block : Bool) : (label r forId block).below = [] := by
  simp [label]

@[simp] theorem inner_boundWrapper : (boundWrapper r).inner name = [] := by simp [inner_eq_below]

@[simp] theorem inner_mark : (mark e r).inner name = e.inner name := by simp [inner_eq_below]

@[simp] theorem inner_markControl : (markControl e r).inner name = e.inner name := by
  simp [inner_eq_below]

@[simp] theorem inner_label (forId : String) (block : Bool) : (label r forId block).inner name = [] := by
  simp [inner_eq_below]

section

variable {name}

@[simp] theorem own_boundWrapper_of_ne (hclass : "class" ≠ name) (hblock : "data-editorblocktype" ≠ name)
    (htarget : "data-targetproperty" ≠ name) : (boundWrapper r).own name = [] := by
  simp [boundWrapper, hclass, hblock, htarget]

@[simp] theorem own_mark_of_ne (hrequired : "data-required" ≠ name) (hprefill : "data-prefill" ≠ name) :
    (mark e r).own name = e.own name := by
  simp [mark, hrequired, hprefill]

@[simp] theorem own_markControl_of_ne (h : "aria-required" ≠ name) :
    (markControl e r).own name = e.own name := by
  simp [markControl, h]

@[simp] theorem own_for_label (forId : String) (block : Bool) :
    (label r forId block).own "for" = [forId] := by
  simp [label]

@[simp] theorem own_label_of_ne (forId : String) (block : Bool) (htitle : "title" ≠ name)
    (hclass : "class" ≠ name) (hfor : "for" ≠ name) : (label r forId block).own name = [] := by
  simp [label, htitle, hclass, hfor]

end

/-! Options have neither an id nor a label, and each button has one of both. -/

theorem values_selectOptions (h : "value" ≠ name) (cs : List Choice) :
    ((cs.map selectOption).flatMap fun e => e.own name ++ e.inner name) = [] := by
  simp [List.flatMap_map, selectOption, h]

theorem values_radioButtons {name : String}
    (h : ∀ i c, (radioButton r id i c).own name ++ (radioButton r id i c).inner name = [buttonId r id i])
    (cs : List Choice) :
    ((cs.mapIdx (radioButton r id)).flatMap fun e => e.own name ++ e.inner name) =
      (List.range cs.length).map (buttonId r id) := by
  rw [List.mapIdx_eq_zipIdx_map, List.flatMap_map, List.range_eq_range', ← List.zipIdx_map_snd 0 cs,
    List.map_map, List.map_eq_flatMap]
  simp only [h, Function.comp_apply]

theorem values_radioButton (i : Nat) (c : Choice) :
    (radioButton r id i c).own "id" ++ (radioButton r id i c).inner "id" = [buttonId r id i] ∧
      (radioButton r id i c).own "for" ++ (radioButton r id i c).inner "for" = [buttonId r id i] := by
  simp [radioButton, buttonId]

end

/-- The ids of a fragment, and those that its labels name, are those of its field's kind. -/
theorem values_element (r : Resolved) (id : FieldId) :
    (r.element id).tree.values "id" = r.elementIds id ∧
      (r.element id).tree.values "for" = r.labelled id := by
  simp only [Element.values_tree]
  unfold Resolved.element Resolved.elementIds Resolved.labelled
  cases r.kind with
  | text => simp [textInput, inputBlock]
  | email => simp [emailInput, inputBlock]
  | phone => simp [phoneInput, inputBlock]
  | dateTime => simp [dateTimeInput, inputBlock]
  | textArea => simp [textArea]
  | dropdown => simp [dropdown, selectPlaceholder, values_selectOptions]
  | checkbox => simp [checkbox, choiceWrapper]
  | radio =>
    have hids := values_radioButtons r id (fun i c => (values_radioButton r id i c).1)
      (r.choices "options")
    have hlabels := values_radioButtons r id (fun i c => (values_radioButton r id i c).2)
      (r.choices "options")
    simp [radio, choiceWrapper, hids, hlabels, Resolved.buttonIds]
  | consent => simp [consent]
  | textBlock =>
    obtain ⟨name, hbody, -⟩ := textBody_eq_new (r.text "tag")
    simp [textBlock, hbody]
  | divider => simp [divider]
  | submit => simp [submit]

end Fragment

/-! ## Different ids -/

section

variable {r : Resolved} {id : FieldId}

theorem hyphen_not_mem_decimal (i : Nat) : '-' ∉ (Text.decimal i).toList := by
  rw [Text.toList_decimal_natCast]
  exact fun hmem => Text.forall_mem_numeral (by decide) (· ≠ '-') (by decide) hmem rfl

/-- The ids of a fragment name its field, if there are not so many choices that the number of a button
is as long as the id of a field. -/
theorem owner_of_mem_elementIds (hid : id.IsMinted) (hchoices : (r.choices "options").length < 10 ^ 11)
    {v : String} (hv : v ∈ r.elementIds id) : owner v = id.text.toList := by
  have hcontrol : owner (Fragment.controlId r id) = id.text.toList := hid.owner_last _
  have hbutton : ∀ v ∈ r.buttonIds id, owner v = id.text.toList := by
    intro v hv
    obtain ⟨i, hi, rfl⟩ := List.mem_map.1 hv
    have hlength : (Text.decimal i).toList.length ≤ 11 := by
      rw [Text.toList_decimal_natCast]
      exact Text.length_numeral_le (by decide) (Nat.lt_trans (List.mem_range.1 hi) hchoices)
    exact hid.owner_beforeLast _ _ (hyphen_not_mem_decimal i) (Nat.lt_succ_of_le hlength)
  have hconsent : owner (Fragment.consentId id) = id.text.toList := hid.owner_last "consent"
  have hconsentLabel : owner (Fragment.consentId id ++ "-label") = id.text.toList := by
    have h := hid.owner_beforeLast "consent" "label" (by decide) (by decide)
    rwa [String.append_assoc] at h
  unfold Resolved.elementIds at hv
  cases hk : r.kind with
  | text | email | phone | textArea | dateTime | dropdown | checkbox =>
    simp only [hk, List.mem_singleton] at hv
    rw [hv]
    exact hcontrol
  | radio =>
    simp only [hk, List.mem_cons] at hv
    rcases hv with rfl | hv
    · exact hcontrol
    · exact hbutton v hv
  | consent =>
    simp only [hk, List.mem_cons, List.not_mem_nil, or_false] at hv
    rcases hv with rfl | rfl
    · exact hconsent
    · exact hconsentLabel
  | textBlock | divider | submit =>
    simp only [hk] at hv
    cases hv

theorem buttonId_inj {i j : Nat} (h : buttonId r id i = buttonId r id j) : i = j := by
  have hlist := congrArg String.toList h
  simp only [buttonId, String.toList_append, List.append_cancel_left_eq, Text.toList_decimal_natCast] at hlist
  exact Text.numeral_inj (by decide) (by decide) hlist

theorem buttonId_ne_controlId (i : Nat) : buttonId r id i ≠ Fragment.controlId r id := by
  intro h
  have hlength := congrArg (fun s : String => s.toList.length) h
  simp [buttonId] at hlength

/-- The buttons of a radio field have ids of their own. -/
theorem nodup_buttonIds (r : Resolved) (id : FieldId) :
    (Fragment.controlId r id :: r.buttonIds id).Nodup := by
  rw [List.nodup_cons]
  constructor
  · intro hmem
    obtain ⟨i, -, hi⟩ := List.mem_map.1 hmem
    exact buttonId_ne_controlId i hi
  · exact List.Nodup.map_on (fun i _ j _ h => buttonId_inj h) List.nodup_range

theorem nodup_elementIds (r : Resolved) (id : FieldId) : (r.elementIds id).Nodup := by
  unfold Resolved.elementIds
  cases r.kind with
  | text | email | phone | textArea | dateTime | dropdown | checkbox => exact List.nodup_singleton _
  | radio => exact nodup_buttonIds r id
  | consent =>
    refine List.nodup_cons.2 ⟨?_, List.nodup_singleton _⟩
    intro hmem
    have hlength := congrArg (fun s : String => s.toList.length) (List.mem_singleton.1 hmem)
    simp at hlength
  | textBlock | divider | submit => exact List.nodup_nil

/-- What a label names is the id of an element of the same fragment. -/
theorem labelled_subset (r : Resolved) (id : FieldId) : r.labelled id ⊆ r.elementIds id := by
  unfold Resolved.labelled Resolved.elementIds
  cases r.kind with
  | text | email | phone | textArea | dateTime | dropdown | checkbox | radio | textBlock | divider
  | submit => exact List.Subset.refl _
  | consent => exact List.cons_subset_cons _ (List.nil_subset _)

end

/-! ## Forms -/

namespace Field

/-- The ids of the elements of a field's fragment. -/
def elementIds (f : Field) : List String := Node.valuesAll "id" f.trees

/-- The ids that the labels of a field's fragment name. -/
def labelled (f : Field) : List String := Node.valuesAll "for" f.trees

theorem elementIds_eq (f : Field) :
    f.elementIds = match f.resolve with
      | .ok r => r.elementIds f.id
      | .error _ => [] := by
  unfold elementIds trees
  cases f.resolve with
  | error e => rfl
  | ok r => exact (List.append_nil _).trans (Fragment.values_element r f.id).1

theorem labelled_eq (f : Field) :
    f.labelled = match f.resolve with
      | .ok r => r.labelled f.id
      | .error _ => [] := by
  unfold labelled trees
  cases f.resolve with
  | error e => rfl
  | ok r => exact (List.append_nil _).trans (Fragment.values_element r f.id).2

theorem nodup_elementIds (f : Field) : f.elementIds.Nodup := by
  rw [elementIds_eq]
  split
  · exact MarketingForm.nodup_elementIds _ f.id
  · exact List.nodup_nil

theorem labelled_subset (f : Field) : f.labelled ⊆ f.elementIds := by
  rw [elementIds_eq, labelled_eq]
  split
  · exact MarketingForm.labelled_subset _ f.id
  · exact List.Subset.refl _

/-- The choices of a field can be numbered with less than twelve digits. -/
def HasFewChoices (f : Field) : Prop :=
  ∀ r, f.resolve = .ok r → (r.choices "options").length < 10 ^ 11

theorem owner_of_mem_elementIds {f : Field} (hid : f.id.IsMinted) (hchoices : f.HasFewChoices)
    {v : String} (hv : v ∈ f.elementIds) : owner v = f.id.text.toList := by
  rw [elementIds_eq] at hv
  split at hv
  · rename_i r hr
    exact MarketingForm.owner_of_mem_elementIds hid (hchoices r hr) hv
  · cases hv

end Field

theorem valuesAll_trees (name : String) (fields : List Field) :
    Node.valuesAll name (fields.flatMap Field.trees) =
      fields.flatMap fun f => Node.valuesAll name f.trees := by
  simp only [Node.valuesAll_eq_flatMap, List.flatMap_assoc]

/-- Fields with different minted ids have fragments with different ids. -/
theorem nodup_elementIds_fields {fields : List Field} (hids : (fields.map (·.id)).Nodup)
    (hminted : ∀ f ∈ fields, f.id.IsMinted) (hchoices : ∀ f ∈ fields, f.HasFewChoices) :
    (fields.flatMap Field.elementIds).Nodup := by
  refine List.nodup_flatMap.2 ⟨fun f _ => f.nodup_elementIds, ?_⟩
  refine List.Pairwise.imp_of_mem ?_ (List.pairwise_map.1 hids)
  intro f g hf hg hne v hvf hvg
  have howner := Field.owner_of_mem_elementIds (hminted f hf) (hchoices f hf) hvf
  rw [Field.owner_of_mem_elementIds (hminted g hg) (hchoices g hg) hvg] at howner
  apply hne
  have htext : g.id.text = f.id.text := String.toList_injective howner
  cases hfid : f.id
  cases hgid : g.id
  rw [hfid, hgid] at htext
  exact congrArg FieldId.mk htext.symm

/-- In a form whose fields have different minted ids and not too many choices, no two elements have the
same id, and what a label names is the id of one element, which lies in the fragment of the same field. -/
theorem nodup_ids_labels_own {form : Form} (hids : form.ids.Nodup)
    (hminted : ∀ f ∈ form.fields, f.id.IsMinted) (hchoices : ∀ f ∈ form.fields, f.HasFewChoices) :
    readAll? (form.fragments.flatMap fun m => m.text.toList) =
        some (form.fields.flatMap Field.trees) ∧
      (Node.valuesAll "id" (form.fields.flatMap Field.trees)).Nodup ∧
      ∀ f ∈ form.fields, readAll? f.markup = some f.trees ∧
        ∀ v ∈ Node.valuesAll "for" f.trees, v ∈ Node.valuesAll "id" f.trees ∧
          (Node.valuesAll "id" (form.fields.flatMap Field.trees)).count v = 1 := by
  have hnodup : (form.fields.flatMap Field.elementIds).Nodup :=
    nodup_elementIds_fields hids hminted hchoices
  rw [form.flatMap_fragments, valuesAll_trees]
  refine ⟨readAll?_fields form.fields, hnodup, fun f hf => ⟨readAll?_of_adds f.adds_markup, ?_⟩⟩
  intro v hv
  have hown : v ∈ f.elementIds := f.labelled_subset hv
  exact ⟨hown, List.count_eq_one_of_mem hnodup (List.mem_flatMap.2 ⟨f, hf, hown⟩)⟩

/-- Two radio fields with the same names and a consent field, added by one process at the same time. -/
def twins : Form := ⟨"F", .lead, [
  Field.new Kind.radio.definition (FieldId.mint 1700000000000 0),
  Field.new Kind.radio.definition (FieldId.mint 1700000000000 1),
  Field.new Kind.consent.definition (FieldId.mint 1700000000000 2)]⟩

theorem nodup_ids_labels_own_twins :
    (Node.valuesAll "id" (twins.fields.flatMap Field.trees)).Nodup ∧
      ∀ f ∈ twins.fields, ∀ v ∈ Node.valuesAll "for" f.trees,
        (Node.valuesAll "id" (twins.fields.flatMap Field.trees)).count v = 1 := by
  have hids : twins.ids.Nodup := by
    have hmap : twins.ids = [0, 1, 2].map (FieldId.mint 1700000000000) := rfl
    rw [hmap]
    refine List.Nodup.map_on ?_ (by decide)
    intro n hn m hm h
    have hsmall : ∀ k ∈ [0, 1, 2], k < 36 ^ 4 := by decide
    exact FieldId.sequence_inj (hsmall n hn) (hsmall m hm) h
  have hminted : ∀ f ∈ twins.fields, f.id.IsMinted := by
    simp only [twins, List.forall_mem_cons]
    exact ⟨FieldId.isMinted_mint (by decide) 0, FieldId.isMinted_mint (by decide) 1,
      FieldId.isMinted_mint (by decide) 2, by simp⟩
  have hchoices : ∀ f ∈ twins.fields, f.HasFewChoices := by
    simp only [twins, List.forall_mem_cons]
    refine ⟨?_, ?_, ?_, by simp⟩
    all_goals
      intro r hr
      cases hr
      decide
  obtain ⟨-, hnodup, hlabels⟩ := nodup_ids_labels_own hids hminted hchoices
  exact ⟨hnodup, fun f hf v hv => ((hlabels f hf).2 v hv).2⟩

end MarketingForm
