import Mathlib.Data.List.Pairwise
import MarketingForm.Proofs.Form.Ids

/-!
# Edits of different fields

Removing a field and setting a property both put something in the place of the first field with an id
(`onFirst`, `Edit.run_eq`), and what they answer depends on that field only (`Edit.answer_eq`). So edits of
fields with different ids have the same effects and answers in either order (`Edit.run_comm`,
`Edit.answer_run`), and many such edits have the same effect in every order (`Form.after_eq_of_perm`).
-/

namespace MarketingForm

/-! ## The first field with an id -/

/-- Puts fields in the place of the first field with an id. -/
def onFirst (id : FieldId) (h : Field → List Field) : List Field → List Field
  | [] => []
  | f :: r => if f.id = id then h f ++ r else f :: onFirst id h r

section

variable {id id' : FieldId} {h k : Field → List Field} {f : Field} {before after fields : List Field}

/-- Fields without the id are passed over. -/
theorem onFirst_append (hbefore : ∀ g ∈ before, g.id ≠ id) (after : List Field) :
    onFirst id h (before ++ after) = before ++ onFirst id h after := by
  induction before with
  | nil => rfl
  | cons g before ih =>
    rw [List.forall_mem_cons] at hbefore
    rw [List.cons_append, onFirst, if_neg hbefore.1, ih hbefore.2, List.cons_append]

theorem onFirst_first (hbefore : ∀ g ∈ before, g.id ≠ id) (hf : f.id = id) :
    onFirst id h (before ++ f :: after) = before ++ (h f ++ after) := by
  rw [onFirst_append hbefore, onFirst, if_pos hf]

theorem onFirst_none (hfields : ∀ g ∈ fields, g.id ≠ id) : onFirst id h fields = fields := by
  have happend := onFirst_append (h := h) hfields []
  rwa [onFirst, List.append_nil] at happend

/-- What is put in the places of fields with different ids does not depend on which is first. -/
theorem onFirst_comm (hne : id ≠ id') (hh : ∀ f, ∀ g ∈ h f, g.id = f.id)
    (hk : ∀ f, ∀ g ∈ k f, g.id = f.id) (fields : List Field) :
    onFirst id' k (onFirst id h fields) = onFirst id h (onFirst id' k fields) := by
  induction fields with
  | nil => rfl
  | cons f r ih =>
    by_cases hf : f.id = id
    · have hfid' : f.id ≠ id' := fun hf' => hne (hf.symm.trans hf')
      have hplace : ∀ g ∈ h f, g.id ≠ id' := fun g hg => hh f g hg ▸ hfid'
      rw [onFirst, if_pos hf, onFirst_append hplace, onFirst, if_neg hfid', onFirst, if_pos hf]
    · by_cases hf' : f.id = id'
      · have hplace : ∀ g ∈ k f, g.id ≠ id := fun g hg => hk f g hg ▸ hf
        rw [onFirst, if_neg hf, onFirst, if_pos hf', onFirst, if_pos hf', onFirst_append hplace]
      · rw [onFirst, if_neg hf, onFirst, if_neg hf', ih, onFirst, if_neg hf', onFirst, if_neg hf]

/-- What is put in the place of a field with one id is not found under another one. -/
theorem find?_onFirst (hne : id ≠ id') (hk : ∀ f, ∀ g ∈ k f, g.id = f.id) (fields : List Field) :
    (onFirst id' k fields).find? (·.id == id) = fields.find? (·.id == id) := by
  induction fields with
  | nil => rfl
  | cons f r ih =>
    rw [onFirst]
    split
    · rename_i hf
      have hplace : (k f).find? (·.id == id) = none := by
        refine List.find?_eq_none.2 fun g hg => ?_
        simpa [hk f g hg, hf] using Ne.symm hne
      have hskip : ¬ (f.id == id) = true := by simpa [hf] using Ne.symm hne
      rw [List.find?_append, hplace, Option.none_or]
      exact (List.find?_cons_of_neg (p := fun g : Field => g.id == id) hskip).symm
    · rw [List.find?_cons, List.find?_cons, ih]

/-- Fields put in the place of a field with the same id are those that are found next. -/
theorem onFirst_onFirst {h : Field → List Field} {g : Field → Field}
    (hg : ∀ f, (g f).id = f.id) (fields : List Field) :
    onFirst id h (onFirst id (fun f => [g f]) fields) = onFirst id (fun f => h (g f)) fields := by
  induction fields with
  | nil => rfl
  | cons f r ih =>
    rw [onFirst, onFirst]
    split
    · rename_i hf
      rw [List.singleton_append, onFirst, if_pos ((hg f).trans hf)]
    · rename_i hf
      rw [onFirst, if_neg hf, ih]

theorem find?_onFirst_self {g : Field → Field} (hg : ∀ f, (g f).id = f.id)
    (fields : List Field) : (onFirst id (fun f => [g f]) fields).find? (·.id == id) =
      (fields.find? (·.id == id)).map g := by
  induction fields with
  | nil => rfl
  | cons f r ih =>
    rw [onFirst]
    split
    · rename_i hf
      simp [hg, hf]
    · rename_i hf
      simp [hf, ih]

end

/-! ## Edits of a field -/

/-- A field with one property set. -/
def Field.withProp (name : String) (v : Value) (f : Field) : Field :=
  { f with props := f.props.insert name v }

namespace Edit

/-- The id of the field that an edit removes or changes. -/
def target? : Edit → Option FieldId
  | add .. => none
  | remove id => some id
  | set id _ _ => some id

/-- What an edit puts in the place of the field that it removes or changes. -/
def leaves : Edit → Field → List Field
  | add .., f => [f]
  | remove _, _ => []
  | set _ name v, f => [f.withProp name v]

/-- What an edit answers: the field that it removes, or nothing but that it was made. -/
def answer (form : Form) : Edit → Except EditError (Option Field)
  | add newId key index? => (form.add newId key index?).map fun _ => none
  | remove id => (form.remove id).map fun r => some r.1
  | set id name v => (form.set id name v).map fun _ => none

/-- The field that an edit hands out. -/
def out? : Edit → Field → Option Field
  | remove _, f => some f
  | _, _ => none

/-- Edits of fields with different ids. -/
def Apart (e e' : Edit) : Prop := ∃ id id', e.target? = some id ∧ e'.target? = some id' ∧ id ≠ id'

instance : Std.Symm Apart where
  symm := by
    rintro e e' ⟨id, id', hid, hid', hne⟩
    exact ⟨id', id, hid', hid, hne.symm⟩

theorem id_of_mem_leaves (e : Edit) (f : Field) {g : Field} (hg : g ∈ e.leaves f) : g.id = f.id := by
  cases e with
  | add => rw [List.mem_singleton.1 hg]
  | remove => cases hg
  | set =>
    rw [List.mem_singleton.1 hg]
    rfl

variable {e e' : Edit} {form : Form} {id id' : FieldId}

/-- The first field with the id decides whether an edit is made, and what it answers. -/
theorem apply_and_answer (h : e.target? = some id) :
    (e.apply form = match form.field? id with
      | some _ => .ok { form with fields := onFirst id e.leaves form.fields }
      | none => .error (.noField id)) ∧
    e.answer form = match form.field? id with
      | some f => .ok (e.out? f)
      | none => .error (.noField id) := by
  rcases Form.exists_first id form.fields with hnone | ⟨before, f, after, hfields, hf, hbefore⟩
  · have hfield : form.field? id = none := List.find?_eq_none.2 (by simpa using hnone)
    cases e with
    | add => cases h
    | remove =>
      cases h
      simp [apply, answer, Form.remove, Form.takeOut_none hnone, hfield, Except.map]
    | set =>
      cases h
      simp [apply, answer, Form.set, Form.change_none hnone, hfield, Except.map]
  · have hfield : form.field? id = some f := by
      rw [Form.field?, List.find?_eq_some_iff_append]
      exact ⟨by simpa using hf, before, after, hfields, by simpa using hbefore⟩
    rw [hfields, onFirst_first hbefore hf]
    cases e with
    | add => cases h
    | remove =>
      cases h
      simp [apply, answer, Form.remove, hfields, Form.takeOut_first hbefore hf, hfield, Except.map, leaves,
        out?]
    | set =>
      cases h
      simp [apply, answer, Form.set, hfields, Form.change_first hbefore hf, hfield, Except.map, leaves,
        out?, Field.withProp]

theorem answer_eq (h : e.target? = some id) :
    e.answer form = match form.field? id with
      | some f => .ok (e.out? f)
      | none => .error (.noField id) := (apply_and_answer h).2

/-- A refused edit finds nothing to replace, so the form is the same as if it had been made. -/
theorem run_eq (h : e.target? = some id) :
    e.run form = { form with fields := onFirst id e.leaves form.fields } := by
  rw [run, (apply_and_answer h).1]
  cases hfield : form.field? id with
  | some f => rfl
  | none =>
    have hnone : ∀ g ∈ form.fields, g.id ≠ id := by simpa [Form.field?] using hfield
    simp only [onFirst_none hnone]

theorem run_comm (h : e.Apart e') (form : Form) : e'.run (e.run form) = e.run (e'.run form) := by
  obtain ⟨id, id', hid, hid', hne⟩ := h
  rw [run_eq hid, run_eq hid', run_eq hid', run_eq hid,
    onFirst_comm hne (fun f _ => e.id_of_mem_leaves f) (fun f _ => e'.id_of_mem_leaves f)]

theorem field?_run (h : e'.target? = some id') (hne : id ≠ id') (form : Form) :
    (e'.run form).field? id = form.field? id := by
  rw [run_eq h]
  exact find?_onFirst hne (fun f _ => e'.id_of_mem_leaves f) form.fields

theorem answer_run (h : e.Apart e') (form : Form) : e.answer (e'.run form) = e.answer form := by
  obtain ⟨id, id', hid, hid', hne⟩ := h
  rw [answer_eq hid, answer_eq hid, field?_run hid' hne]

end Edit

/-- Edits of different fields have the same effect in every order. -/
theorem Form.after_eq_of_perm {edits edits' : List Edit} (hapart : edits.Pairwise Edit.Apart)
    (hperm : edits.Perm edits') (form : Form) : form.after edits = form.after edits' := by
  refine hperm.foldl_eq' (fun e he e' he' form => ?_) form
  by_cases heq : e = e'
  · rw [heq]
  · exact Edit.run_comm (hapart.forall he he' heq) form

end MarketingForm
