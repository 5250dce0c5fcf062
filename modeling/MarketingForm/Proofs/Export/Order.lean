import MarketingForm.Proofs.Export.Fragments
import MarketingForm.Proofs.Form.Commute
import MarketingForm.Proofs.Fragment.Declared

/-!
# Exports and the order of entries

The markup of a field does not depend on the order of its entries (`Field.SameProps.render_eq`), and a report
depends on the fields only through their markup (`Form.build_congr`). So edits of different properties lead to
equal reports in either order, though the forms may differ in the order of a field's entries
(`edits_commute`).
-/

namespace MarketingForm

/-! ## Fields with the same values -/

/-- Fields that differ at most in the order of their entries. -/
structure Field.SameProps (f g : Field) : Prop where
  id : f.id = g.id
  typeKey : f.typeKey = g.typeKey
  get? : ∀ name, f.props.get? name = g.props.get? name

theorem Field.SameProps.render_eq {f g : Field} (h : f.SameProps g) : f.render = g.render := by
  by_cases hknown : f.IsKnown
  · obtain ⟨k, hk⟩ := hknown
    have hkey : g.typeKey = k.key := h.typeKey ▸ hk.symm
    have hagree : Resolved.AgreeOn k ⟨k, f.props.fill k.definition.defaults⟩
        ⟨k, g.props.fill k.definition.defaults⟩ := by
      refine .of_get? rfl rfl fun name _ => ?_
      rw [Resolved.get?, Resolved.get?, Bag.get?_fill, Bag.get?_fill, h.get?]
    rw [render_of_resolve (resolve_of_key hk.symm), render_of_resolve (resolve_of_key hkey), h.id,
      Fragment.element_congr g.id hagree]
  · have hknown' : ¬ g.IsKnown := by rwa [IsKnown, ← h.typeKey]
    rw [render_of_not_isKnown hknown, render_of_not_isKnown hknown', h.id, h.typeKey]

/-! ## Forms with the same markup -/

namespace Form

theorem fragments_eq (form : Form) :
    form.fragments = (form.fields.map Field.render).filterMap Except.toOption := by
  rw [List.filterMap_map]
  rfl

theorem skipped_eq_filterMap (form : Form) : form.skipped =
    (form.fields.map Field.render).filterMap fun m =>
      match m with
      | .ok _ => none
      | .error u => some u := by
  rw [List.filterMap_map]
  rfl

/-- A report depends on the fields only through what they render to. -/
theorem build_congr {form form' : Form} (htitle : form.title = form'.title)
    (hrender : form.fields.map Field.render = form'.fields.map Field.render) (shell : String)
    (tokens : Tokens) (fallback : String) :
    form.build shell tokens fallback = form'.build shell tokens fallback := by
  have hfragments : form.fragments = form'.fragments := by
    rw [fragments_eq, hrender, fragments_eq]
  have hskipped : form.skipped = form'.skipped := by
    rw [skipped_eq_filterMap, hrender, skipped_eq_filterMap]
  simp only [build, effectiveTitle, htitle, hfragments, hskipped]

end Form

/-! ## Properties of one field -/

/-- Fields that render alike may stand for each other in the place of a field. -/
theorem map_render_onFirst {id : FieldId} {h k : Field → List Field}
    (hsame : ∀ f, (h f).map Field.render = (k f).map Field.render) (fields : List Field) :
    (onFirst id h fields).map Field.render = (onFirst id k fields).map Field.render := by
  induction fields with
  | nil => rfl
  | cons f r ih =>
    rw [onFirst, onFirst]
    split
    · rw [List.map_append, List.map_append, hsame]
    · rw [List.map_cons, List.map_cons, ih]

namespace Edit

variable {id : FieldId} {name name' : String} {v v' : Value}

/-- A property that is set does not change which field is found, nor what the next one answers. -/
theorem answer_set_run_set (form : Form) :
    (set id name v).answer ((set id name' v').run form) = (set id name v).answer form := by
  have hfield : ((set id name' v').run form).field? id =
      (form.field? id).map (Field.withProp name' v') := by
    rw [run_eq (e := set id name' v') rfl]
    exact find?_onFirst_self (g := Field.withProp name' v') (fun _ => rfl) form.fields
  rw [answer_eq (e := set id name v) rfl, answer_eq (e := set id name v) rfl, hfield]
  cases form.field? id <;> rfl

/-- Two properties of a field that are set in either order give fields that render alike. -/
theorem map_render_set_set (hne : name ≠ name') (form : Form) :
    ((set id name' v').run ((set id name v).run form)).fields.map Field.render =
      ((set id name v).run ((set id name' v').run form)).fields.map Field.render := by
  have hboth (n n' : String) (w w' : Value) : ((set id n' w').run ((set id n w).run form)).fields =
      onFirst id (fun f => [(f.withProp n w).withProp n' w']) form.fields := by
    rw [run_eq (e := set id n' w') rfl, run_eq (e := set id n w) rfl]
    exact onFirst_onFirst (g := Field.withProp n w) (fun _ => rfl) form.fields
  have hsame (f : Field) : ((f.withProp name v).withProp name' v').SameProps
      ((f.withProp name' v').withProp name v) := ⟨rfl, rfl, f.props.get?_insert_comm hne v v'⟩
  rw [hboth, hboth]
  refine map_render_onFirst (fun f => ?_) form.fields
  rw [List.map_singleton, List.map_singleton, (hsame f).render_eq]

theorem title_run_set (form : Form) : ((set id name v).run form).title = form.title := by
  rw [run_eq (e := set id name v) rfl]

end Edit

/-- Edits of fields with different ids lead to the same form and have the same answers in either order. Two
properties of one field may be set in either order: the answers are the same, and so is every export of the
form. -/
theorem edits_commute (form : Form) :
    (∀ e e' : Edit, e.Apart e' →
      e'.run (e.run form) = e.run (e'.run form) ∧
      e.answer (e'.run form) = e.answer form ∧ e'.answer (e.run form) = e'.answer form) ∧
    ∀ (id : FieldId) (name name' : String) (v v' : Value), name ≠ name' →
      (Edit.set id name v).answer ((Edit.set id name' v').run form) =
        (Edit.set id name v).answer form ∧
      (Edit.set id name' v').answer ((Edit.set id name v).run form) =
        (Edit.set id name' v').answer form ∧
      ∀ (shell : String) (tokens : Tokens) (fallback : String),
        ((Edit.set id name' v').run ((Edit.set id name v).run form)).build shell tokens fallback =
          ((Edit.set id name v).run ((Edit.set id name' v').run form)).build shell tokens fallback := by
  refine ⟨fun e e' h => ⟨Edit.run_comm h form, Edit.answer_run h form, Edit.answer_run (symm h) form⟩, ?_⟩
  intro id name name' v v' hne
  refine ⟨Edit.answer_set_run_set form, Edit.answer_set_run_set form, fun shell tokens fallback => ?_⟩
  refine Form.build_congr ?_ (Edit.map_render_set_set hne form) shell tokens fallback
  rw [Edit.title_run_set, Edit.title_run_set, Edit.title_run_set, Edit.title_run_set]

/-- A form with two fields. -/
def twoFields : Form :=
  ⟨"F", default, [Field.new Kind.text.definition ⟨"a"⟩, Field.new Kind.submit.definition ⟨"b"⟩]⟩

/-- New names keep the order in which they were set, so the forms differ. -/
theorem edits_commute_twoFields :
    let remove : Edit := .remove ⟨"a"⟩
    let press : Edit := .set ⟨"b"⟩ "buttonText" (.text "Go")
    let note : Edit := .set ⟨"b"⟩ "note" (.text "n")
    let hint : Edit := .set ⟨"b"⟩ "hint" (.text "h")
    (remove.Apart press ∧ press.run (remove.run twoFields) = remove.run (press.run twoFields) ∧
      remove.answer (press.run twoFields) = .ok (some (Field.new Kind.text.definition ⟨"a"⟩))) ∧
    "note" ≠ "hint" ∧ hint.run (note.run twoFields) ≠ note.run (hint.run twoFields) ∧
      (hint.run (note.run twoFields)).build builtInShell .empty "x" =
        (note.run (hint.run twoFields)).build builtInShell .empty "x" := by
  intro remove press note hint
  have hapart : remove.Apart press := ⟨⟨"a"⟩, ⟨"b"⟩, rfl, rfl, by decide⟩
  have hne : "note" ≠ "hint" := by decide
  obtain ⟨hdifferent, hsame⟩ := edits_commute twoFields
  obtain ⟨hrun, hanswer, -⟩ := hdifferent remove press hapart
  refine ⟨⟨hapart, hrun, hanswer.trans rfl⟩, hne, by decide +kernel, ?_⟩
  exact (hsame ⟨"b"⟩ "note" "hint" (.text "n") (.text "h") hne).2.2 builtInShell .empty "x"

end MarketingForm
