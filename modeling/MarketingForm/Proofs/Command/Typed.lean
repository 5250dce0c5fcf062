import MarketingForm.Proofs.Command.Ids
import MarketingForm.Proofs.Form.Typed

/-!
# Well-typed forms in sessions

The edits of a form file keep the form in it well typed, unless one sets a property to a text whatever
the property is (`Typed.step`). What is saved is loaded as it was, and a save that fails leaves what is
loaded (`loaded_of_held`), so this holds of the form that is loaded at any time in a session.
-/

namespace MarketingForm

open Files

variable {t u : Tree} {path : String} {newId : FieldId}

/-! ## Edits -/

/-- The task sets a property to a text, whatever the property is. -/
def Task.SetsText (task : Task) : Prop := ∃ path id name raw, task = .set path id name raw true

theorem wellTyped_edit {task : Task} (htask : ¬ task.SetsText) {before : Option Form}
    (hbefore : ∀ form, before = some form → form.WellTyped) {form : Form}
    (h : task.edit newId before = some form) : form.WellTyped := by
  cases Task.edited_of_edit h with
  | create path title audience force => exact fun f hf => absurd hf List.not_mem_nil
  | add path typeKey position hform hadd => exact (hbefore _ hform).add hadd
  | remove path id hform hremove => exact (hbefore _ hform).remove hremove
  | set path id name raw asText hform hfield hv hset =>
    cases asText with
    | true => exact absurd ⟨path, id, name, raw, rfl⟩ htask
    | false => exact (hbefore _ hform).set hfield hv hset

/-! ## Forms in files -/

/-- What is loaded depends on nothing but the bytes that are read. -/
theorem loaded_congr (h : (u.read path).toOption = (t.read path).toOption) :
    loaded u path = loaded t path := by
  have hnone : ∀ {t : Tree} {e : FileError}, t.read path = .error e → loaded t path = none := by
    intro t e hread
    cases hloaded : loaded t path with
    | none => rfl
    | some form =>
      obtain ⟨text, htext, -⟩ := loaded_eq_some.1 hloaded
      obtain ⟨c, hread'⟩ := read_of_text htext
      rw [hread] at hread'
      cases hread'
  cases hu : u.read path with
  | error e =>
    cases ht : t.read path with
    | error e' => rw [hnone hu, hnone ht]
    | ok c =>
      rw [hu, ht] at h
      cases h
  | ok c =>
    rw [hu] at h
    have ht : t.read path = .ok c := toOption_eq_some.1 h.symm
    have htext : u.text path = t.text path := text_congr (hu.trans ht.symm)
    refine Option.ext fun form => ?_
    rw [loaded_eq_some, loaded_eq_some, htext]

/-- A save that fails leaves what is loaded, if it is the file at the place of the path that is read. -/
theorem loaded_of_held (h : Held t path) {form : Form} {e : FormFileError}
    (hsave : runOn t (Form.save path form) = (.error e, u)) : loaded u path = loaded t path := by
  obtain ⟨hkeeps, hfile⟩ := kept_of_save hsave
  have hreached : Reached u path := reached_of_save h.root h.reached hsave
  refine loaded_congr ?_
  rw [hreached.read_eq (hkeeps [] h.root), h.reached.read_eq h.root, hfile]

/-! ## Command lines -/

namespace Line

variable {l : Line}

/-- If the command line does anything, it edits the form at a path, and it does not set a property to a
text whatever the property is. -/
def EditsTyped (l : Line) (path : String) : Prop :=
  ∀ task, Request.ofWords l.words = some (.task task) → task.edited? = some path ∧ ¬ task.SetsText

/-- A command line that is refused, or that asks for help, leaves the tree as it was. -/
theorem perform_of_no_task (h : ∀ task, Request.ofWords l.words ≠ some (.task task)) (t : Tree) :
    (l.perform t).2 = t := by
  unfold perform MarketingForm.perform runWords
  cases hwords : Request.ofWords l.words with
  | none => rfl
  | some r =>
    cases r with
    | version => rfl
    | help => rfl
    | task task => exact absurd hwords (h task)

end Line

/-- A form file whose form is well typed, if one is loaded from it. -/
structure Typed (t : Tree) (path : String) : Prop where
  held : Held t path
  forms : ∀ form, loaded t path = some form → form.WellTyped

theorem Typed.step {l : Line} (h : Typed t path) (hl : l.EditsTyped path) :
    Typed (l.perform t).2 path := by
  by_cases htask : ∀ task, Request.ofWords l.words ≠ some (.task task)
  · rwa [Line.perform_of_no_task htask]
  · simp only [not_forall, not_not] at htask
    obtain ⟨task, hwords⟩ := htask
    obtain ⟨hpath, hsets⟩ := hl task hwords
    have hedits : l.Edits path := by
      intro r hr
      exact ⟨task, Option.some.inj (hr.symm.trans hwords), hpath⟩
    refine ⟨h.held.step hedits, ?_⟩
    rcases l.step hedits t with ⟨-, hsame, -⟩ | ⟨form, hedit, ⟨-, hsave⟩ | ⟨-, e, hsave⟩⟩
    · rw [hsame]
      exact h.forms
    · rw [loaded_of_save hsave]
      rintro form' ⟨rfl⟩
      rw [Line.edit, hwords] at hedit
      exact wellTyped_edit hsets h.forms hedit
    · rw [loaded_of_held h.held hsave]
      exact h.forms

theorem Typed.session (h : Typed t path) {lines : List Line}
    (hlines : ∀ l ∈ lines, l.EditsTyped path) : Typed (session t lines) path :=
  session_keeps (P := fun t => Typed t path) (fun l hl _ h => h.step (hlines l hl)) h

theorem typed_of_absent (hroot : t.DirAt []) (habsent : t.fileAt (place path) = none) :
    Typed t path := by
  have hreached : Reached t path := by
    intro c hc
    rw [habsent] at hc
    cases hc
  refine ⟨⟨hroot, hreached⟩, fun form hform => ?_⟩
  obtain ⟨text, htext, -⟩ := loaded_eq_some.1 hform
  have hnone : (t.read path).toOption = none := (hreached.read_eq hroot).trans habsent
  obtain ⟨c, hread⟩ := read_of_text htext
  rw [hread] at hnone
  cases hnone

/-- In a session that begins without a form file, and in which no property is set to a text whatever it
is, the form that is loaded after any command line is well typed: each of its fields is of a known type
and holds every property that the type declares, with a value of the kind of the default, and its other
properties are texts. -/
theorem wellTyped_session (hroot : t.DirAt []) (habsent : t.fileAt (place path) = none)
    {lines : List Line} (hlines : ∀ l ∈ lines, l.EditsTyped path) {done : List Line}
    (hdone : done <+: lines) {form : Form} (hform : loaded (session t done) path = some form) :
    ∀ f ∈ form.fields, ∃ d, Definition.lookup? f.typeKey = some d ∧
      (∀ name v, d.defaults.get? name = some v → ∃ w, f.props.get? name = some w ∧ w.kind = v.kind) ∧
      ∀ name w, f.props.get? name = some w → d.defaults.get? name = none → w.kind = .text := by
  intro f hf
  have htyped : Typed (session t done) path :=
    (typed_of_absent hroot habsent).session fun l hl => hlines l (hdone.subset hl)
  obtain ⟨d, hlookup, hfit⟩ := htyped.forms form hform f hf
  exact ⟨d, hlookup, hfit.declared, hfit.others⟩

/-- Where forms can be saved, an edit that is not refused is loaded. -/
theorem Kept.loaded {l : Line} {name : String} (h : Kept t path name) (hl : l.Edits path) {form : Form}
    (hedit : l.edit (loaded t path) = some form) : loaded (l.perform t).2 path = some form := by
  have hcode : (l.perform t).1.code = 0 := (h.step hl).2.2 (by rw [hedit]; rfl)
  rcases l.step hl t with ⟨hne, -⟩ | ⟨form', hedit', ⟨-, hsave⟩ | ⟨hne, -⟩⟩
  · exact absurd hcode hne
  · rw [loaded_of_save hsave, ← hedit', hedit]
  · exact absurd hcode hne

/-- The command line that sets a declared property. -/
def setLine : Line := ⟨⟨""⟩, "", ["set", "form.yaml", "f1", "thickness", " +7 "]⟩

theorem ofWords_setLine : Request.ofWords setLine.words =
    some (.task (.set "form.yaml" "f1" "thickness" " +7 " false)) := by
  decide +kernel

theorem edits_setLine : setLine.Edits "form.yaml" := by
  intro r hr
  rw [ofWords_setLine] at hr
  exact ⟨_, (Option.some.inj hr).symm, rfl⟩

/-- A divider that a session has added and changed. -/
def thickDivider : Field :=
  ⟨⟨"f1"⟩, "divider", .ofList [("color", .text "#e1dfdd"), ("thickness", .integer 7)]⟩

theorem loaded_session_setLine :
    loaded (session Tree.empty [createLine, addLine, setLine]) "form.yaml" =
      some ⟨"Event", .contact, [thickDivider]⟩ := by
  have habsent : Tree.empty.fileAt (place "form.yaml") = none := by decide +kernel
  have hkept := kept_of_absent savable_empty habsent
  have hcreated : loaded (createLine.perform Tree.empty).2 "form.yaml" =
      some ⟨"Event", .contact, []⟩ := by
    refine hkept.loaded edits_createLine ?_
    rw [loaded_empty, Line.edit, ofWords_createLine]
    rfl
  have hkept := (hkept.step edits_createLine).1
  have hadded : loaded (addLine.perform (createLine.perform Tree.empty).2).2 "form.yaml" =
      some ⟨"Event", .contact, [Field.new Kind.divider.definition ⟨"f1"⟩]⟩ := by
    refine hkept.loaded edits_addLine ?_
    rw [hcreated, Line.edit, ofWords_addLine]
    rfl
  have hkept := (hkept.step edits_addLine).1
  rw [session_cons, session_cons, session_cons, session_nil]
  refine hkept.loaded edits_setLine ?_
  rw [hadded, Line.edit, ofWords_setLine]
  decide +kernel

theorem wellTyped_session_setLine :
    loaded (session Tree.empty [createLine, addLine, setLine]) "form.yaml" =
        some ⟨"Event", .contact, [thickDivider]⟩ ∧
      ∃ d, Definition.lookup? "divider" = some d ∧ d.defaults.get? "thickness" = some (.integer 2) ∧
        ∃ w, thickDivider.props.get? "thickness" = some w ∧ w.kind = .integer := by
  have hroot : Tree.empty.DirAt [] := ⟨[], rfl⟩
  have habsent : Tree.empty.fileAt (place "form.yaml") = none := by decide +kernel
  have hlines : ∀ l ∈ [createLine, addLine, setLine], l.EditsTyped "form.yaml" := by
    simp only [List.forall_mem_cons]
    refine ⟨?_, ?_, ?_, nofun⟩
    · intro task h
      rw [ofWords_createLine] at h
      cases h
      exact ⟨rfl, nofun⟩
    · intro task h
      rw [ofWords_addLine] at h
      cases h
      exact ⟨rfl, nofun⟩
    · intro task h
      rw [ofWords_setLine] at h
      cases h
      exact ⟨rfl, by simp [Task.SetsText]⟩
  obtain ⟨d, hlookup, hdeclared, -⟩ := wellTyped_session hroot habsent hlines List.prefix_rfl
    loaded_session_setLine thickDivider List.mem_cons_self
  have hdefault : d.defaults.get? "thickness" = some (.integer 2) := by
    cases hlookup
    decide
  exact ⟨loaded_session_setLine, d, hlookup, hdefault, hdeclared _ _ hdefault⟩

end MarketingForm
