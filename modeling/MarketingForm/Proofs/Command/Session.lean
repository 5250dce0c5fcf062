import MarketingForm.Proofs.Command.Run
import MarketingForm.Proofs.Form.File

/-!
# Sessions of edits

Four tasks edit the form in a file. An edit is refused before it touches the disk, or it goes as the
save of the edited form goes (`goes_work`). So a session of edits on one file is one of edits in memory:
an edit that ends well leaves the form that the same edit makes in memory of the form before it, and one
that does not leaves the file as it was.
-/

namespace MarketingForm

open Files

variable {t u : Tree} {path : String} {newId : FieldId} {task : Task}

/-! ## Edits in memory -/

/-- The form file that a task edits. -/
def Task.edited? : Task → Option String
  | .create path _ _ _ => some path
  | .add path _ _ => some path
  | .remove path _ => some path
  | .set path _ _ _ _ => some path
  | _ => none

/-- What a task makes of the form in its file; nothing if it is refused. -/
def Task.edit (newId : FieldId) (before : Option Form) : Task → Option Form
  | .create _ title audience force =>
    if before.isSome && !force then none else some { Form.new title with audience := audience }
  | .add _ typeKey position => before.bind fun form => (form.add newId typeKey position).toOption
  | .remove _ id => before.bind fun form => (form.remove ⟨id⟩).toOption.map Prod.snd
  | .set _ id name raw asText =>
    before.bind fun form =>
      (form.field? ⟨id⟩).bind fun field =>
        (typedValue field name raw asText).toOption.bind fun v => (form.set ⟨id⟩ name v).toOption
  | _ => none

/-- How a task comes to its form. -/
inductive Task.Edited (newId : FieldId) (before : Option Form) : Task → Form → Prop
  | create (path title : String) (audience : Audience) (force : Bool) :
      Edited newId before (.create path title audience force)
        { Form.new title with audience := audience }
  | add (path typeKey : String) (position : Option Nat) {form edited : Form}
      (hform : before = some form) (h : form.add newId typeKey position = .ok edited) :
      Edited newId before (.add path typeKey position) edited
  | remove (path id : String) {form edited : Form} {f : Field} (hform : before = some form)
      (h : form.remove ⟨id⟩ = .ok (f, edited)) : Edited newId before (.remove path id) edited
  | set (path id name raw : String) (asText : Bool) {form edited : Form} {f : Field} {v : Value}
      (hform : before = some form) (hfield : form.field? ⟨id⟩ = some f)
      (hv : typedValue f name raw asText = .ok v) (h : form.set ⟨id⟩ name v = .ok edited) :
      Edited newId before (.set path id name raw asText) edited

theorem Task.edited_of_edit {before : Option Form} {form : Form}
    (h : task.edit newId before = some form) : Task.Edited newId before task form := by
  cases task with
  | create path title audience force =>
    rw [Task.edit] at h
    split at h
    · cases h
    · cases h
      exact .create path title audience force
  | add path typeKey position =>
    obtain ⟨form₀, hform₀, hadd⟩ := Option.bind_eq_some_iff.1 h
    exact .add path typeKey position hform₀ (toOption_eq_some.1 hadd)
  | remove path id =>
    obtain ⟨form₀, hform₀, h⟩ := Option.bind_eq_some_iff.1 h
    obtain ⟨⟨f, form'⟩, hremove, rfl⟩ := Option.map_eq_some_iff.1 h
    exact .remove path id hform₀ (toOption_eq_some.1 hremove)
  | set path id name raw asText =>
    obtain ⟨form₀, hform₀, h⟩ := Option.bind_eq_some_iff.1 h
    obtain ⟨field, hfield, h⟩ := Option.bind_eq_some_iff.1 h
    obtain ⟨v, hv, hset⟩ := Option.bind_eq_some_iff.1 h
    exact .set path id name raw asText hform₀ hfield (toOption_eq_some.1 hv)
      (toOption_eq_some.1 hset)
  | list path => cases h
  | palette category json => cases h
  | names audience path json => cases h
  | render path field => cases h
  | publish path o dryRun => cases h
  | compare path o => cases h

/-- The form that is loaded from a file. -/
def loaded (t : Tree) (path : String) : Option Form := (runOn t (Form.load path)).1.toOption

theorem loaded_eq (t : Tree) (path : String) : loaded t path = (formIn t path).toOption := by
  rw [loaded, runOn_load]

theorem loaded_of_save {form : Form} {a : Unit} (h : runOn t (Form.save path form) = (.ok a, u)) :
    loaded u path = some form := by
  rw [loaded_eq, formIn_of_text (text_of_save h)]
  rfl

/-- Something lies at a path that is no form. -/
def Taken (t : Tree) (path : String) : Prop := (t.locate path).isOk = true ∧ loaded t path = none

/-! ## One edit -/

/-- How an edit of a form file goes. -/
inductive Goes (t : Tree) (path : String) (edited : Option Form) : Done Unit → Prop
  /-- It is refused. -/
  | refused (h : edited = none ∨ Taken t path) (f : Failure) (p : Printed) :
      Goes t path edited ⟨.error f, p, t⟩
  /-- The edited form is saved. -/
  | saved {form : Form} {u : Tree} (h : edited = some form)
      (hsave : runOn t (Form.save path form) = (.ok (), u)) (p : Printed) :
      Goes t path edited ⟨.ok (), p, u⟩
  /-- The edited form cannot be saved. -/
  | failed {form : Form} {u : Tree} {e : FormFileError} (h : edited = some form)
      (hsave : runOn t (Form.save path form) = (.error e, u)) (f : Failure) (p : Printed) :
      Goes t path edited ⟨.error f, p, u⟩

theorem goes_save {form : Form} {edited : Option Form} (h : edited = some form) (p : Printed)
    (text : String) : Goes t path edited
      (workOn t p (saveForm path form >>= fun _ => Work.printLine text)) := by
  rw [workOn_bind, saveForm, workOn_attempt]
  cases hsave : runOn t (Form.save path form) with
  | mk r u =>
    cases r with
    | error e => exact .failed h hsave _ p
    | ok a => exact .saved h hsave _

theorem goes_load {edited : Option Form} {p : Printed} {k : Form → Work (StateM Tree) Unit}
    (hnone : loaded t path = none → edited = none)
    (hk : ∀ form, loaded t path = some form → Goes t path edited (workOn t p (k form))) :
    Goes t path edited (workOn t p (loadForm path >>= k)) := by
  rw [workOn_bind, loadForm, workOn_attempt, runOn_load]
  rw [loaded_eq] at hnone hk
  cases hform : formIn t path with
  | error e =>
    rw [hform] at hnone
    exact .refused (.inl (hnone rfl)) _ p
  | ok form =>
    rw [hform] at hk
    exact hk form rfl

theorem goes_create (title : String) (audience : Audience) (force : Bool) (p : Printed) :
    Goes t path (Task.edit newId (loaded t path) (.create path title audience force))
      (workOn t p (createForm path title audience force)) := by
  have hwork : workOn t p (createForm path title audience force) =
      if ((t.locate path).isOk && !force) = true then
        ⟨.error ⟨"'" ++ path ++ "' already exists; pass --force to overwrite", []⟩, p, t⟩
      else workOn t p (saveForm path { Form.new title with audience := audience } >>= fun _ =>
        Work.printLine ("✓ Created '" ++ path ++ "' (" ++ audience.name ++ ")")) := by
    unfold createForm
    generalize (saveForm path { Form.new title with audience := audience } :
      Work (StateM Tree) Unit) = x
    have hexists : ∀ k : Bool → Work (StateM Tree) Unit,
        workOn t p ((Disk.exists? path : StateM Tree Bool) >>= fun b => k b) =
          workOn t p (k (t.locate path).isOk) := fun _ => rfl
    rw [hexists]
    cases ((t.locate path).isOk && !force) <;> rfl
  rw [hwork]
  split
  · rename_i hguard
    rw [Bool.and_eq_true] at hguard
    refine .refused ?_ _ p
    cases hloaded : loaded t path with
    | none => exact .inr ⟨hguard.1, hloaded⟩
    | some form => exact .inl (by simp [Task.edit, hguard.2])
  · rename_i hguard
    refine goes_save ?_ p _
    have hfree : ((loaded t path).isSome && !force) = false := by
      rw [← Bool.not_eq_true]
      intro hheld
      rw [Bool.and_eq_true] at hheld
      refine hguard (Bool.and_eq_true _ _ |>.mpr ⟨?_, hheld.2⟩)
      rw [loaded_eq, formIn] at hheld
      by_contra hlocate
      simp [hlocate, Except.toOption] at hheld
    rw [Task.edit, hfree, if_neg Bool.false_ne_true]

theorem goes_add (typeKey : String) (position : Option Nat) (p : Printed) :
    Goes t path (Task.edit newId (loaded t path) (.add path typeKey position))
      (workOn t p (addField newId path typeKey position)) := by
  refine goes_load (fun hnone => by rw [hnone]; rfl) fun form hform => ?_
  rw [workOn_bind, workOn_expect, hform, Task.edit, Option.bind_some]
  cases form.add newId typeKey position with
  | error e => exact .refused (.inl rfl) _ p
  | ok form => exact goes_save rfl p _

theorem goes_remove (id : String) (p : Printed) :
    Goes t path (Task.edit newId (loaded t path) (.remove path id))
      (workOn t p (removeField path id)) := by
  refine goes_load (fun hnone => by rw [hnone]; rfl) fun form hform => ?_
  rw [workOn_bind, workOn_expect, hform, Task.edit, Option.bind_some]
  cases form.remove ⟨id⟩ with
  | error e => exact .refused (.inl rfl) _ p
  | ok r => exact goes_save rfl p _

theorem goes_set (id name raw : String) (asText : Bool) (p : Printed) :
    Goes t path (Task.edit newId (loaded t path) (.set path id name raw asText))
      (workOn t p (setProperty path id name raw asText)) := by
  refine goes_load (fun hnone => by rw [hnone]; rfl) fun form hform => ?_
  rw [hform, Task.edit, Option.bind_some]
  cases form.field? ⟨id⟩ with
  | none => exact .refused (.inl rfl) _ p
  | some field =>
    rw [Option.bind_some, workOn_bind, workOn_expect]
    cases typedValue field name raw asText with
    | error e => exact .refused (.inl rfl) _ p
    | ok v =>
      show Goes t path (form.set ⟨id⟩ name v).toOption (workOn t p (_ >>= _))
      rw [workOn_bind, workOn_expect]
      cases form.set ⟨id⟩ name v with
      | error e => exact .refused (.inl rfl) _ p
      | ok form => exact goes_save rfl p _

/-- An edit is refused before it touches the disk, or it goes as its save goes. -/
theorem goes_work (h : task.edited? = some path) (home : String) (p : Printed) :
    Goes t path (task.edit newId (loaded t path)) (workOn t p (task.work newId home)) := by
  cases task with
  | create path' title audience force =>
    obtain rfl := Option.some.inj h
    exact goes_create title audience force p
  | add path' typeKey position =>
    obtain rfl := Option.some.inj h
    exact goes_add typeKey position p
  | remove path' id =>
    obtain rfl := Option.some.inj h
    exact goes_remove id p
  | set path' id name raw asText =>
    obtain rfl := Option.some.inj h
    exact goes_set id name raw asText p
  | list path' => cases h
  | palette category json => cases h
  | names audience path' json => cases h
  | render path' field => cases h
  | publish path' o dryRun => cases h
  | compare path' o => cases h

/-! ## Command lines -/

/-- A command line, with the id at hand and the home directory. -/
structure Line where
  newId : FieldId
  home : String
  words : List String

namespace Line

def perform (l : Line) (t : Tree) : Ending × Tree := MarketingForm.perform t l.newId l.home l.words

/-- A command line edits the form at a path, unless it is refused as a whole. -/
def Edits (l : Line) (path : String) : Prop :=
  ∀ r, Request.ofWords l.words = some r → ∃ task, r = .task task ∧ task.edited? = some path

/-- What a command line makes of the form in its file. -/
def edit (l : Line) (before : Option Form) : Option Form :=
  match Request.ofWords l.words with
  | some (.task task) => task.edit l.newId before
  | _ => none

/-- A command line is refused before it touches the disk, or it goes as the save of the edited form
goes. -/
theorem step {l : Line} (h : l.Edits path) (t : Tree) :
    ((l.perform t).1.code ≠ 0 ∧ (l.perform t).2 = t ∧
        (l.edit (loaded t path) = none ∨ Taken t path)) ∨
      ∃ form, l.edit (loaded t path) = some form ∧
        (((l.perform t).1.code = 0 ∧
            runOn t (Form.save path form) = (.ok (), (l.perform t).2)) ∨
          ((l.perform t).1.code ≠ 0 ∧
            ∃ e, runOn t (Form.save path form) = (.error e, (l.perform t).2))) := by
  unfold perform edit
  cases hwords : Request.ofWords l.words with
  | none =>
    have hrefused : MarketingForm.perform t l.newId l.home l.words = (⟨2, ⟨"", usageLine⟩⟩, t) := by
      unfold MarketingForm.perform runWords
      rw [hwords]
      rfl
    rw [hrefused]
    exact .inl ⟨by simp, rfl, .inl rfl⟩
  | some r =>
    obtain ⟨task, rfl, hpath⟩ := h r hwords
    have hgoes : Goes t path (task.edit l.newId (loaded t path))
        (workOn t ⟨"", ""⟩ (task.work l.newId l.home)) := goes_work hpath l.home ⟨"", ""⟩
    rw [perform_task hwords]
    simp only
    generalize workOn t ⟨"", ""⟩ (task.work l.newId l.home) = d at hgoes
    cases hgoes with
    | refused h f p => exact .inl ⟨Nat.one_ne_zero, rfl, h⟩
    | saved h hsave p => exact .inr ⟨_, h, .inl ⟨rfl, hsave⟩⟩
    | failed h hsave f p => exact .inr ⟨_, h, .inr ⟨Nat.one_ne_zero, _, hsave⟩⟩

end Line

/-! ## Sessions -/

/-- The tree that command lines leave. -/
def session (t : Tree) (lines : List Line) : Tree := lines.foldl (fun t l => (l.perform t).2) t

@[simp] theorem session_nil (t : Tree) : session t [] = t := rfl

@[simp] theorem session_cons (t : Tree) (l : Line) (lines : List Line) :
    session t (l :: lines) = session (l.perform t).2 lines := rfl

/-- What every command line keeps holds throughout a session. -/
theorem session_keeps {P : Tree → Prop} {lines : List Line}
    (hstep : ∀ l ∈ lines, ∀ t, P t → P (l.perform t).2) (h : P t) : P (session t lines) := by
  induction lines generalizing t with
  | nil => exact h
  | cons l lines ih =>
    exact ih (fun l' hl' => hstep l' (List.mem_cons_of_mem l hl'))
      (hstep l List.mem_cons_self t h)

/-- What holds of a form file throughout a session. -/
structure Held (t : Tree) (path : String) : Prop where
  root : t.DirAt []
  reached : Reached t path

theorem Held.step {l : Line} (h : Held t path) (hl : l.Edits path) : Held (l.perform t).2 path := by
  have hsaved : ∀ {form : Form} {r : Except FormFileError Unit},
      runOn t (Form.save path form) = (r, (l.perform t).2) → Held (l.perform t).2 path :=
    fun hsave => ⟨keepsDirs_of_save hsave [] h.root, reached_of_save h.root h.reached hsave⟩
  rcases l.step hl t with ⟨-, hsame, -⟩ | ⟨form, -, ⟨-, hsave⟩ | ⟨-, e, hsave⟩⟩
  · rwa [hsame]
  · exact hsaved hsave
  · exact hsaved hsave

theorem Held.session (h : Held t path) {lines : List Line} (hlines : ∀ l ∈ lines, l.Edits path) :
    Held (session t lines) path :=
  session_keeps (P := fun t => Held t path) (fun l hl _ h => h.step (hlines l hl)) h

/-- What holds besides where forms can be saved. -/
structure Kept (t : Tree) (path name : String) : Prop where
  savable : Savable t path name
  free : ¬ Taken t path

theorem not_taken_of_save {form : Form} (h : runOn t (Form.save path form) = (.ok (), u)) :
    ¬ Taken u path := by
  rintro ⟨-, hnone⟩
  rw [loaded_of_save h] at hnone
  cases hnone

theorem Kept.step {l : Line} {name : String} (h : Kept t path name) (hl : l.Edits path) :
    Kept (l.perform t).2 path name ∧
      ((l.perform t).1.code = 0 ↔ (l.edit (loaded t path)).isSome) := by
  rcases l.step hl t with ⟨hcode, hsame, hrefused⟩ | ⟨form, hedit, hends⟩
  · have hnone := hrefused.resolve_right h.free
    rw [hsame, hnone]
    exact ⟨h, iff_of_false hcode (by simp)⟩
  · obtain ⟨u, hsave, hsavable⟩ := h.savable.save form
    rcases hends with ⟨hcode, hsave'⟩ | ⟨-, e, hsave'⟩
    · rw [hsave] at hsave'
      obtain ⟨-, rfl⟩ := Prod.mk.inj hsave'
      exact ⟨⟨hsavable, not_taken_of_save hsave⟩, iff_of_true hcode (by rw [hedit]; rfl)⟩
    · rw [hsave] at hsave'
      cases hsave'

theorem Kept.session {name : String} (h : Kept t path name) {lines : List Line}
    (hlines : ∀ l ∈ lines, l.Edits path) : Kept (session t lines) path name :=
  session_keeps (P := fun t => Kept t path name) (fun l hl _ h => (h.step (hlines l hl)).1) h

theorem kept_of_absent {name : String} (h : Savable t path name)
    (habsent : t.fileAt (place path) = none) : Kept t path name := by
  refine ⟨h, fun ⟨hlocate, _⟩ => ?_⟩
  obtain ⟨p, hp⟩ : ∃ p, t.locate path = .ok p := by
    cases hlocate' : t.locate path with
    | ok p => exact ⟨p, rfl⟩
    | error e =>
      rw [hlocate'] at hlocate
      cases hlocate
  obtain ⟨rfl, hsome⟩ := get?_of_locate hp
  obtain ⟨x, hx⟩ := Option.isSome_iff_exists.1 hsome
  cases x with
  | file c => exact Tree.fileAt_eq_none.1 habsent c hx
  | dir es => exact (h.free _ (by simp)).1 ⟨es, hx⟩

/-- A session of edits of one file. After a command line that ends well, the form that is loaded is the
one that the same edit makes of the form loaded before it. A command line that does not end well leaves
the bytes of the file, or its absence, as they were. If there was no file at first, it is the file at its
place that is read at the path all along, and where forms can be saved the command lines that end well
are those whose edits are not refused in memory. -/
theorem session_refines {lines : List Line} (hlines : ∀ l ∈ lines, l.Edits path) {line : Line}
    (hline : line.Edits path) :
    ((line.perform (session t lines)).1.code = 0 →
        ∃ form, line.edit (loaded (session t lines) path) = some form ∧
          loaded (line.perform (session t lines)).2 path = some form) ∧
      ((line.perform (session t lines)).1.code ≠ 0 →
        (line.perform (session t lines)).2.fileAt (place path) =
          (session t lines).fileAt (place path)) ∧
      (t.DirAt [] → t.fileAt (place path) = none →
        ((session t lines).read path).toOption = (session t lines).fileAt (place path) ∧
          ((line.perform (session t lines)).2.read path).toOption =
            (line.perform (session t lines)).2.fileAt (place path) ∧
          ∀ name, Savable t path name →
            ((line.perform (session t lines)).1.code = 0 ↔
              (line.edit (loaded (session t lines) path)).isSome)) := by
  have hstep := line.step hline (session t lines)
  refine ⟨fun hcode => ?_, fun hcode => ?_, fun hroot habsent => ⟨?_, ?_, fun name hsavable => ?_⟩⟩
  · rcases hstep with ⟨hne, -⟩ | ⟨form, hedit, ⟨-, hsave⟩ | ⟨hne, -⟩⟩
    · exact absurd hcode hne
    · exact ⟨form, hedit, loaded_of_save hsave⟩
    · exact absurd hcode hne
  · rcases hstep with ⟨-, hsame, -⟩ | ⟨form, -, ⟨hzero, -⟩ | ⟨-, e, hsave⟩⟩
    · rw [hsame]
    · exact absurd hzero hcode
    · exact (kept_of_save hsave).2
  all_goals
    have hheld : Held t path := ⟨hroot, fun c hc => by rw [habsent] at hc; cases hc⟩
    have hbefore := hheld.session hlines
  · exact hbefore.reached.read_eq hbefore.root
  · exact (hbefore.step hline).reached.read_eq (hbefore.step hline).root
  · exact (((kept_of_absent hsavable habsent).session hlines).step hline).2

/-- The command lines that create a form and add a field to it. -/
def createLine : Line := ⟨⟨""⟩, "", ["new", "form.yaml", "--title", "Event"]⟩

def addLine : Line := ⟨⟨"f1"⟩, "", ["add", "form.yaml", "divider"]⟩

theorem ofWords_createLine : Request.ofWords createLine.words =
    some (.task (.create "form.yaml" "Event" .contact false)) := by
  decide +kernel

theorem ofWords_addLine : Request.ofWords addLine.words =
    some (.task (.add "form.yaml" "divider" none)) := by
  decide +kernel

theorem edits_createLine : createLine.Edits "form.yaml" := by
  intro r hr
  rw [ofWords_createLine] at hr
  exact ⟨_, (Option.some.inj hr).symm, rfl⟩

theorem edits_addLine : addLine.Edits "form.yaml" := by
  intro r hr
  rw [ofWords_addLine] at hr
  exact ⟨_, (Option.some.inj hr).symm, rfl⟩

theorem loaded_empty : loaded Tree.empty "form.yaml" = none := by
  have hlocate : (Tree.empty.locate "form.yaml").isOk = false := by decide +kernel
  rw [loaded_eq, formIn, hlocate]
  rfl

theorem session_refines_createLine_addLine :
    (∀ l ∈ [createLine], l.Edits "form.yaml") ∧ addLine.Edits "form.yaml" ∧
      (addLine.perform (session Tree.empty [createLine])).1.code = 0 ∧
      loaded (addLine.perform (session Tree.empty [createLine])).2 "form.yaml" =
        some ⟨"Event", .contact, [Field.new Kind.divider.definition ⟨"f1"⟩]⟩ := by
  have hlines : ∀ l ∈ [createLine], l.Edits "form.yaml" := by
    intro l hl
    rw [List.mem_singleton.1 hl]
    exact edits_createLine
  have hroot : Tree.empty.DirAt [] := ⟨[], rfl⟩
  have habsent : Tree.empty.fileAt (place "form.yaml") = none := by decide +kernel
  obtain ⟨hcreated, -, hends⟩ :=
    @session_refines Tree.empty "form.yaml" [] nofun createLine edits_createLine
  obtain ⟨hadded, -, hends'⟩ := session_refines (t := Tree.empty) hlines edits_addLine
  have hedit : createLine.edit (loaded Tree.empty "form.yaml") = some ⟨"Event", .contact, []⟩ := by
    rw [loaded_empty, Line.edit, ofWords_createLine]
    rfl
  have hcode := ((hends hroot habsent).2.2 "form.yaml" savable_empty).2 (by
    show (createLine.edit (loaded Tree.empty "form.yaml")).isSome = true
    rw [hedit]
    rfl)
  obtain ⟨form, hform, hloaded⟩ := hcreated hcode
  obtain rfl : form = ⟨"Event", .contact, []⟩ := Option.some.inj (hform.symm.trans hedit)
  have hedit' : addLine.edit (loaded (session Tree.empty [createLine]) "form.yaml") =
      some ⟨"Event", .contact, [Field.new Kind.divider.definition ⟨"f1"⟩]⟩ := by
    have hbefore : loaded (session Tree.empty [createLine]) "form.yaml" =
        some ⟨"Event", .contact, []⟩ := hloaded
    rw [hbefore, Line.edit, ofWords_addLine]
    rfl
  have hcode' := ((hends' hroot habsent).2.2 "form.yaml" savable_empty).2 (by rw [hedit']; rfl)
  obtain ⟨form, hform, hloaded⟩ := hadded hcode'
  obtain rfl : form = ⟨"Event", .contact, [Field.new Kind.divider.definition ⟨"f1"⟩]⟩ :=
    Option.some.inj (hform.symm.trans hedit')
  exact ⟨hlines, edits_addLine, hcode', hloaded⟩

end MarketingForm
