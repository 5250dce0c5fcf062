import MarketingForm.Proofs.Command.Session
import MarketingForm.Proofs.Form.Ids

/-!
# Ids in sessions

A command line that ends badly leaves the form of its file as it was, so the ids in a form file go the
way of the ids in a form (`Line.distinct_iff`).
-/

namespace MarketingForm

open Files

variable {t u : Tree} {path : String} {form form' : Form}

/-! ## Forms in files -/

theorem text_congr (h : u.read path = t.read path) : u.text path = t.text path := by
  unfold Tree.text
  rw [h]

theorem loaded_eq_some : loaded t path = some form ↔
    ∃ text, t.text path = .ok text ∧ Form.ofYaml text = .ok form := by
  rw [loaded_eq, toOption_eq_some]
  constructor
  · intro h
    unfold formIn at h
    split at h
    · split at h
      · rename_i text htext
        split at h
        · rename_i form hform
          cases h
          exact ⟨text, htext, hform⟩
        · cases h
      · cases h
    · cases h
  · rintro ⟨text, htext, hform⟩
    rw [formIn, if_pos (locate_of_text htext), htext]
    simp only [hform]

/-- A file that is read is still read after a save that fails. -/
theorem read_of_failed_save {e : FormFileError} {c : ByteArray} (hread : t.read path = .ok c)
    (h : runOn t (Form.save path form) = (.error e, u)) : u.read path = .ok c := by
  have hroot := dirAt_of_read hread
  have hfile := fileAt_of_read hroot hread
  have hreached : Reached t path := by
    intro d hd
    rw [hfile] at hd
    cases hd
    exact hread
  apply reached_of_save hroot hreached h
  rw [(kept_of_save h).2, hfile]

/-- A form that is loaded is still loaded after a save that fails. -/
theorem loaded_of_failed_save {e : FormFileError} (hloaded : loaded t path = some form)
    (h : runOn t (Form.save path form') = (.error e, u)) : loaded u path = some form := by
  obtain ⟨text, htext, hform⟩ := loaded_eq_some.1 hloaded
  obtain ⟨c, hread⟩ := read_of_text htext
  have hread' := (read_of_failed_save hread h).trans hread.symm
  exact loaded_eq_some.2 ⟨text, (text_congr hread').trans htext, hform⟩

/-- A form with distinct ids is loaded from a file. -/
def Distinct (t : Tree) (path : String) : Prop :=
  ∃ form, loaded t path = some form ∧ form.ids.Nodup

theorem distinct_of_loaded (h : loaded t path = some form) :
    Distinct t path ↔ form.ids.Nodup := by
  constructor
  · rintro ⟨form', hform', hids⟩
    obtain rfl := Option.some.inj (h.symm.trans hform')
    exact hids
  · intro hids
    exact ⟨form, h, hids⟩

/-! ## Command lines -/

namespace Line

variable {l : Line}

/-- The command line adds a field. -/
def Adds (l : Line) : Prop :=
  ∃ path typeKey position, Request.ofWords l.words = some (.task (.add path typeKey position))

/-- If the command line adds a field, the id at hand is a new one. -/
def Fresh (l : Line) (t : Tree) (path : String) : Prop :=
  (l.perform t).1.code = 0 → l.Adds → ∀ form, loaded t path = some form → l.newId ∉ form.ids

/-- What an edited form has for ids: one more, or none but those it had. -/
theorem ids_of_edit (h : l.edit (some form) = some form') :
    (l.Adds ∧ form'.ids.Perm (l.newId :: form.ids)) ∨
      (¬ l.Adds ∧ form'.ids.Sublist form.ids) := by
  unfold edit at h
  split at h
  · rename_i task hwords
    have hadds : l.Adds ↔ ∃ path typeKey position, task = .add path typeKey position := by
      unfold Adds
      rw [hwords]
      simp
    rw [hadds]
    cases Task.edited_of_edit h with
    | create path title audience force => exact .inr ⟨by simp, List.nil_sublist _⟩
    | add path typeKey position hform hadd =>
      cases hform
      exact .inl ⟨⟨_, _, _, rfl⟩, Form.ids_add hadd⟩
    | remove path id hform hremove =>
      cases hform
      exact .inr ⟨by simp, Form.ids_remove hremove⟩
    | set path id name raw asText hform hfield hv hset =>
      cases hform
      exact .inr ⟨by simp, by rw [Form.ids_set hset]⟩
  · cases h

/-- A command line leaves distinct ids exactly if the id of a field that it adds is a new one. -/
theorem distinct_iff (hl : l.Edits path) (h : Distinct t path) :
    Distinct (l.perform t).2 path ↔ l.Fresh t path := by
  obtain ⟨form, hform, hids⟩ := h
  rcases l.step hl t with ⟨hcode, hsame, -⟩ | ⟨form', hedit, ⟨hcode, hsave⟩ | ⟨hcode, e, hsave⟩⟩
  · rw [hsame]
    exact iff_of_true ⟨form, hform, hids⟩ fun hzero => absurd hzero hcode
  · rw [distinct_of_loaded (loaded_of_save hsave)]
    rw [hform] at hedit
    unfold Fresh
    rcases ids_of_edit hedit with ⟨hadds, hperm⟩ | ⟨hadds, hsub⟩
    · rw [nodup_of_perm_cons_iff hids hperm]
      simp [hcode, hadds, hform]
    · exact iff_of_true (hsub.nodup hids) fun _ h => absurd h hadds
  · rw [distinct_of_loaded (loaded_of_failed_save hform hsave)]
    exact iff_of_true hids fun hzero => absurd hzero hcode

end Line

theorem distinct_session_iff {lines : List Line} (hlines : ∀ l ∈ lines, l.Edits path)
    (h : Distinct t path) :
    (∀ done, done <+: lines → Distinct (session t done) path) ↔
      ∀ done l, done ++ [l] <+: lines → l.Fresh (session t done) path :=
  forall_prefix_foldl_iff (P := fun t => Distinct t path) (F := fun t l => Line.Fresh l t path)
    (fun _ l hl hP => Line.distinct_iff (hlines l hl) hP) h

/-! ## Both -/

/-- Distinct ids, of a form in memory or in a file, stay distinct all the way exactly if the id of every
field that is added is a new one. They do in a form that one process builds from nothing. Where they are
distinct, every field is found, removed and changed by its id. -/
theorem distinct_ids_iff_fresh :
    (∀ (form : Form) (edits : List Edit), form.ids.Nodup →
      ((∀ done, done <+: edits → (form.after done).ids.Nodup) ↔
        ∀ done e, done ++ [e] <+: edits → e.Fresh (form.after done))) ∧
    (∀ (t : Tree) (path : String) (lines : List Line), Distinct t path →
      (∀ l ∈ lines, l.Edits path) →
      ((∀ done, done <+: lines → Distinct (session t done) path) ↔
        ∀ done l, done ++ [l] <+: lines → l.Fresh (session t done) path)) ∧
    (∀ (form : Form) (edits : List Edit) (mints : List (Int × Nat)), form.fields = [] →
      edits.filterMap Edit.newId? = mints.map (fun m => FieldId.mint m.1 m.2) →
      (mints.map Prod.snd).Nodup → (∀ m ∈ mints, m.2 < 36 ^ 4) →
      ∀ done, done <+: edits → (form.after done).ids.Nodup) ∧
    ∀ (form : Form) (before after : List Field) (f : Field), form.ids.Nodup →
      form.fields = before ++ f :: after →
      form.field? f.id = some f ∧
        form.remove f.id = .ok (f, { form with fields := before ++ after }) ∧
        ∀ name v, form.set f.id name v = .ok { form with
          fields := before ++ { f with props := f.props.insert name v } :: after } :=
  ⟨fun _ edits hids => nodup_after_iff hids edits,
    fun _ _ _ h hlines => distinct_session_iff hlines h,
    fun _ _ _ hempty hnewIds hdistinct hsmall _ hdone =>
      nodup_ids_of_process hempty hnewIds hdistinct hsmall hdone,
    fun _ _ _ _ hids hfields => Form.reach hids hfields⟩

/-- Two fields that one process adds at the same time, and one that is added to a form in a file. -/
theorem distinct_ids_iff_fresh_addLine :
    ((Form.new "F").after [.add (FieldId.mint 0 0) "divider" none,
      .add (FieldId.mint 0 1) "divider" none]).ids.Nodup ∧
    (∃ t, loaded t "form.yaml" = some lookalikes ∧
      Distinct (session t [addLine]) "form.yaml") ∧
    ∃ f, lookalikes.remove ⟨"007"⟩ = .ok (f, { lookalikes with fields := [] }) := by
  obtain ⟨-, hsession, hprocess, hreach⟩ := distinct_ids_iff_fresh
  have hids : lookalikes.ids.Nodup := by decide
  refine ⟨?_, ?_, ?_⟩
  · exact hprocess (Form.new "F") [.add (FieldId.mint 0 0) "divider" none,
      .add (FieldId.mint 0 1) "divider" none] [(0, 0), (0, 1)] rfl rfl (by decide) (by decide) _
      List.prefix_rfl
  · obtain ⟨t, hsave, -⟩ := savable_empty.save lookalikes
    have hloaded := loaded_of_save hsave
    have hlines : ∀ l ∈ [addLine], l.Edits "form.yaml" := by
      intro l hl
      rw [List.mem_singleton.1 hl]
      exact edits_addLine
    refine ⟨t, hloaded, ?_⟩
    refine (hsession t "form.yaml" [addLine] ⟨_, hloaded, hids⟩ hlines).2 ?_ [addLine] List.prefix_rfl
    intro done l hdone
    obtain ⟨rfl, rfl⟩ : done = [] ∧ l = addLine := by
      have hlength := hdone.length_le
      cases done with
      | nil => exact ⟨rfl, by simpa using hdone⟩
      | cons _ _ => simp at hlength
    intro _ _ form hform
    obtain rfl := Option.some.inj (hloaded.symm.trans hform)
    decide
  · exact ⟨_, (hreach lookalikes [] [] _ hids rfl).2.1⟩

/-- An id at hand that a form has already comes there again, and its field cannot be reached. -/
theorem add_minted_again :
    let id := FieldId.mint 1700000000000 0
    let form : Form := ⟨"F", .lead, [Field.new Kind.email.definition id]⟩
    form.ids.Nodup ∧ ∃ form', form.add id "divider" none = .ok form' ∧ ¬ form'.ids.Nodup ∧
      Field.new Kind.divider.definition id ∈ form'.fields ∧
      form'.field? id ≠ some (Field.new Kind.divider.definition id) := by
  refine ⟨List.nodup_singleton _, _, rfl, ?_, by simp, ?_⟩
  · simp [Form.ids, Field.new]
  · simp [Form.field?, Field.new]
    decide

end MarketingForm
