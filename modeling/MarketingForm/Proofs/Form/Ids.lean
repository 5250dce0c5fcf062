import Mathlib.Data.List.Induction
import Mathlib.Data.List.Nodup
import Mathlib.Data.List.Perm.Subperm
import MarketingForm.Form.Edit
import MarketingForm.Proofs.Form.FieldId

/-!
# The ids of a form's fields

An edit brings the ids at hand into a form, takes one out or leaves them (`Edit.ids_of_apply`). So ids
that are distinct stay distinct as long as every id at hand is a new one, and no longer
(`nodup_after_iff`). Where they are distinct, every field is reached by its id (`reach`). The ids of
one process are distinct, for its sequence numbers are (`nodup_ids_of_process`).
-/

namespace MarketingForm

/-- The ids of the fields, in page order. -/
def Form.ids (form : Form) : List FieldId := form.fields.map (·.id)

/-! ## Edits -/

/-- An edit of a form in memory; an added field takes the id at hand. -/
inductive Edit where
  | add (newId : FieldId) (key : String) (index? : Option Nat)
  | remove (id : FieldId)
  | set (id : FieldId) (name : String) (v : Value)

namespace Edit

/-- What an edit makes of a form. -/
def apply (form : Form) : Edit → Except EditError Form
  | add newId key index? => form.add newId key index?
  | remove id => (form.remove id).map Prod.snd
  | set id name v => form.set id name v

/-- The form after an edit; a refused edit leaves it as it was. -/
def run (form : Form) (e : Edit) : Form :=
  match e.apply form with
  | .ok form' => form'
  | .error _ => form

/-- The id that an edit has at hand. -/
def newId? : Edit → Option FieldId
  | add newId _ _ => some newId
  | _ => none

/-- If the edit adds a field, its id is a new one. -/
def Fresh (form : Form) (e : Edit) : Prop :=
  ∀ form', e.apply form = .ok form' → ∀ id ∈ e.newId?, id ∉ form.ids

end Edit

/-- The form after some edits. -/
def Form.after (form : Form) (edits : List Edit) : Form := edits.foldl Edit.run form

theorem Definition.exists_of_lookup? {key : String} {d : Definition} (h : lookup? key = some d) :
    ∃ k : Kind, key = k.key ∧ d = k.definition := by
  obtain ⟨k, hk, rfl⟩ := Option.map_eq_some_iff.1 h
  have hkey : (k.key == key) = true := List.find?_some (p := fun k : Kind => k.key == key) hk
  exact ⟨k, (beq_iff_eq.1 hkey).symm, rfl⟩

/-! ## Fields with an id -/

namespace Form

theorem insertAt_eq_insertIdx {α : Type} {x : α} {i : Nat} {xs : List α} (h : i ≤ xs.length) :
    insertAt x i xs = xs.insertIdx i x := by
  induction xs generalizing i with
  | nil =>
    rw [Nat.le_zero.1 h]
    rfl
  | cons y xs ih =>
    cases i with
    | zero => rfl
    | succ i =>
      rw [List.insertIdx_succ_cons, ← ih (Nat.le_of_succ_le_succ h)]
      rfl

variable {form form' : Form} {id newId : FieldId} {f : Field} {fields before after : List Field}

/-- No field has the id, or there is a first one. -/
theorem exists_first (id : FieldId) (fields : List Field) :
    (∀ g ∈ fields, g.id ≠ id) ∨ ∃ before f after, fields = before ++ f :: after ∧ f.id = id ∧
      ∀ g ∈ before, g.id ≠ id := by
  cases hfind : fields.find? (·.id == id) with
  | none => exact .inl (by simpa using List.find?_eq_none.1 hfind)
  | some f =>
    obtain ⟨hf, before, after, hfields, hbefore⟩ := List.find?_eq_some_iff_append.1 hfind
    exact .inr ⟨before, f, after, hfields, by simpa using hf, by simpa using hbefore⟩

theorem takeOut_first (hbefore : ∀ g ∈ before, g.id ≠ id) (hf : f.id = id) :
    takeOut id (before ++ f :: after) = some (f, before ++ after) := by
  induction before with
  | nil => rw [List.nil_append, takeOut, if_pos hf, List.nil_append]
  | cons g before ih =>
    rw [List.cons_append, takeOut, if_neg (hbefore g (by simp)),
      ih fun h hh => hbefore h (by simp [hh])]
    rfl

theorem takeOut_none (h : ∀ g ∈ fields, g.id ≠ id) : takeOut id fields = none := by
  induction fields with
  | nil => rfl
  | cons g fields ih =>
    rw [takeOut, if_neg (h g (by simp)), ih fun g' hg' => h g' (by simp [hg'])]
    rfl

theorem change_first {g : Field → Field} (hbefore : ∀ g ∈ before, g.id ≠ id) (hf : f.id = id) :
    change id g (before ++ f :: after) = some (before ++ g f :: after) := by
  induction before with
  | nil => rw [List.nil_append, change, if_pos hf, List.nil_append]
  | cons h before ih =>
    rw [List.cons_append, change, if_neg (hbefore h (by simp)),
      ih fun h' hh' => hbefore h' (by simp [hh'])]
    rfl

theorem change_none {g : Field → Field} (h : ∀ g ∈ fields, g.id ≠ id) :
    change id g fields = none := by
  induction fields with
  | nil => rfl
  | cons f fields ih =>
    rw [change, if_neg (h f (by simp)), ih fun g' hg' => h g' (by simp [hg'])]
    rfl

/-- A field that is added is a new one of a known kind, at the position asked for or at the end. -/
theorem exists_of_add {key : String} {index? : Option Nat} (h : form.add newId key index? = .ok form') :
    ∃ (k : Kind) (i : Nat), key = k.key ∧ index?.getD form.fields.length = i ∧ i ≤ form.fields.length ∧
      form' = { form with fields := form.fields.insertIdx i (Field.new k.definition newId) } := by
  unfold add at h
  cases hlookup : Definition.lookup? key with
  | none =>
    rw [hlookup] at h
    cases h
  | some d =>
    obtain ⟨k, hk, rfl⟩ := Definition.exists_of_lookup? hlookup
    rw [hlookup] at h
    cases index? with
    | none =>
      cases h
      exact ⟨k, form.fields.length, hk, rfl, Nat.le_refl _, by rw [List.insertIdx_length_self]⟩
    | some i =>
      simp only at h
      split at h
      · rename_i hi
        cases h
        exact ⟨k, i, hk, rfl, hi, by rw [insertAt_eq_insertIdx hi]⟩
      · cases h

/-- A field that is removed is the first one with the id. -/
theorem exists_of_remove (h : form.remove id = .ok (f, form')) : ∃ before after,
    form.fields = before ++ f :: after ∧ f.id = id ∧ (∀ g ∈ before, g.id ≠ id) ∧
      form' = { form with fields := before ++ after } := by
  unfold remove at h
  rcases exists_first id form.fields with hnone | ⟨before, g, after, hfields, hg, hbefore⟩
  · rw [takeOut_none hnone] at h
    cases h
  · rw [hfields, takeOut_first hbefore hg] at h
    cases h
    exact ⟨before, after, hfields, hg, hbefore, rfl⟩

/-- A property that is set is one of the first field with the id. -/
theorem exists_of_set {name : String} {v : Value} (h : form.set id name v = .ok form') :
    ∃ before f after, form.fields = before ++ f :: after ∧ f.id = id ∧ (∀ g ∈ before, g.id ≠ id) ∧
      form' = { form with
        fields := before ++ { f with props := f.props.insert name v } :: after } := by
  unfold set at h
  rcases exists_first id form.fields with hnone | ⟨before, f, after, hfields, hf, hbefore⟩
  · rw [change_none hnone] at h
    cases h
  · rw [hfields, change_first hbefore hf] at h
    cases h
    exact ⟨before, f, after, hfields, hf, hbefore, rfl⟩

theorem ids_add {key : String} {index? : Option Nat} (h : form.add newId key index? = .ok form') :
    form'.ids.Perm (newId :: form.ids) := by
  obtain ⟨k, i, -, -, hi, rfl⟩ := exists_of_add h
  exact (List.perm_insertIdx _ _ hi).map _

theorem ids_remove (h : form.remove id = .ok (f, form')) : form'.ids.Sublist form.ids := by
  obtain ⟨before, after, hfields, -, -, rfl⟩ := exists_of_remove h
  rw [ids, ids, hfields]
  exact List.Sublist.map _ ((List.sublist_cons_self f after).append_left before)

theorem ids_set {name : String} {v : Value} (h : form.set id name v = .ok form') :
    form'.ids = form.ids := by
  obtain ⟨before, f, after, hfields, -, -, rfl⟩ := exists_of_set h
  simp [ids, hfields]

/-- Where ids are distinct, the field with an id is the only one, so it is found, removed and changed
wherever it stands. -/
theorem reach (hids : form.ids.Nodup) (hfields : form.fields = before ++ f :: after) :
    form.field? f.id = some f ∧
      form.remove f.id = .ok (f, { form with fields := before ++ after }) ∧
      ∀ name v, form.set f.id name v = .ok { form with
        fields := before ++ { f with props := f.props.insert name v } :: after } := by
  have hbefore : ∀ g ∈ before, g.id ≠ f.id := by
    rw [ids, hfields, List.map_append, List.map_cons] at hids
    intro g hg heq
    exact (List.nodup_append.1 hids).2.2 g.id (List.mem_map_of_mem hg) f.id (by simp) heq
  refine ⟨?_, ?_, fun name v => ?_⟩
  · rw [field?, List.find?_eq_some_iff_append]
    exact ⟨by simp, before, after, hfields, by simpa using hbefore⟩
  · rw [remove, hfields, takeOut_first hbefore rfl]
  · rw [set, hfields, change_first hbefore rfl]

end Form

/-! ## Runs of edits -/

theorem Edit.exists_of_apply_remove {id : FieldId} {form form' : Form}
    (h : (remove id).apply form = .ok form') : ∃ f, form.remove id = .ok (f, form') := by
  rw [apply] at h
  cases hremove : form.remove id with
  | error err =>
    rw [hremove] at h
    cases h
  | ok r =>
    rw [hremove] at h
    cases h
    exact ⟨r.1, rfl⟩

/-- What an edit does to the ids: it brings the one at hand, takes some out, or leaves them. -/
theorem Edit.ids_of_apply {e : Edit} {form form' : Form} (h : e.apply form = .ok form') :
    (∃ id, e.newId? = some id ∧ form'.ids.Perm (id :: form.ids)) ∨
      e.newId? = none ∧ form'.ids.Sublist form.ids := by
  cases e with
  | add newId key index? => exact .inl ⟨newId, rfl, Form.ids_add h⟩
  | remove id =>
    obtain ⟨f, hremove⟩ := exists_of_apply_remove h
    exact .inr ⟨rfl, Form.ids_remove hremove⟩
  | set id name v =>
    rw [show form'.ids = form.ids from Form.ids_set h]
    exact .inr ⟨rfl, List.Sublist.refl _⟩

/-- An edit that brings an id into a form leaves distinct ids exactly if the id is a new one. -/
theorem nodup_of_perm_cons_iff {ids ids' : List FieldId} {id : FieldId} (hids : ids.Nodup)
    (h : ids'.Perm (id :: ids)) : ids'.Nodup ↔ id ∉ ids := by
  rw [h.nodup_iff, List.nodup_cons, and_iff_left hids]

theorem Edit.nodup_run_iff {e : Edit} {form : Form} (hids : form.ids.Nodup) :
    (e.run form).ids.Nodup ↔ e.Fresh form := by
  unfold run Fresh
  cases happly : e.apply form with
  | error e => exact iff_of_true hids nofun
  | ok form' =>
    simp only [Except.ok.injEq, forall_eq']
    rcases ids_of_apply happly with ⟨id, hid, hperm⟩ | ⟨hid, hsub⟩
    · rw [nodup_of_perm_cons_iff hids hperm, hid]
      simp
    · rw [hid]
      exact iff_of_true (hsub.nodup hids) (by simp)

/-- What every step keeps on a condition holds all the way exactly if the condition does. -/
theorem forall_prefix_foldl_iff {σ α : Type} {f : σ → α → σ} {P : σ → Prop} {F : σ → α → Prop}
    {xs : List α} {s : σ} (hstep : ∀ s, ∀ x ∈ xs, P s → (P (f s x) ↔ F s x)) (h : P s) :
    (∀ ys, ys <+: xs → P (ys.foldl f s)) ↔ ∀ ys x, ys ++ [x] <+: xs → F (ys.foldl f s) x := by
  have hconcat : ∀ ys x, ys ++ [x] <+: xs → P (ys.foldl f s) →
      (P ((ys ++ [x]).foldl f s) ↔ F (ys.foldl f s) x) := by
    intro ys x hys hP
    rw [List.foldl_concat]
    exact hstep _ x (hys.subset (by simp)) hP
  constructor
  · intro hall ys x hys
    exact (hconcat ys x hys (hall ys ((List.prefix_append ys [x]).trans hys))).1 (hall _ hys)
  · intro hF ys
    induction ys using List.reverseRecOn with
    | nil => exact fun _ => h
    | append_singleton ys x ih =>
      intro hys
      exact (hconcat ys x hys (ih ((List.prefix_append ys [x]).trans hys))).2 (hF ys x hys)

/-- Distinct ids stay distinct all the way exactly if every id at hand is a new one when its field is
added. -/
theorem nodup_after_iff {form : Form} (hids : form.ids.Nodup) (edits : List Edit) :
    (∀ done, done <+: edits → (form.after done).ids.Nodup) ↔
      ∀ done e, done ++ [e] <+: edits → e.Fresh (form.after done) :=
  forall_prefix_foldl_iff (P := fun form : Form => form.ids.Nodup)
    (F := fun form e => Edit.Fresh form e) (fun _ _ _ hP => Edit.nodup_run_iff hP) hids

/-! ## Ids of one process -/

/-- No ids are in a form but those it had and those that were at hand. -/
theorem subperm_ids_after (form : Form) (edits : List Edit) :
    (form.after edits).ids.Subperm (edits.filterMap Edit.newId? ++ form.ids) := by
  induction edits generalizing form with
  | nil => exact List.Subperm.refl _
  | cons e edits ih =>
    have hstep : (e.run form).ids.Subperm (e.newId?.toList ++ form.ids) := by
      unfold Edit.run
      cases happly : e.apply form with
      | error _ => exact (List.sublist_append_right _ _).subperm
      | ok form' =>
        rcases Edit.ids_of_apply happly with ⟨id, hid, hperm⟩ | ⟨hid, hsub⟩
        · rw [hid]
          exact hperm.subperm
        · rw [hid]
          exact hsub.subperm
    have hrest : (form.after (e :: edits)).ids.Subperm
        (edits.filterMap Edit.newId? ++ (e.run form).ids) := ih (e.run form)
    refine hrest.trans (((List.subperm_append_left _).2 hstep).trans ?_)
    cases he : e.newId? with
    | none =>
      rw [List.filterMap_cons_none he]
      exact List.Subperm.refl _
    | some id =>
      rw [List.filterMap_cons_some he]
      exact List.perm_middle.subperm

theorem nodup_ids_after {form : Form} {edits : List Edit}
    (h : (edits.filterMap Edit.newId? ++ form.ids).Nodup) {done : List Edit} (hdone : done <+: edits) :
    (form.after done).ids.Nodup := by
  have hnewIds : (done.filterMap Edit.newId? ++ form.ids).Sublist
      (edits.filterMap Edit.newId? ++ form.ids) :=
    (hdone.sublist.filterMap Edit.newId?).append_right form.ids
  obtain ⟨ids, hperm, hsub⟩ := subperm_ids_after form done
  exact hperm.nodup_iff.1 (hsub.nodup (hnewIds.nodup h))

/-- A form that one process builds from nothing has distinct ids at any time, whatever the clock
reads. -/
theorem nodup_ids_of_process {form : Form} {edits : List Edit} {mints : List (Int × Nat)}
    (hempty : form.fields = [])
    (hnewIds : edits.filterMap Edit.newId? = mints.map fun m => FieldId.mint m.1 m.2)
    (hdistinct : (mints.map Prod.snd).Nodup) (hsmall : ∀ m ∈ mints, m.2 < 36 ^ 4)
    {done : List Edit} (hdone : done <+: edits) : (form.after done).ids.Nodup := by
  refine nodup_ids_after ?_ hdone
  rw [hnewIds, Form.ids, hempty, List.map_nil, List.append_nil]
  refine List.Nodup.map_on ?_ (List.Nodup.of_map _ hdistinct)
  intro m hm m' hm' heq
  exact List.inj_on_of_nodup_map hdistinct hm hm'
    (FieldId.sequence_inj (hsmall m hm) (hsmall m' hm') heq)

end MarketingForm
