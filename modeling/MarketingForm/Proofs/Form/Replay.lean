import MarketingForm.Proofs.Form.Bag
import MarketingForm.Proofs.Form.Ids
import MarketingForm.Proofs.Form.Resolve

/-!
# Edits replayed

A form that was made by edits is determined by the log of those that were not refused: which fields it has
in which order, of which kinds, with which properties (`Form.Replays`). An edit that succeeds extends the log
(`Form.Replays.step`), so the form after any run is that of its log (`after_new`).
-/

namespace MarketingForm

/-! ## The log -/

theorem filterMap_concat {α β : Type} (f : α → Option β) (xs : List α) (x : α) :
    (xs ++ [x]).filterMap f = xs.filterMap f ++ (f x).toList := by
  rw [List.filterMap_append]
  cases h : f x <;> simp [h]

/-- The edits of a run that are not refused. -/
def Form.history (form : Form) : List Edit → List Edit
  | [] => []
  | e :: edits =>
    match e.apply form with
    | .ok form' => e :: form'.history edits
    | .error _ => form.history edits

namespace Edit

/-- What an edit does to the ids in page order: an added one goes to the position asked for, or to the
end. -/
def place (ids : List FieldId) : Edit → List FieldId
  | add newId _ index? => ids.insertIdx (index?.getD ids.length) newId
  | remove id => ids.erase id
  | set _ _ _ => ids

/-- The ids in page order after the edits of a log. -/
def order (log : List Edit) : List FieldId := log.foldl place []

/-- The assignment that an edit makes to a field. -/
def update? (id : FieldId) : Edit → Option (String × Value)
  | set id' name v => if id' = id then some (name, v) else none
  | _ => none

/-- The assignments that a log makes to a field. -/
def updates (log : List Edit) (id : FieldId) : List (String × Value) := log.filterMap (update? id)

/-- Whether an edit changes a field that is there. -/
def Needs (id : FieldId) (e : Edit) : Prop := e = remove id ∨ (e.update? id).isSome = true

theorem order_concat (log : List Edit) (e : Edit) : order (log ++ [e]) = e.place (order log) :=
  List.foldl_concat ..

theorem mem_newIds {log : List Edit} {id : FieldId} :
    id ∈ log.filterMap newId? ↔ ∃ key index?, add id key index? ∈ log := by
  rw [List.mem_filterMap]
  constructor
  · rintro ⟨e, he, hid⟩
    cases e with
    | add newId key index? =>
      cases hid
      exact ⟨key, index?, he⟩
    | remove | set => cases hid
  · rintro ⟨key, index?, he⟩
    exact ⟨_, he, rfl⟩

theorem updates_concat (log : List Edit) (e : Edit) (id : FieldId) :
    updates (log ++ [e]) id = updates log id ++ (e.update? id).toList :=
  filterMap_concat (update? id) log e

end Edit

/-- A form is what a log makes of an empty one. -/
structure Form.Replays (form : Form) (log : List Edit) : Prop where
  ids : form.ids = Edit.order log
  nodup : form.ids.Nodup
  /-- The fields are those that were added and not removed. -/
  mem : ∀ id, id ∈ form.ids ↔ id ∈ log.filterMap Edit.newId? ∧ .remove id ∉ log
  /-- Only fields that had been added were changed. -/
  added : ∀ e ∈ log, ∀ id, e.Needs id → id ∈ log.filterMap Edit.newId?
  field : ∀ f ∈ form.fields, ∃ (k : Kind) (index? : Option Nat), .add f.id k.key index? ∈ log ∧
    f.typeKey = k.key ∧ f.props = k.definition.defaults.assignAll (Edit.updates log f.id)

namespace Form.Replays

variable {form form' : Form} {log : List Edit} {id newId : FieldId}

theorem new (title : String) : (Form.new title).Replays [] where
  ids := rfl
  nodup := List.nodup_nil
  mem id := by simp [Form.ids, Form.new]
  added e he := by cases he
  field f hf := by cases hf

/-- An id that has not been at hand has not been changed. -/
theorem updates_of_fresh (h : form.Replays log) (hnew : newId ∉ log.filterMap Edit.newId?) :
    Edit.updates log newId = [] := by
  refine List.filterMap_eq_nil_iff.2 fun e he => ?_
  rw [← Option.not_isSome_iff_eq_none]
  exact fun hupdate => hnew (h.added e he newId (.inr hupdate))

theorem added_concat (h : form.Replays log) {e : Edit}
    (he : ∀ id, e.Needs id → id ∈ log.filterMap Edit.newId?) :
    ∀ e' ∈ log ++ [e], ∀ id, e'.Needs id → id ∈ (log ++ [e]).filterMap Edit.newId? := by
  intro e' he' id hneeds
  rw [filterMap_concat]
  refine List.mem_append_left _ ?_
  rcases List.mem_append.1 he' with hmem | hlast
  · exact h.added e' hmem id hneeds
  · exact he id (List.mem_singleton.1 hlast ▸ hneeds)

/-- A field that an edit assigns nothing to is what it was. -/
theorem field_concat (h : form.Replays log) {f : Field} (hf : f ∈ form.fields) {e : Edit}
    (he : e.update? f.id = none) : ∃ (k : Kind) (index? : Option Nat),
      .add f.id k.key index? ∈ log ++ [e] ∧ f.typeKey = k.key ∧
        f.props = k.definition.defaults.assignAll (Edit.updates (log ++ [e]) f.id) := by
  obtain ⟨k, index?, hadd, hkey, hprops⟩ := h.field f hf
  refine ⟨k, index?, List.mem_append_left _ hadd, hkey, ?_⟩
  rw [Edit.updates_concat, he, Option.toList_none, List.append_nil, hprops]

theorem add (h : form.Replays log) {key : String} {index? : Option Nat}
    (hadd : form.add newId key index? = .ok form') (hnew : newId ∉ log.filterMap Edit.newId?) :
    form'.Replays (log ++ [.add newId key index?]) := by
  obtain ⟨k, i, rfl, hindex, hi, rfl⟩ := exists_of_add hadd
  have hids : Form.ids { form with fields := form.fields.insertIdx i (Field.new k.definition newId) } =
      form.ids.insertIdx i newId := List.map_insertIdx ..
  have hlength : form.ids.length = form.fields.length := List.length_map ..
  refine ⟨?_, ?_, fun id => ?_, h.added_concat ?_, fun f hf => ?_⟩
  · rw [hids, Edit.order_concat, Edit.place, ← h.ids, hlength, hindex]
  · rw [hids, (List.perm_insertIdx _ _ (hlength ▸ hi)).nodup_iff, List.nodup_cons]
    exact ⟨fun hmem => hnew ((h.mem newId).1 hmem).1, h.nodup⟩
  · have hremoved : .remove newId ∉ log := fun hmem => hnew (h.added _ hmem newId (.inl rfl))
    rw [hids, List.mem_insertIdx (hlength ▸ hi), h.mem id, filterMap_concat]
    simp only [Edit.newId?, Option.toList_some, List.mem_append, List.mem_singleton, reduceCtorEq,
      or_false]
    constructor
    · rintro (rfl | ⟨hold, hkept⟩)
      · exact ⟨.inr rfl, hremoved⟩
      · exact ⟨.inl hold, hkept⟩
    · rintro ⟨hold | rfl, hkept⟩
      · exact .inr ⟨hold, hkept⟩
      · exact .inl rfl
  · rintro id (hremove | hupdate)
    · cases hremove
    · cases hupdate
  · rcases (List.mem_insertIdx hi).1 hf with rfl | hold
    · refine ⟨k, index?, by simp [Field.new], ?_, ?_⟩
      · rw [Field.new, Definition.key, Kind.kind_definition]
      · have hupdates : Edit.updates log (Field.new k.definition newId).id = [] := h.updates_of_fresh hnew
        rw [Edit.updates_concat, hupdates]
        rfl
    · exact h.field_concat hold rfl

theorem remove (h : form.Replays log) {f : Field} (hremove : form.remove id = .ok (f, form')) :
    form'.Replays (log ++ [.remove id]) := by
  obtain ⟨before, after, hfields, rfl, hbefore, rfl⟩ := exists_of_remove hremove
  have hids : form.ids = before.map (·.id) ++ f.id :: after.map (·.id) := by
    rw [Form.ids, hfields, List.map_append, List.map_cons]
  have herase : Form.ids { form with fields := before ++ after } = form.ids.erase f.id := by
    have hnone : f.id ∉ before.map (·.id) := by
      simpa using hbefore
    rw [hids, List.erase_append_right _ hnone, List.erase_cons_head, Form.ids, List.map_append]
  have hfield : f.id ∈ form.ids := by simp [hids]
  refine ⟨?_, ?_, fun id => ?_, h.added_concat ?_, fun g hg => ?_⟩
  · rw [herase, Edit.order_concat, Edit.place, ← h.ids]
  · rw [herase]
    exact h.nodup.erase _
  · rw [herase, h.nodup.mem_erase_iff, h.mem id, filterMap_concat]
    simp only [Edit.newId?, Option.toList_none, List.append_nil, List.mem_append, List.mem_singleton,
      Edit.remove.injEq, not_or]
    tauto
  · rintro id (hsame | hupdate)
    · cases hsame
      exact ((h.mem _).1 hfield).1
    · cases hupdate
  · refine h.field_concat ?_ rfl
    rw [hfields]
    rcases List.mem_append.1 hg with hg | hg
    · exact List.mem_append_left _ hg
    · exact List.mem_append_right _ (List.mem_cons_of_mem _ hg)

theorem set (h : form.Replays log) {name : String} {v : Value} (hset : form.set id name v = .ok form') :
    form'.Replays (log ++ [.set id name v]) := by
  have hids : form'.ids = form.ids := ids_set hset
  obtain ⟨before, f, after, hfields, rfl, -, rfl⟩ := exists_of_set hset
  have hother : f.id ∉ (before ++ after).map (·.id) := by
    have hnodup := h.nodup
    rw [Form.ids, hfields, List.map_append, List.map_cons, List.nodup_middle, ← List.map_append] at hnodup
    exact (List.nodup_cons.1 hnodup).1
  have hmem : f ∈ form.fields := by simp [hfields]
  have hupdate : (Edit.set f.id name v).update? f.id = some (name, v) := if_pos rfl
  refine ⟨?_, ?_, fun id => ?_, h.added_concat ?_, fun g hg => ?_⟩
  · rw [hids, Edit.order_concat, Edit.place, h.ids]
  · rw [hids]
    exact h.nodup
  · rw [hids, h.mem id, filterMap_concat]
    simp [Edit.newId?]
  · rintro id (hremove | hsome)
    · cases hremove
    · rw [Edit.update?] at hsome
      split at hsome
      · rename_i heq
        exact heq ▸ ((h.mem f.id).1 (List.mem_map_of_mem hmem)).1
      · cases hsome
  · -- only the field with the id is another one than before
    have hsplit : g = { f with props := f.props.insert name v } ∨ g ∈ before ++ after := by
      simp only [List.mem_append, List.mem_cons] at hg ⊢
      tauto
    rcases hsplit with rfl | hg
    · obtain ⟨k, index?, hadd, hkey, hprops⟩ := h.field f hmem
      refine ⟨k, index?, List.mem_append_left _ hadd, hkey, ?_⟩
      simp only
      rw [Edit.updates_concat, hupdate, Option.toList_some, Bag.assignAll_concat, hprops]
    · have hne : f.id ≠ g.id := fun heq => hother (heq ▸ List.mem_map_of_mem hg)
      refine h.field_concat ?_ (if_neg hne)
      rw [hfields]
      simp only [List.mem_append, List.mem_cons] at hg ⊢
      tauto

/-- An edit that is not refused extends the log. -/
theorem step (h : form.Replays log) {e : Edit} (happly : e.apply form = .ok form')
    (hnew : ((log ++ [e]).filterMap Edit.newId?).Nodup) : form'.Replays (log ++ [e]) := by
  rw [filterMap_concat] at hnew
  cases e with
  | add newId key index? =>
    refine h.add happly fun hmem => ?_
    exact (List.nodup_append.1 hnew).2.2 _ hmem _ (List.mem_singleton.2 rfl) rfl
  | remove id =>
    obtain ⟨f, hremove⟩ := Edit.exists_of_apply_remove happly
    exact h.remove hremove
  | set id name v => exact h.set happly

/-- A run extends the log by what it is not refused. -/
theorem after (h : form.Replays log) {edits : List Edit}
    (hnew : ((log ++ form.history edits).filterMap Edit.newId?).Nodup) :
    (form.after edits).Replays (log ++ form.history edits) := by
  induction edits generalizing form log with
  | nil => simpa [Form.history, Form.after] using h
  | cons e edits ih =>
    have hafter : form.after (e :: edits) = (e.run form).after edits := rfl
    rw [hafter, Edit.run]
    rw [Form.history] at hnew ⊢
    cases happly : e.apply form with
    | error err =>
      rw [happly] at hnew
      exact ih h hnew
    | ok form' =>
      rw [happly] at hnew
      simp only at hnew ⊢
      rw [List.append_cons] at hnew ⊢
      refine ih (h.step happly ?_) hnew
      rw [List.filterMap_append] at hnew
      exact hnew.of_append_left

end Form.Replays

/-! ## Runs from a new form -/

/-- Edits change nothing but the fields. -/
theorem Edit.header_of_apply {e : Edit} {form form' : Form} (h : e.apply form = .ok form') :
    form' = { form with fields := form'.fields } := by
  cases e with
  | add newId key index? =>
    obtain ⟨k, i, -, -, -, rfl⟩ := Form.exists_of_add h
    rfl
  | remove id =>
    obtain ⟨f, hremove⟩ := exists_of_apply_remove h
    obtain ⟨before, after, -, -, -, rfl⟩ := Form.exists_of_remove hremove
    rfl
  | set id name v =>
    obtain ⟨before, f, after, -, -, -, rfl⟩ := Form.exists_of_set h
    rfl

theorem Form.header_after (form : Form) (edits : List Edit) :
    form.after edits = { form with fields := (form.after edits).fields } := by
  induction edits generalizing form with
  | nil => rfl
  | cons e edits ih =>
    have hafter : form.after (e :: edits) = (e.run form).after edits := rfl
    have hrun : e.run form = { form with fields := (e.run form).fields } := by
      unfold Edit.run
      cases happly : e.apply form with
      | error err => rfl
      | ok form' => exact Edit.header_of_apply happly
    rw [hafter, ih, hrun]

/-- For every run of edits from a new form in which no id is added twice: a refused edit leaves the form as
it was. The fields are those that were added and not removed, each at the position that it was given when it
was added. A field has the kind that it was added with; its properties are those that its kind declares, in
order, and behind them the others in the order in which they were set first, and each has the value that was
set last, or else the default. -/
theorem after_new {title : String} {edits log : List Edit} {form : Form}
    (hlog : (Form.new title).history edits = log) (hform : (Form.new title).after edits = form)
    (hnew : (log.filterMap Edit.newId?).Nodup) :
    (∀ done e err, done ++ [e] <+: edits → e.apply ((Form.new title).after done) = .error err →
      (Form.new title).after (done ++ [e]) = (Form.new title).after done) ∧
    form.title = title ∧ form.audience = default ∧
    (∀ id, id ∈ form.ids ↔ (∃ key index?, .add id key index? ∈ log) ∧ .remove id ∉ log) ∧
    form.ids.Nodup ∧ form.ids = Edit.order log ∧
    ∀ f ∈ form.fields, ∃ (k : Kind) (index? : Option Nat),
      .add f.id k.key index? ∈ log ∧ f.typeKey = k.key ∧
      f.props.names = k.declared ++
        ((Edit.updates log f.id).map Prod.fst).eraseDups.filter (· ∉ k.declared) ∧
      ∀ name, f.props.get? name =
        ((Edit.updates log f.id).reverse.lookup name).or (k.definition.defaults.get? name) := by
  subst hlog hform
  have hreplays : ((Form.new title).after edits).Replays ((Form.new title).history edits) :=
    (Form.Replays.new title).after hnew
  have hheader := Form.header_after (Form.new title) edits
  refine ⟨fun done e err _ herr => ?_, ?_, ?_, fun id => ?_, hreplays.nodup, hreplays.ids, fun f hf => ?_⟩
  · have hdone : done.foldl Edit.run (Form.new title) = (Form.new title).after done := rfl
    rw [Form.after, List.foldl_concat, Edit.run, hdone, herr]
  · rw [hheader]
    rfl
  · rw [hheader]
    rfl
  · rw [hreplays.mem id, Edit.mem_newIds]
  · obtain ⟨k, index?, hadd, hkey, hprops⟩ := hreplays.field f hf
    refine ⟨k, index?, hadd, hkey, ?_, fun name => ?_⟩
    · rw [hprops, Bag.names_assignAll]
      rfl
    · rw [hprops, Bag.get?_assignAll]

/-- A run with refused edits, in which positions shift and properties are set again. -/
def busyRun : List Edit := [
  .add ⟨"a"⟩ "divider" none, .add ⟨"x"⟩ "nothing" none, .add ⟨"b"⟩ "submit" (some 0),
  .add ⟨"x"⟩ "submit" (some 3), .set ⟨"a"⟩ "note" (.text "1"), .add ⟨"c"⟩ "divider" (some 1),
  .set ⟨"a"⟩ "color" (.text "red"), .set ⟨"x"⟩ "color" (.text "red"), .remove ⟨"b"⟩, .remove ⟨"b"⟩,
  .set ⟨"a"⟩ "extra" (.flag true), .set ⟨"a"⟩ "note" (.integer 2), .set ⟨"c"⟩ "color" (.text "blue")]

/-- The edits of the run that are not refused. -/
def busyLog : List Edit := [
  .add ⟨"a"⟩ "divider" none, .add ⟨"b"⟩ "submit" (some 0), .set ⟨"a"⟩ "note" (.text "1"),
  .add ⟨"c"⟩ "divider" (some 1), .set ⟨"a"⟩ "color" (.text "red"), .remove ⟨"b"⟩,
  .set ⟨"a"⟩ "extra" (.flag true), .set ⟨"a"⟩ "note" (.integer 2), .set ⟨"c"⟩ "color" (.text "blue")]

theorem after_new_busyRun : (Form.new "F").history busyRun = busyLog ∧
    (busyLog.filterMap Edit.newId?).Nodup ∧
    ∃ form, (Form.new "F").after busyRun = form ∧ form.ids = [⟨"c"⟩, ⟨"a"⟩] ∧
      ∀ f ∈ form.fields, f.id = ⟨"a"⟩ → f.typeKey = "divider" ∧
        f.props.names = ["color", "thickness", "note", "extra"] ∧
        f.props.get? "color" = some (.text "red") ∧ f.props.get? "thickness" = some (.integer 2) ∧
        f.props.get? "note" = some (.integer 2) := by
  have hlog : (Form.new "F").history busyRun = busyLog := rfl
  have hnew : (busyLog.filterMap Edit.newId?).Nodup := by decide
  obtain ⟨-, -, -, -, -, hids, hfields⟩ := after_new hlog rfl hnew
  refine ⟨hlog, hnew, _, rfl, hids.trans (by decide), fun f hf hid => ?_⟩
  obtain ⟨k, index?, hadd, hkey, hnames, hvalues⟩ := hfields f hf
  have hk : k = .divider := by
    rw [hid] at hadd
    have hdivider : k.key = "divider" ∧ index? = none := by simpa [busyLog] using hadd
    exact Kind.key_injective hdivider.1
  rw [hid, hk] at hnames hvalues
  rw [hnames, hvalues, hvalues, hvalues, hkey, hk]
  decide

end MarketingForm
