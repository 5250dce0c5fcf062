import MarketingForm.Export.Report
import MarketingForm.Proofs.Command.Run
import MarketingForm.Proofs.Export.Composition

/-!
# What an export keeps of the fields

Every field of a known kind gives its markup to the document, in order and unchanged; the fields of
unknown kinds are skipped and reported. The markup of all fields stands in one piece, inside a
section and its column (`contentBlock_text`), and the rest of the document does not depend on the
fields (`exists_frame`). It is also what the command `render` prints (`workOn_renderAll`).
-/

namespace MarketingForm

open Files

/-! ## Fields with and without markup -/

namespace Field

/-- The palette has the kind of the field. -/
def IsKnown (f : Field) : Prop := ∃ k : Kind, k.key = f.typeKey

/-- The markup of a field; nothing for a field of an unknown kind. -/
def markup (f : Field) : List Char :=
  match f.render with
  | .ok m => m.text.toList
  | .error _ => []

theorem isKnown_iff (f : Field) : f.IsKnown ↔ (Kind.ofKey? f.typeKey).isSome = true := by
  constructor
  · rintro ⟨k, hk⟩
    rw [← hk, Kind.ofKey?_key, Option.isSome_some]
  · intro h
    obtain ⟨k, hk⟩ := Option.isSome_iff_exists.1 h
    have hkey := List.find?_some (p := fun k : Kind => k.key == f.typeKey) hk
    exact ⟨k, beq_iff_eq.1 hkey⟩

instance : DecidablePred IsKnown := fun f => decidable_of_iff _ f.isKnown_iff.symm

theorem render_of_isKnown {f : Field} (h : f.IsKnown) : ∃ e : Element, f.render = .ok e.render := by
  obtain ⟨k, hk⟩ := Option.isSome_iff_exists.1 (f.isKnown_iff.1 h)
  unfold render resolve Definition.lookup?
  rw [hk]
  exact ⟨_, rfl⟩

theorem render_of_not_isKnown {f : Field} (h : ¬ f.IsKnown) :
    f.render = .error ⟨f.id, f.typeKey⟩ := by
  rw [isKnown_iff, Option.not_isSome_iff_eq_none] at h
  unfold render resolve Definition.lookup?
  rw [h]
  rfl

theorem render_toOption_isSome (f : Field) : f.render.toOption.isSome = decide f.IsKnown := by
  by_cases h : f.IsKnown
  · obtain ⟨e, he⟩ := render_of_isKnown h
    simp [he, h, Except.toOption]
  · simp [render_of_not_isKnown h, h, Except.toOption]

end Field

namespace Form

theorem fragments_filter (form : Form) :
    fragments { form with fields := form.fields.filter Field.IsKnown } = form.fragments := by
  unfold fragments
  rw [List.filterMap_filter]
  congr 1
  funext f
  by_cases h : f.IsKnown
  · simp [h]
  · simp [h, Field.render_of_not_isKnown h, Except.toOption]

theorem skipped_eq (form : Form) :
    form.skipped =
      (form.fields.filter fun f => ¬ f.IsKnown).map fun f => ⟨f.id, f.typeKey⟩ := by
  unfold skipped
  induction form.fields with
  | nil => rfl
  | cons f fields ih =>
    rw [List.filterMap_cons, List.filter_cons, ih]
    by_cases h : f.IsKnown
    · obtain ⟨e, he⟩ := Field.render_of_isKnown h
      simp [he, h]
    · simp [Field.render_of_not_isKnown h, h]

theorem length_fragments (form : Form) :
    form.fragments.length = (form.fields.filter Field.IsKnown).length := by
  unfold fragments
  rw [List.length_filterMap_eq_countP, List.countP_eq_length_filter]
  congr 2
  funext f
  exact f.render_toOption_isSome

theorem flatMap_fragments (form : Form) :
    (form.fragments.flatMap fun m => m.text.toList) = form.fields.flatMap Field.markup := by
  unfold fragments
  induction form.fields with
  | nil => rfl
  | cons f fields ih =>
    rw [List.filterMap_cons, List.flatMap_cons, ← ih]
    unfold Field.markup
    cases f.render <;> rfl

end Form

/-! ## The section around the fragments -/

/-- The section and its column, up to the first fragment. -/
def sectionStart : List Char :=
  openingTag "div" [⟨"data-section", some "true"⟩,
      ⟨"class", some "emptyContainer columns-equal-class wrap-section"⟩,
      ⟨"style", some "padding: 0px; display: flex;"⟩] ++
    '\n' :: indentation 1 ++
      openingTag "div" [⟨"class", some "columnContainer"⟩, ⟨"data-container", some "true"⟩,
        ⟨"data-container-width", some "100"⟩, ⟨"style", some "width: 600px;"⟩] ++ ['\n']

/-- The section and its column behind the last fragment. -/
def sectionEnd : List Char :=
  indentation 1 ++ closingTag "div" ++ '\n' :: closingTag "div" ++ ['\n']

theorem foldl_embed (ms : List Markup) (e : Element) :
    ms.foldl Element.embed e = { e with children := e.children ++ ms.map Child.embedded } := by
  induction ms generalizing e with
  | nil => simp
  | cons m ms ih => simp [ih, Element.embed, Element.append]

theorem writeAll_embedded (level : Nat) {ms : List Markup}
    (h : ∀ m ∈ ms, m.text.toList.getLast? = some '\n') :
    Child.writeAll level (ms.map Child.embedded) = ms.flatMap fun m => m.text.toList := by
  induction ms with
  | nil => rfl
  | cons m ms ih =>
    have hm := h m List.mem_cons_self
    rw [List.map_cons, Child.writeAll, Child.write, Child.writeEmbedded, if_pos hm,
      ih fun n hn => h n (List.mem_cons_of_mem m hn), List.flatMap_cons]

/-- Fragments that end their lines are copied into the section as they are. -/
theorem contentBlock_text {ms : List Markup} (hne : ms ≠ [])
    (h : ∀ m ∈ ms, m.text.toList.getLast? = some '\n') :
    (contentBlock ms).text.toList =
      sectionStart ++ (ms.flatMap fun m => m.text.toList) ++ sectionEnd := by
  have hdiv : isVoidTag "div" = false := by decide
  have hsection : "emptyContainer columns-equal-class wrap-section".isEmpty = false := by decide
  have hcolumn : "columnContainer".isEmpty = false := by decide
  have hinline : (ms.map Child.embedded).all Child.isInline = false := by
    obtain ⟨m, ms, rfl⟩ := List.exists_cons_of_ne_nil hne
    rfl
  rw [← writeAll_embedded 2 h]
  simp only [contentBlock, foldl_embed, Element.render, Element.new, Element.cls, Element.attrIf,
    Element.attr, Element.child, Element.append, Element.toChild, hsection, hcolumn,
    List.nil_append, List.cons_append, Bool.not_false, if_true, String.toList_ofList, Child.write,
    Child.writeAll, hdiv, hinline, List.all_cons, List.all_nil, Child.isInline, Bool.false_and,
    Bool.false_eq_true, if_false, Nat.zero_add, sectionStart, sectionEnd]
  simp [indentation]

theorem getLast?_render (e : Element) : e.render.text.toList.getLast? = some '\n' := by
  rw [Element.render, String.toList_ofList, Element.toChild, Child.write, List.getLast?_concat]

theorem contentBlock_fragments {form : Form} (h : ∃ f ∈ form.fields, f.IsKnown) :
    (contentBlock form.fragments).text.toList =
      sectionStart ++ form.fields.flatMap Field.markup ++ sectionEnd := by
  rw [← form.flatMap_fragments]
  refine contentBlock_text ?_ fun m hm => ?_
  · obtain ⟨f, hf, hknown⟩ := h
    obtain ⟨e, he⟩ := Field.render_of_isKnown hknown
    refine List.ne_nil_of_mem (a := e.render) (List.mem_filterMap.2 ⟨f, hf, ?_⟩)
    rw [he]
    rfl
  · obtain ⟨f, -, hf⟩ := List.mem_filterMap.1 hm
    by_cases hknown : f.IsKnown
    · obtain ⟨e, he⟩ := Field.render_of_isKnown hknown
      rw [he] at hf
      cases hf
      exact getLast?_render e
    · rw [Field.render_of_not_isKnown hknown] at hf
      cases hf

/-! ## The document around the section -/

/-- Behind the first place of a placeholder its segment counts no more. -/
theorem fillPieces_congr {segment other : Placeholder → List Char} {p : Placeholder}
    (h : ∀ q, q ≠ p → segment q = other q) {seen : List Placeholder} (ps : List Piece)
    (hp : p ∈ seen) : fillPieces segment seen ps = fillPieces other seen ps := by
  induction ps generalizing seen with
  | nil => rfl
  | cons x ps ih =>
    cases x with
    | char c => rw [fillPieces, fillPieces, ih hp]
    | place q =>
      rw [fillPieces, fillPieces, ih hp, ih (List.mem_cons_of_mem q hp)]
      split
      · rfl
      · rename_i hq
        rw [h q fun e => hq (e ▸ hp)]

/-- What stands around the first place of a placeholder does not depend on its segment. -/
theorem exists_fillPieces_eq (p : Placeholder) (segment : Placeholder → List Char)
    (ps : List Piece) {seen : List Placeholder} (hseen : p ∉ seen) (hp : p ∈ places ps) :
    ∃ before after : List Char, ∀ other : Placeholder → List Char,
      (∀ q, q ≠ p → other q = segment q) →
        fillPieces other seen ps = before ++ other p ++ after := by
  induction ps generalizing seen with
  | nil => cases hp
  | cons x ps ih =>
    cases x with
    | char c =>
      obtain ⟨before, after, h⟩ := ih hseen hp
      exact ⟨c :: before, after, fun other ho => by rw [fillPieces, h other ho]; rfl⟩
    | place q =>
      by_cases hqp : q = p
      · subst hqp
        refine ⟨[], fillPieces segment (q :: seen) ps, fun other ho => ?_⟩
        rw [fillPieces, if_neg hseen, fillPieces_congr ho ps List.mem_cons_self, List.nil_append]
      · have hps : p ∈ places ps := by simpa [places, Ne.symm hqp] using hp
        by_cases hq : q ∈ seen
        · obtain ⟨before, after, h⟩ := ih hseen hps
          refine ⟨q.mark.toList ++ before, after, fun other ho => ?_⟩
          rw [fillPieces, if_pos hq, h other ho]
          simp
        · have hseen' : p ∉ q :: seen := by simp [Ne.symm hqp, hseen]
          obtain ⟨before, after, h⟩ := ih hseen' hps
          refine ⟨segment q ++ before, after, fun other ho => ?_⟩
          rw [fillPieces, if_neg hq, h other ho, ho q hqp]
          simp

theorem mem_places_pieces {p : Placeholder} {shell : String} :
    p ∈ places (pieces shell) ↔ p.mark.toList <:+: shell.toList := by
  obtain ⟨c, hwhole, hc⟩ := exists_cut shell.toList
  rw [pieces_of_cut hc hwhole, c.places_pieces, hc.mem_places, hwhole]

/-- The part of a document around the content is the same for all fields. -/
theorem exists_frame (form : Form) {shell : String} (tokens : Tokens) (fallback : String)
    (h : Placeholder.content.mark.toList <:+: shell.toList) :
    ∃ before after : List Char, ∀ fields : List Field,
      (Form.build { form with fields := fields } shell tokens fallback).document.toList =
        before ++ (contentBlock (Form.fragments { form with fields := fields })).text.toList ++
          after := by
  let segment := segments (form.effectiveTitle fallback) tokens.css
  obtain ⟨before, after, hfill⟩ := exists_fillPieces_eq .content (segment [])
    (pieces shell) (List.not_mem_nil) (mem_places_pieces.2 h)
  refine ⟨before, after, fun fields => ?_⟩
  have hother : ∀ q, q ≠ Placeholder.content →
      segment (Form.fragments { form with fields := fields }) q = segment [] q := by
    intro q hq
    cases q with
    | title => rfl
    | tokens => rfl
    | content => exact absurd rfl hq
  have hbuild : (Form.build { form with fields := fields } shell tokens fallback).document =
      (compose shell (form.effectiveTitle fallback) tokens.css
        (Form.fragments { form with fields := fields })).document := rfl
  rw [hbuild, compose_eq, String.toList_ofList]
  exact hfill _ hother

/-! ## The command `render` -/

/-- All fields are printed in order; a field without markup is only warned of. -/
theorem workOn_renderAll (t : Tree) (p : Printed) (form : Form) :
    ∃ err, workOn t p (renderAll form) =
      ⟨.ok (), ⟨p.out ++ String.ofList (form.fields.flatMap Field.markup), err⟩, t⟩ := by
  unfold renderAll
  rw [List.forM_eq_forM]
  induction form.fields generalizing p with
  | nil => exact ⟨p.err, by simp [workOn_pure]⟩
  | cons f fields ih =>
    rw [List.forM_cons, workOn_bind, List.flatMap_cons]
    cases hf : f.render with
    | ok m =>
      have hmarkup : f.markup = m.text.toList := by rw [Field.markup, hf]
      obtain ⟨err, h⟩ := ih ⟨p.out ++ m.text, p.err⟩
      refine ⟨err, ?_⟩
      simp only [workOn_print, h, hmarkup, String.ofList_append, String.ofList_toList,
        String.append_assoc]
    | error u =>
      have hmarkup : f.markup = [] := by rw [Field.markup, hf]
      obtain ⟨err, h⟩ := ih ⟨p.out, p.err ++ "warning: " ++ u.message ++ "\n"⟩
      refine ⟨err, ?_⟩
      simp only [workOn_warn, h, hmarkup, List.nil_append]

theorem perform_render {t : Tree} {form : Form} {path : String} {words : List String}
    (hwords : Request.ofWords words = some (.task (.render path none)))
    (hload : runOn t (Form.load path) = (.ok form, t)) (newId : FieldId) (home : String) :
    ∃ err, perform t newId home words =
      (⟨0, ⟨String.ofList (form.fields.flatMap Field.markup), err⟩⟩, t) := by
  obtain ⟨err, h⟩ := workOn_renderAll t ⟨"", ""⟩ form
  refine ⟨err, ?_⟩
  have hform : workOn t ⟨"", ""⟩ (loadForm path) = ⟨.ok form, ⟨"", ""⟩, t⟩ := by
    rw [loadForm, workOn_attempt, hload]
    rfl
  rw [perform_task hwords]
  simp only [Task.work, renderFields, workOn_bind, hform, h, String.empty_append]
  rfl

/-! ## The export as a whole -/

/-- An export skips the fields of unknown kinds and nothing else. The markup of all other fields
stands in its document as `render` prints it, in one piece inside the section, and what stands
around the markup of a field does not depend on the field. -/
theorem build_fields (form : Form) (shell : String) (tokens : Tokens) (fallback : String) :
    (form.build shell tokens fallback).skipped =
        (form.fields.filter fun f => ¬ f.IsKnown).map (fun f => ⟨f.id, f.typeKey⟩) ∧
      (form.build shell tokens fallback).rendered +
          (form.build shell tokens fallback).skipped.length = form.fields.length ∧
      (form.build shell tokens fallback).document =
          (Form.build { form with fields := form.fields.filter Field.IsKnown } shell tokens
            fallback).document ∧
      (∀ (t : Tree) (path : String) (words : List String) (newId : FieldId) (home : String),
        Request.ofWords words = some (.task (.render path none)) →
        runOn t (Form.load path) = (.ok form, t) →
          ∃ err, perform t newId home words =
            (⟨0, ⟨String.ofList (form.fields.flatMap Field.markup), err⟩⟩, t)) ∧
      (Placeholder.content.mark.toList <:+: shell.toList →
        (∃ before after : List Char, ∀ fields : List Field, (∃ f ∈ fields, f.IsKnown) →
          (Form.build { form with fields := fields } shell tokens fallback).document.toList =
            before ++ (sectionStart ++ fields.flatMap Field.markup ++ sectionEnd) ++ after) ∧
        ∀ fs gs : List Field, ∃ before after : List Char, ∀ f : Field,
          (∃ g ∈ fs ++ f :: gs, g.IsKnown) →
            (Form.build { form with fields := fs ++ f :: gs } shell tokens
              fallback).document.toList = before ++ f.markup ++ after) := by
  have hskipped : (form.build shell tokens fallback).skipped =
      (form.fields.filter fun f => ¬ f.IsKnown).map (fun f => ⟨f.id, f.typeKey⟩) := form.skipped_eq
  refine ⟨hskipped, ?_, ?_, fun t path words newId home hwords hload =>
    perform_render hwords hload newId home, fun hshell => ?_⟩
  · have hrendered : (form.build shell tokens fallback).rendered =
        (form.fields.filter Field.IsKnown).length := form.length_fragments
    have hparts := List.length_eq_countP_add_countP (fun f : Field => decide f.IsKnown)
      (l := form.fields)
    rw [hrendered, hskipped, List.length_map, hparts, List.countP_eq_length_filter,
      List.countP_eq_length_filter]
    simp only [Bool.decide_eq_true, decide_not]
  · unfold Form.build
    rw [form.fragments_filter]
    rfl
  · obtain ⟨before, after, hframe⟩ := exists_frame form tokens fallback hshell
    have hdocument : ∀ fields : List Field, (∃ f ∈ fields, f.IsKnown) →
        (Form.build { form with fields := fields } shell tokens fallback).document.toList =
          before ++ (sectionStart ++ fields.flatMap Field.markup ++ sectionEnd) ++ after := by
      intro fields hknown
      rw [hframe, contentBlock_fragments hknown]
    refine ⟨⟨before, after, hdocument⟩, fun fs gs => ?_⟩
    refine ⟨before ++ sectionStart ++ fs.flatMap Field.markup,
      gs.flatMap Field.markup ++ sectionEnd ++ after, fun f hknown => ?_⟩
    rw [hdocument _ hknown, List.flatMap_append, List.flatMap_cons]
    simp only [List.append_assoc]

end MarketingForm
