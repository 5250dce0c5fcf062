import MarketingForm.Export.Report
import MarketingForm.Proofs.Export.Composition
import MarketingForm.Proofs.Fragment.Outline

/-!
# Outlines of documents

The built-in shell is cut at its three placeholders; what stands around them is fixed. So a document
has the outline of the shell with the outlines of the fragments inside, and no text of the user
takes part in it.
-/

namespace MarketingForm

open Html

/-! ## The fixed text of the shell -/

/-- Whether no opening brace follows another one. -/
def calm : List Char → Bool
  | [] => true
  | c :: r => !(c == '\x7b' && r.head? == some '\x7b') && calm r

theorem unmarked_of_calm {s : List Char} (h : calm s = true) : Unmarked s := by
  induction s with
  | nil => exact unmarked_nil
  | cons c s ih =>
    rw [calm, Bool.and_eq_true] at h
    refine unmarked_cons (placeholderAt_eq_none.2 fun p hp => ?_) (ih h.2)
    rw [p.toList_mark, List.cons_prefix_cons] at hp
    obtain ⟨rfl, t, rfl⟩ := hp
    exact absurd h.1 (by simp)

theorem calm_append_feed {s t : List Char} (hs : calm s = true) (ht : calm t = true) :
    calm (s ++ '\n' :: t) = true := by
  induction s with
  | nil => simpa [calm] using ht
  | cons c s ih =>
    rw [calm, Bool.and_eq_true] at hs
    rw [List.cons_append, calm, ih hs.2, Bool.and_true]
    cases s with
    | nil => simp
    | cons d s => simpa using hs.1

/-- Text around the places of the shell. -/
structure Fixed (s : List Char) : Prop where
  calm : calm s = true
  outline : ∃ ms, outline? s = some ms

/-- Whether a line is fixed text. -/
def isFixed (s : List Char) : Bool := calm s && (outline? s).isSome

theorem fixed_of_isFixed {s : List Char} (h : isFixed s = true) : Fixed s := by
  rw [isFixed, Bool.and_eq_true] at h
  exact ⟨h.1, Option.isSome_iff_exists.1 h.2⟩

theorem isFixed_ofList {l : List Char} (h : isFixed l = true) :
    isFixed (String.ofList l).toList = true := by
  rwa [String.toList_ofList]

theorem Fixed.line {s t : List Char} (hs : Fixed s) (ht : Fixed t) :
    Fixed (s ++ (['\n'] ++ t)) := by
  obtain ⟨ms, hms⟩ := hs.outline
  obtain ⟨ns, hns⟩ := ht.outline
  have hend := outline?_append Child.outline?_feed hns
  exact ⟨calm_append_feed hs.calm ht.calm, _, outline?_append hms hend⟩

/-- Lines as they stand in the shell. -/
def shellText (ls : List String) : List Char := ls.flatMap fun l => l.toList ++ ['\n']

theorem shellText_append (ls ms : List String) :
    shellText (ls ++ ms) = shellText ls ++ shellText ms :=
  List.flatMap_append

theorem shellText_cons (l : String) (ls : List String) :
    shellText (l :: ls) = l.toList ++ (['\n'] ++ shellText ls) := by
  simp [shellText]

theorem toList_builtInShell : builtInShell.toList = shellText builtInShellLines := by
  have hline : ∀ l : String, (l ++ "\n").toList = l.toList ++ ['\n'] := fun l => by simp
  unfold builtInShell shellText
  rw [String.toList_join, List.flatMap_map]
  simp only [hline]

theorem fixed_shellText {ls : List String} (h : ∀ l ∈ ls, isFixed l.toList = true) {t : List Char}
    (ht : Fixed t) : Fixed (shellText ls ++ t) := by
  induction ls with
  | nil => exact ht
  | cons l ls ih =>
    rw [List.forall_mem_cons] at h
    have hline := (fixed_of_isFixed h.1).line (ih h.2)
    rwa [shellText_cons, List.append_assoc, List.append_assoc]

/-! ## The cut of the shell -/

/-- The text before the title. -/
def shellHead : List Char := shellText (builtInShellLines.take 8) ++ "  <title>".toList

/-- The text between the title and the tokens. -/
def shellStyle : List Char :=
  "</title>".toList ++ (['\n'] ++ shellText ((builtInShellLines.drop 9).take 2))

/-- The text between the tokens and the fragments. -/
def shellBody : List Char :=
  "    \x7d".toList ++ (['\n'] ++ shellText ((builtInShellLines.drop 12).take 42))

/-- The text behind the fragments. -/
def shellFoot : List Char :=
  "  </main>".toList ++ (['\n'] ++ shellText (builtInShellLines.drop 55))

theorem fixed_nil : Fixed [] := ⟨rfl, [], rfl⟩

theorem fixed_shellHead : Fixed shellHead := by
  refine fixed_shellText ?_ (fixed_of_isFixed (isFixed_ofList (by decide +kernel)))
  simp only [builtInShellLines, List.take_succ_cons, List.take_zero, List.forall_mem_cons]
  refine ⟨?_, ?_, ?_, ?_, ?_, ?_, ?_, ?_, by simp⟩ <;> exact isFixed_ofList (by decide +kernel)

theorem fixed_shellStyle : Fixed shellStyle := by
  refine (fixed_of_isFixed (isFixed_ofList (by decide +kernel))).line ?_
  rw [← List.append_nil (shellText _)]
  refine fixed_shellText ?_ fixed_nil
  simp only [builtInShellLines, List.drop_succ_cons, List.drop_zero, List.take_succ_cons,
    List.take_zero, List.forall_mem_cons]
  refine ⟨?_, ?_, by simp⟩ <;> exact isFixed_ofList (by decide +kernel)

theorem fixed_shellBody : Fixed shellBody := by
  refine (fixed_of_isFixed (isFixed_ofList (by decide +kernel))).line ?_
  rw [← List.append_nil (shellText _)]
  refine fixed_shellText ?_ fixed_nil
  simp only [builtInShellLines, List.drop_succ_cons, List.drop_zero, List.take_succ_cons,
    List.take_zero, List.forall_mem_cons]
  repeat' apply And.intro
  all_goals first
    | exact isFixed_ofList (by decide +kernel)
    | simp

theorem fixed_shellFoot : Fixed shellFoot := by
  refine (fixed_of_isFixed (isFixed_ofList (by decide +kernel))).line ?_
  rw [← List.append_nil (shellText _)]
  refine fixed_shellText ?_ fixed_nil
  simp only [builtInShellLines, List.drop_succ_cons, List.drop_zero, List.forall_mem_cons]
  refine ⟨?_, ?_, by simp⟩ <;> exact isFixed_ofList (by decide +kernel)

def shellCut : Cut :=
  ⟨[(shellHead, .title), (shellStyle, .tokens), (shellBody, .content)], shellFoot⟩

theorem shellCut_complete : shellCut.Complete := by
  refine ⟨?_, unmarked_of_calm fixed_shellFoot.calm⟩
  simp only [shellCut, List.forall_mem_cons]
  exact ⟨unmarked_of_calm fixed_shellHead.calm, unmarked_of_calm fixed_shellStyle.calm,
    unmarked_of_calm fixed_shellBody.calm, by simp⟩

/-- A list cut at a place. -/
theorem drop_eq_take_append {l : List String} {m n : Nat} {x : String} (h : l[m + n]? = some x) :
    l.drop m = (l.drop m).take n ++ x :: l.drop (m + n + 1) := by
  obtain ⟨hlt, hx⟩ := List.getElem?_eq_some_iff.1 h
  have hdrop := List.drop_eq_getElem_cons hlt
  rw [hx] at hdrop
  rw [← hdrop, ← List.drop_drop, List.take_append_drop]

-- on variables, because `simp` would unfold the literals of the shell
theorem regroup (a t m u b n v c o w d : List Char) :
    (a ++ t) ++ (m ++ ((u ++ b) ++ (n ++ ((v ++ c) ++ (o ++ (w ++ d)))))) =
      a ++ ((t ++ m ++ u) ++ (b ++ ((n ++ v) ++ (c ++ ((o ++ w) ++ d))))) := by
  simp only [List.append_assoc]

theorem shellCut_whole : shellCut.whole = builtInShell.toList := by
  have hlines : builtInShellLines.drop 0 = (builtInShellLines.drop 0).take 8 ++
      "  <title>\x7b\x7bFORM_TITLE\x7d\x7d</title>" :: builtInShellLines.drop 9 :=
    drop_eq_take_append rfl
  have hstyle : builtInShellLines.drop 9 = (builtInShellLines.drop 9).take 2 ++
      "\x7b\x7bDESIGN_TOKENS\x7d\x7d    \x7d" :: builtInShellLines.drop 12 :=
    drop_eq_take_append rfl
  have hbody : builtInShellLines.drop 12 = (builtInShellLines.drop 12).take 42 ++
      "\x7b\x7bFORM_CONTENT\x7d\x7d  </main>" :: builtInShellLines.drop 55 :=
    drop_eq_take_append rfl
  have htitle : "  <title>\x7b\x7bFORM_TITLE\x7d\x7d</title>".toList =
      "  <title>".toList ++ Placeholder.title.mark.toList ++ "</title>".toList := by decide
  have htokens : "\x7b\x7bDESIGN_TOKENS\x7d\x7d    \x7d".toList =
      Placeholder.tokens.mark.toList ++ "    \x7d".toList := by decide
  have hcontent : "\x7b\x7bFORM_CONTENT\x7d\x7d  </main>".toList =
      Placeholder.content.mark.toList ++ "  </main>".toList := by decide
  have htext : shellText builtInShellLines = shellText (builtInShellLines.take 8) ++
      ("  <title>\x7b\x7bFORM_TITLE\x7d\x7d</title>".toList ++ (['\n'] ++
        (shellText ((builtInShellLines.drop 9).take 2) ++
          ("\x7b\x7bDESIGN_TOKENS\x7d\x7d    \x7d".toList ++ (['\n'] ++
            (shellText ((builtInShellLines.drop 12).take 42) ++
              ("\x7b\x7bFORM_CONTENT\x7d\x7d  </main>".toList ++ (['\n'] ++
                shellText (builtInShellLines.drop 55))))))))) := by
    rw [← shellText_cons, ← shellText_append, ← hbody, ← shellText_cons, ← shellText_append,
      ← hstyle, ← shellText_cons, ← shellText_append]
    exact congrArg shellText hlines
  have hwhole : shellCut.whole = shellHead ++ (Placeholder.title.mark.toList ++ (shellStyle ++
      (Placeholder.tokens.mark.toList ++ (shellBody ++
        (Placeholder.content.mark.toList ++ shellFoot))))) := by
    rw [shellCut, Cut.whole_cons, Cut.whole_cons, Cut.whole_cons]
    rfl
  rw [toList_builtInShell, htext, htitle, htokens, hcontent, hwhole]
  exact regroup _ _ _ _ _ _ _ _ _ _ _

/-- A document in the built-in shell. -/
theorem document_builtInShell (title css : String) (fragments : List Markup) :
    (compose builtInShell title css fragments).document.toList =
      shellHead ++ (escape (titleOrDefault title)).toList ++ shellStyle ++ css.toList ++
        shellBody ++ (contentBlock fragments).text.toList ++ shellFoot := by
  rw [compose_of_cut shellCut_complete shellCut_whole, String.toList_ofList,
    ← segments_title title css fragments]
  simp [Cut.filled, Cut.places, shellCut, segments]

/-! ## What fills the places -/

theorem lt_not_mem_css {tokens : Tokens}
    (h : ∀ e ∈ tokens.entries, '<' ∉ e.1.toList ∧ '<' ∉ e.2.toList) : '<' ∉ tokens.css.toList := by
  unfold Tokens.css
  rw [String.toList_join, List.flatMap_map, List.mem_flatMap]
  rintro ⟨e, he, hlt⟩
  obtain ⟨hname, hvalue⟩ := h e he
  simp [declaration, hname, hvalue] at hlt

theorem outline?_escape (s : String) : outline? (escape s).toList = some [] := by
  rw [escape, String.toList_ofList]
  exact outline?_text (lt_not_mem_encode _ _)

/-- The tags of a field's fragment. -/
def Field.outline (f : Field) : List Mark :=
  match f.resolve with
  | .ok r => (r.element f.id).shape.outline
  | .error _ => []

theorem shape_embed_fragments (fields : List Field) (e : Element) :
    ((fields.filterMap fun f => f.render.toOption).foldl Element.embed e).shape =
      e.shape.addInner (fields.flatMap Field.outline) true := by
  induction fields generalizing e with
  | nil => simp [Shape.addInner]
  | cons f fields ih =>
    cases hf : f.resolve with
    | error err =>
      have hrender : f.render.toOption = none := by simp [Field.render, hf, Except.toOption]
      have houtline : f.outline = [] := by simp [Field.outline, hf]
      simp only [List.filterMap_cons, hrender]
      rw [ih, List.flatMap_cons, houtline, List.nil_append]
    | ok r =>
      have hrender : f.render.toOption = some (r.element f.id).render := by
        simp [Field.render, hf, Except.toOption]
      have houtline : f.outline = (r.element f.id).shape.outline := by simp [Field.outline, hf]
      have hread := Element.outline?_render (Fragment.readable_element r f.id)
      simp only [List.filterMap_cons, hrender]
      rw [List.foldl_cons, ih, Element.shape_embed _ hread, List.flatMap_cons, houtline]
      simp [Shape.addInner]

/-- The tags around some fragments. -/
def contentOutline (ms : List Mark) : List Mark :=
  Mark.opening "div" ["data-section", "class", "style"] ::
    Mark.opening "div" ["class", "data-container", "data-container-width", "style"] ::
      (ms ++ [.closing "div", .closing "div"])

theorem outline?_contentBlock (form : Form) :
    outline? (contentBlock form.fragments).text.toList =
      some (contentOutline (form.fields.flatMap Field.outline)) := by
  unfold contentBlock Form.fragments
  rw [Element.outline?_render]
  · have hdiv : isVoidTag "div" = false := by decide
    have hsection : "emptyContainer columns-equal-class wrap-section".isEmpty = false := by decide
    have hcolumn : "columnContainer".isEmpty = false := by decide
    simp [shape_embed_fragments, Shape.outline, Shape.addInner, Shape.addNames, Shape.addNamesIf,
      contentOutline, hdiv, hsection, hcolumn]
  · simp (disch := decide) [shape_embed_fragments]

/-! ## Two forms -/

/-- Two fields of one type whose effective properties are alike. -/
structure Field.Alike (f g : Field) : Prop where
  typeKey : f.typeKey = g.typeKey
  props : ∀ r s, f.resolve = .ok r → g.resolve = .ok s → r.Alike s

theorem Field.Alike.outline_eq {f g : Field} (h : f.Alike g) : f.outline = g.outline := by
  have hresolve := h.props
  unfold Field.resolve at hresolve
  unfold Field.outline Field.resolve
  rw [← h.typeKey] at hresolve ⊢
  cases hd : Definition.lookup? f.typeKey with
  | none => rfl
  | some d =>
    simp only [hd] at hresolve ⊢
    let r : Resolved := ⟨d.kind, f.props.fill d.defaults⟩
    let s : Resolved := ⟨d.kind, g.props.fill d.defaults⟩
    have hkind : r.kind = s.kind := rfl
    have halike : r.Alike s := hresolve r s rfl rfl
    exact congrArg Shape.outline (Fragment.shape_element_congr hkind halike f.id g.id)

/-- A document in the built-in shell has the tags of its fields in a frame that depends on nothing
but the shell. -/
theorem exists_outline_document :
    ∃ before after : List Mark, ∀ (form : Form) (fallback : String) (tokens : Tokens),
      (∀ e ∈ tokens.entries, '<' ∉ e.1.toList ∧ '<' ∉ e.2.toList) →
        outline? (form.build builtInShell tokens fallback).document.toList =
          some (before ++ contentOutline (form.fields.flatMap Field.outline) ++ after) := by
  obtain ⟨ms₀, h₀⟩ := fixed_shellHead.outline
  obtain ⟨ms₁, h₁⟩ := fixed_shellStyle.outline
  obtain ⟨ms₂, h₂⟩ := fixed_shellBody.outline
  obtain ⟨ms₃, h₃⟩ := fixed_shellFoot.outline
  refine ⟨ms₀ ++ ms₁ ++ ms₂, ms₃, fun form fallback tokens ht => ?_⟩
  have htitle := outline?_escape (titleOrDefault (form.effectiveTitle fallback))
  have hcss := outline?_text (lt_not_mem_css ht)
  have hstart := outline?_append (outline?_append h₀ htitle) h₁
  have hbody := outline?_append (outline?_append hstart hcss) h₂
  have hdocument := outline?_append (outline?_append hbody (outline?_contentBlock form)) h₃
  rw [Form.build, document_builtInShell, hdocument, List.append_nil, List.append_nil]

/-- No text of the user changes the tags of a document: two forms whose fields are alike at every
place have documents with the same tags and attribute names. -/
theorem outline_document_eq {f g : Form} {tokens : Tokens}
    (hlength : f.fields.length = g.fields.length)
    (halike : ∀ (i : Nat) (_ : i < f.fields.length) (_ : i < g.fields.length),
      f.fields[i].Alike g.fields[i])
    (ht : ∀ e ∈ tokens.entries, '<' ∉ e.1.toList ∧ '<' ∉ e.2.toList) (fallback fallback' : String) :
    ∃ ms, outline? (f.build builtInShell tokens fallback).document.toList = some ms ∧
      outline? (g.build builtInShell tokens fallback').document.toList = some ms := by
  obtain ⟨before, after, hdocument⟩ := exists_outline_document
  have hfields : f.fields.map Field.outline = g.fields.map Field.outline := by
    apply List.ext_getElem
    · rw [List.length_map, List.length_map, hlength]
    · intro i hf hg
      rw [List.length_map] at hf hg
      rw [List.getElem_map, List.getElem_map, (halike i hf hg).outline_eq]
  refine ⟨_, hdocument f fallback tokens ht, ?_⟩
  rw [hdocument g fallback' tokens ht, List.flatMap_def, List.flatMap_def, hfields]

theorem outline_document_eq_hostile :
    let f : Field := ⟨⟨"a"⟩, "text", .ofList [("label", .text "Name")]⟩
    let g : Field := ⟨⟨"\"><b>"⟩, "text", .ofList [("label", .text "</label><script>'\"")]⟩
    let tokens : Tokens := .ofList [("--gap", "4px")]
    (f.Alike g ∧ ∀ e ∈ tokens.entries, '<' ∉ e.1.toList ∧ '<' ∉ e.2.toList) ∧
    ∃ ms,
      outline? (Form.build ⟨"", default, [f]⟩ builtInShell tokens "x").document.toList = some ms ∧
      outline? (Form.build ⟨"</title><script>", default, [g]⟩ builtInShell tokens
        "<y>").document.toList = some ms := by
  intro f g tokens
  have halike : f.Alike g := by
    refine ⟨rfl, fun r s hr hs => ?_⟩
    cases hr
    cases hs
    refine ⟨by decide, by decide, by decide, ?_, ?_⟩ <;> intro h <;> cases h
  have ht : ∀ e ∈ tokens.entries, '<' ∉ e.1.toList ∧ '<' ∉ e.2.toList := by decide
  refine ⟨⟨halike, ht⟩, outline_document_eq (f := ⟨"", default, [f]⟩)
    (g := ⟨"</title><script>", default, [g]⟩) rfl (fun i hf _ => ?_) ht "x" "<y>"⟩
  obtain rfl : i = 0 := by
    simp only [List.length_cons, List.length_nil] at hf
    omega
  exact halike

end MarketingForm
