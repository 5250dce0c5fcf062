import MarketingForm.Proofs.Fragment.Tree

/-!
# The element of a text block

A text block shows its content in one element, which the user may name (`read?_textBlock`). A name that
no element could have gives a paragraph, and so do six of the elements that HTML knows to have no content.
The other such elements, and those whose content HTML does not read as escaped text, are taken as they
are (`mem_unguardedTags`).
-/

namespace MarketingForm

open Html

namespace Fragment

/-- The elements that cannot have content in HTML. -/
def contentlessTags : List String :=
  ["area", "base", "br", "col", "embed", "hr", "img", "input", "link", "meta", "source", "track", "wbr"]

/-- The elements whose content HTML does not read as escaped text. -/
def rawTags : List String :=
  ["script", "style", "xmp", "iframe", "noembed", "noframes", "plaintext"]

/-- The element shows what it holds as text. -/
def ShowsText (tag : String) : Prop := tag ∉ contentlessTags ∧ tag ∉ rawTags

/-- The elements that do not show text and may yet be named. -/
def unguardedTags : List String :=
  ["area", "base", "col", "embed", "source", "track", "wbr", "script", "style", "xmp", "iframe",
    "noembed", "noframes", "plaintext"]

theorem tag_textBody (tag : String) :
    (textBody tag).tag =
      if isTagName (Text.asciiLower tag) = true ∧ Text.asciiLower tag ∉ voidTags then
        Text.asciiLower tag
      else "p" := by
  have hguard : (isTagName (Text.asciiLower tag) && !isVoidTag (Text.asciiLower tag)) = true ↔
      isTagName (Text.asciiLower tag) = true ∧ Text.asciiLower tag ∉ voidTags := by
    simp [isVoidTag]
  unfold textBody Element.named?
  by_cases h : isTagName (Text.asciiLower tag) = true ∧ Text.asciiLower tag ∉ voidTags
  · simp only [if_pos h, if_pos (hguard.2 h)]
    rfl
  · simp only [if_neg h, if_neg fun h' => h (hguard.1 h')]
    rfl

/-- The unguarded names are plain element names of elements that do not show text, and there are no
others. -/
theorem mem_unguardedTags {tag : String} :
    tag ∈ unguardedTags ↔
      tag ∈ contentlessTags ++ rawTags ∧ isTagName tag = true ∧ tag ∉ voidTags := by
  have hall : ∀ t ∈ contentlessTags ++ rawTags, isTagName t = true ∧ t ∉ voidTags → t ∈ unguardedTags := by
    decide
  have hunguarded : ∀ t ∈ unguardedTags,
      t ∈ contentlessTags ++ rawTags ∧ isTagName t = true ∧ t ∉ voidTags := by
    decide
  exact ⟨hunguarded tag, fun h => hall tag h.1 h.2⟩

/-- The element of a text block shows text unless an unguarded name was chosen for it. -/
theorem showsText_textBody (tag : String) :
    ShowsText (textBody tag).tag ↔ Text.asciiLower tag ∉ unguardedTags := by
  rw [tag_textBody, mem_unguardedTags]
  generalize Text.asciiLower tag = name
  split
  · rename_i h
    simp only [ShowsText, List.mem_append, h, not_false_eq_true, and_self, and_true, not_or]
  · rename_i h
    exact iff_of_true (by unfold ShowsText; decide) fun hname => h hname.2

theorem tree_textBlock {r : Resolved} (h : r.kind = .textBlock) :
    (textBlock r).tree = .element "div"
      [⟨"data-editorblocktype", some "Text"⟩,
        ⟨"style", some ("margin: 10px; text-align: " ++ r.text "align" ++ ";")⟩]
      [.element (textBody (r.text "tag")).tag [] (Node.ofText (r.text "content").toList)] := by
  obtain ⟨name, hbody, -⟩ := textBody_eq_new (r.text "tag")
  have hclass : (definition r).cssClass = "" := by
    rw [definition, h]
    rfl
  have htype : (definition r).blockType = "Text" := by
    rw [definition, h]
    rfl
  rw [textBlock, hbody, hclass, htype, Element.tree_child rfl, Element.tree_text rfl]
  rfl

end Fragment

/-- A text block reads as its content in the element that its tag gives. -/
theorem read?_textBlock {f : Field} {r : Resolved} (hr : f.resolve = .ok r) (hk : r.kind = .textBlock) :
    ∃ m, f.render = .ok m ∧ read? m.text.toList = some (.element "div"
      [⟨"data-editorblocktype", some "Text"⟩,
        ⟨"style", some ("margin: 10px; text-align: " ++ r.text "align" ++ ";")⟩]
      [.element (Fragment.textBody (r.text "tag")).tag [] (Node.ofText (r.text "content").toList)]) := by
  have hadds := Element.adds_render (Fragment.frame_ok_textBlock r)
  rw [Fragment.tree_textBlock hk] at hadds
  refine ⟨_, ?_, hadds.read rfl⟩
  rw [Field.render, hr]
  simp only [Resolved.element, hk]

/-- A text block, whatever its properties are, reads as one element with its content as text and nothing
else. The element has the tag that was chosen, in lower case, or it is a paragraph; it shows text unless
the chosen tag is an unguarded one. -/
theorem textBlock_body (id : FieldId) (props : Properties) :
    ∃ r m tag, (Field.mk id Kind.textBlock.key props).resolve = .ok r ∧
      (Field.mk id Kind.textBlock.key props).render = .ok m ∧
      read? m.text.toList = some (.element "div"
        [⟨"data-editorblocktype", some "Text"⟩,
          ⟨"style", some ("margin: 10px; text-align: " ++ r.text "align" ++ ";")⟩]
        [.element tag [] (Node.ofText (r.text "content").toList)]) ∧
      (tag = if isTagName (Text.asciiLower (r.text "tag")) = true ∧
          Text.asciiLower (r.text "tag") ∉ voidTags then Text.asciiLower (r.text "tag") else "p") ∧
      (Fragment.ShowsText tag ↔ Text.asciiLower (r.text "tag") ∉ Fragment.unguardedTags) := by
  obtain ⟨m, hrender, hread⟩ :=
    read?_textBlock (f := ⟨id, Kind.textBlock.key, props⟩) (r := ⟨.textBlock, _⟩) rfl rfl
  exact ⟨_, m, _, rfl, hrender, hread, Fragment.tag_textBody _, Fragment.showsText_textBody _⟩

/-- A text block in an element without content, and one in an element with a program for content. -/
theorem textBlock_body_unguarded :
    (∃ m as, (Field.mk ⟨"x"⟩ "textBlock"
        (.ofList [("tag", .text "area"), ("content", .text "Hi")])).render = .ok m ∧
      read? m.text.toList = some (.element "div" as [.element "area" [] [.text "Hi"]]) ∧
      "area" ∈ Fragment.contentlessTags) ∧
    ∃ m as, (Field.mk ⟨"x"⟩ "textBlock"
        (.ofList [("tag", .text "Script"), ("content", .text "a<b")])).render = .ok m ∧
      read? m.text.toList = some (.element "div" as [.element "script" [] [.text "a<b"]]) ∧
      "script" ∈ Fragment.rawTags := by
  constructor
  · obtain ⟨m, hrender, hread⟩ := read?_textBlock (f := ⟨⟨"x"⟩, "textBlock",
      .ofList [("tag", .text "area"), ("content", .text "Hi")]⟩) (r := ⟨.textBlock, _⟩) rfl rfl
    exact ⟨m, _, hrender, hread, by decide⟩
  · obtain ⟨m, hrender, hread⟩ := read?_textBlock (f := ⟨⟨"x"⟩, "textBlock",
      .ofList [("tag", .text "Script"), ("content", .text "a<b")]⟩) (r := ⟨.textBlock, _⟩) rfl rfl
    exact ⟨m, _, hrender, hread, by decide⟩

end MarketingForm
