import MarketingForm.Proofs.Html.Node

/-!
# Rendered elements read back

A `Draft` is an element tree together with how each subtree is attached: as a child, or as markup
that has been rendered before. (Children attached all at once are children attached one by one,
`Element.childList_eq_foldl`.) Rendering a draft and reading the result gives its tree, up to
adjacent texts, which have become one, and empty texts, which are gone (`Node.normal`).
-/

namespace MarketingForm.Html

namespace Node

/-- A text before some nodes, joined to a text that they start with. -/
def prependText (s : String) : List Node → List Node
  | .text t :: r => .text (s ++ t) :: r
  | ns => if s = "" then ns else .text s :: ns

/-- Joins adjacent texts and drops empty ones. -/
def joinTexts : List Node → List Node
  | [] => []
  | .text s :: r => prependText s (joinTexts r)
  | .element tag as ns :: r => .element tag as ns :: joinTexts r

mutual

/-- Joins adjacent texts and drops empty ones at every depth. -/
def normal : Node → Node
  | element tag as ns => .element tag as (joinTexts (normalAll ns))
  | text s => .text s

def normalAll : List Node → List Node
  | [] => []
  | n :: r => n.normal :: normalAll r

end

theorem joinTexts_of_elements {ns : List Node} (h : ∀ n ∈ ns, n.isElement = true) :
    joinTexts ns = ns := by
  induction ns with
  | nil => rfl
  | cons n r ih =>
    have hr := ih fun m hm => h m (List.mem_cons_of_mem n hm)
    cases n with
    | element => rw [joinTexts, hr]
    | text => exact absurd (h _ List.mem_cons_self) (by simp [isElement])

theorem prependText_ofText (s : String) (t : List Char) :
    prependText s (ofText t) = ofText (s.toList ++ t) := by
  unfold ofText
  by_cases ht : t = []
  · subst ht
    by_cases hs : s = ""
    · simp [prependText, hs]
    · simp [prependText, hs]
  · simp [prependText, ht, String.ofList_append]

end Node

/-- An element tree and how its subtrees are attached. -/
inductive Draft where
  /-- An element; a rendered one is attached as finished markup. -/
  | element (rendered : Bool) (tag : String) (attributes : List Attribute) (children : List Draft)
  | text (s : String)
  /-- The fixed markup `&nbsp;`. -/
  | space

namespace Draft

def isInline : Draft → Bool
  | element .. => false
  | text _ | space => true

mutual

/-- The child that attaches a draft. -/
def toChild : Draft → Child
  | element rendered tag as ds =>
    if rendered then .embedded (Element.render ⟨tag, as, toChildren ds⟩)
    else .element tag as (toChildren ds)
  | text s => .text s
  | space => .literal "&nbsp;"

def toChildren : List Draft → List Child
  | [] => []
  | d :: r => d.toChild :: toChildren r

end

mutual

/-- The tree of a draft. -/
def node : Draft → Node
  | element _ tag as ds => .element tag as (nodes ds)
  | text s => .text s
  | space => .text "\u00a0"

def nodes : List Draft → List Node
  | [] => []
  | d :: r => d.node :: nodes r

end

mutual

/-- Every tag is a plain element name, every attribute has a name, void elements have no children,
and no element has both texts and elements as children. -/
def wellFormed : Draft → Bool
  | element _ tag as ds =>
    isTagName tag && as.all (fun a => isAttributeName a.name) && (!isVoidTag tag || ds.isEmpty) &&
      (ds.all isInline || ds.all fun d => !d.isInline) && allWellFormed ds
  | text _ | space => true

def allWellFormed : List Draft → Bool
  | [] => true
  | d :: r => d.wellFormed && allWellFormed r

end

/-! ## Building a draft -/

/-- The builder call that adds an attribute. -/
def withAttribute (e : Element) (a : Attribute) : Element :=
  match a.value with
  | some v => e.attr a.name v
  | none => e.flag a.name

mutual

/-- The builder call that attaches a draft to an element. -/
def attach (e : Element) : Draft → Element
  | element rendered tag as ds =>
    let c := attachAll (as.foldl withAttribute (Element.new tag)) ds
    if rendered then e.embed c.render else e.child c
  | text s => e.text s
  | space => e.literal "&nbsp;"

def attachAll (e : Element) : List Draft → Element
  | [] => e
  | d :: r => attachAll (attach e d) r

end

/-- The element that the builder makes of a tag, attributes and children. -/
def build (tag : String) (attributes : List Attribute) (children : List Draft) : Element :=
  attachAll (attributes.foldl withAttribute (Element.new tag)) children

theorem foldl_withAttribute (as : List Attribute) (e : Element) :
    as.foldl withAttribute e = { e with attributes := e.attributes ++ as } := by
  induction as generalizing e with
  | nil => simp
  | cons a as ih =>
    obtain ⟨name, value⟩ := a
    rw [List.foldl_cons, ih]
    cases value <;> simp [withAttribute, Element.attr, Element.flag]

mutual

theorem attach_eq (e : Element) : ∀ d : Draft, attach e d = e.append d.toChild
  | element rendered tag as ds => by
    rw [attach, toChild, attachAll_eq _ ds, foldl_withAttribute]
    cases rendered <;> simp [Element.new, Element.embed, Element.child, Element.toChild]
  | text _ | space => rfl

theorem attachAll_eq (e : Element) : ∀ ds : List Draft,
    attachAll e ds = { e with children := e.children ++ toChildren ds }
  | [] => by simp [attachAll, toChildren]
  | d :: r => by
    rw [attachAll, attach_eq e d, attachAll_eq _ r, toChildren]
    simp [Element.append]

end

theorem build_eq (tag : String) (as : List Attribute) (ds : List Draft) :
    build tag as ds = ⟨tag, as, toChildren ds⟩ := by
  rw [build, attachAll_eq, foldl_withAttribute]
  simp [Element.new]

/-! ## Texts -/

/-- The text that an inline draft shows. -/
def shown : Draft → List Char
  | element .. => []
  | text s => s.toList
  | space => ['\u00a0']

theorem decode_writeInline_append {d : Draft} (h : d.isInline = true) (r : List Char) :
    decode (d.toChild.writeInline ++ r) = d.shown ++ decode r := by
  cases d with
  | element => cases h
  | text s => exact decode_encode_append .content s.toList r
  | space => rfl

theorem lt_not_mem_writeInline {d : Draft} (h : d.isInline = true) :
    '<' ∉ d.toChild.writeInline := by
  cases d with
  | element => cases h
  | text s => exact lt_not_mem_encode .content s.toList
  | space => decide

theorem decode_inlines {ds : List Draft} (h : ds.all isInline = true) :
    decode ((toChildren ds).flatMap Child.writeInline) = ds.flatMap shown := by
  induction ds with
  | nil => rfl
  | cons d r ih =>
    simp only [List.all_cons, Bool.and_eq_true] at h
    rw [toChildren, List.flatMap_cons, decode_writeInline_append h.1, ih h.2, List.flatMap_cons]

theorem lt_not_mem_inlines {ds : List Draft} (h : ds.all isInline = true) :
    '<' ∉ (toChildren ds).flatMap Child.writeInline := by
  induction ds with
  | nil => simp [toChildren]
  | cons d r ih =>
    simp only [List.all_cons, Bool.and_eq_true] at h
    rw [toChildren, List.flatMap_cons, List.mem_append, not_or]
    exact ⟨lt_not_mem_writeInline h.1, ih h.2⟩

theorem joinTexts_inlines {ds : List Draft} (h : ds.all isInline = true) :
    Node.joinTexts (Node.normalAll (nodes ds)) = Node.ofText (ds.flatMap shown) := by
  induction ds with
  | nil => rfl
  | cons d r ih =>
    simp only [List.all_cons, Bool.and_eq_true] at h
    have hd : d.node.normal = .text (String.ofList d.shown) := by
      cases d with
      | element => cases h.1
      | text s => simp [node, Node.normal, shown]
      | space => rfl
    rw [nodes, Node.normalAll, hd, Node.joinTexts, ih h.2, Node.prependText_ofText]
    simp

/-! ## Elements -/

theorem isInline_toChild (d : Draft) : d.toChild.isInline = d.isInline := by
  cases d with
  | element rendered => cases rendered <;> rfl
  | text | space => rfl

theorem all_isInline_toChildren (ds : List Draft) :
    (toChildren ds).all Child.isInline = ds.all isInline := by
  induction ds with
  | nil => rfl
  | cons d r ih => simp [toChildren, ih, isInline_toChild]

theorem all_layout_indentation (n : Nat) : (indentation n).all isLayoutChar = true := by
  simp [indentation, isLayoutChar]

theorem normalAll_isElement {ds : List Draft} (h : (ds.all fun d => !d.isInline) = true) :
    ∀ n ∈ Node.normalAll (nodes ds), n.isElement = true := by
  induction ds with
  | nil => simp [nodes, Node.normalAll]
  | cons d r ih =>
    simp only [List.all_cons, Bool.and_eq_true] at h
    simp only [nodes, Node.normalAll, List.forall_mem_cons]
    refine ⟨?_, ih h.2⟩
    cases d with
    | element => rfl
    | text | space => cases h.1

/-- An element on a line of a level. -/
theorem adds_line (n : Nat) {s : List Char} {ns : List Node} (h : Adds s ns) :
    Adds (indentation n ++ s ++ ['\n']) ns := by
  have hindent : Adds (indentation n) [] := Adds.layout (all_layout_indentation n)
  have hfeed : Adds ['\n'] [] := Adds.layout rfl
  have hline := (hindent.append h).append hfeed
  rwa [List.nil_append, List.append_nil] at hline

/-- Lines of elements between the tags of an element of a level. -/
theorem adds_lines (n : Nat) {s : List Char} {ns : List Node} (h : Adds s ns) :
    Adds (['\n'] ++ s ++ indentation n) ns := by
  have hindent : Adds (indentation n) [] := Adds.layout (all_layout_indentation n)
  have hfeed : Adds ['\n'] [] := Adds.layout rfl
  have hlines := (hfeed.append h).append hindent
  rwa [List.nil_append, List.append_nil] at hlines

/-- An element on lines of its own, its children being read already. -/
theorem adds_write_element {rendered : Bool} {tag : String} {as : List Attribute} {ds : List Draft}
    (h : (element rendered tag as ds).wellFormed = true)
    (hds : (ds.all fun d => !d.isInline) = true →
      ∀ n, Adds (Child.writeAll n (toChildren ds)) (Node.normalAll (nodes ds))) (n : Nat) :
    Adds (Child.write n (.element tag as (toChildren ds)))
      [(Node.element tag as (nodes ds)).normal] := by
  simp only [wellFormed, Bool.and_eq_true, Bool.or_eq_true, Bool.not_eq_true', List.all_eq_true,
    List.isEmpty_iff] at h
  obtain ⟨⟨⟨⟨ht, has⟩, hvoid⟩, hmix⟩, -⟩ := h
  rw [Child.write, Node.normal, all_isInline_toChildren]
  by_cases hv : isVoidTag tag = true
  · obtain rfl : ds = [] := hvoid.resolve_left (by simp [hv])
    rw [if_pos hv, List.append_nil]
    exact adds_line n (Adds.void ht has hv)
  rw [if_neg hv]
  rw [Bool.not_eq_true] at hv
  by_cases hin : ds.all isInline = true
  · rw [if_pos hin, joinTexts_inlines hin, ← decode_inlines hin]
    have htext := Adds.text ht has hv (lt_not_mem_inlines hin)
    simpa only [List.append_assoc] using adds_line n htext
  · rw [if_neg hin]
    have hel : (ds.all fun d => !d.isInline) = true := by
      rcases hmix with hmix | hmix
      · exact absurd (List.all_eq_true.2 hmix) hin
      · exact List.all_eq_true.2 fun d hd => by simpa using hmix d hd
    have helements := normalAll_isElement hel
    rw [Node.joinTexts_of_elements helements]
    obtain ⟨m, hm⟩ : ∃ m, m ∈ Node.normalAll (nodes ds) := by
      cases ds with
      | nil => exact absurd rfl hin
      | cons d r => exact ⟨_, List.mem_cons_self⟩
    have hbody := adds_lines n (hds hel (n + 1))
    have helement := Adds.elements ht has hv hm (helements m hm) hbody
    simpa only [List.append_assoc, List.cons_append, List.nil_append] using adds_line n helement

theorem writeEmbedded_render (e : Element) :
    Child.writeEmbedded e.render = Child.write 0 e.toChild := by
  have hlast : (Child.write 0 e.toChild).getLast? = some '\n' := by
    simp [Element.toChild, Child.write]
  simp [Child.writeEmbedded, Element.render, hlast]

mutual

/-- A draft that is no text adds its tree, whatever the level and however it is attached. -/
theorem adds_write : ∀ d : Draft, d.wellFormed = true → d.isInline = false →
    ∀ n, Adds (d.toChild.write n) [d.node.normal]
  | element rendered tag as ds, h, _, n => by
    have hds : (ds.all fun d => !d.isInline) = true →
        ∀ k, Adds (Child.writeAll k (toChildren ds)) (Node.normalAll (nodes ds)) := by
      simp only [wellFormed, Bool.and_eq_true] at h
      exact adds_writeAll ds h.2
    cases rendered with
    | false => exact adds_write_element h hds n
    | true =>
      rw [toChild, if_pos rfl, Child.write, writeEmbedded_render]
      exact adds_write_element h hds 0
  | text _, _, h, _ => by cases h
  | space, _, h, _ => by cases h

theorem adds_writeAll : ∀ ds : List Draft, allWellFormed ds = true →
    (ds.all fun d => !d.isInline) = true →
    ∀ n, Adds (Child.writeAll n (toChildren ds)) (Node.normalAll (nodes ds))
  | [], _, _, _ => Adds.layout rfl
  | d :: r, h, hin, n => by
    simp only [allWellFormed, Bool.and_eq_true] at h
    simp only [List.all_cons, Bool.and_eq_true, Bool.not_eq_true'] at hin
    exact (adds_write d h.1 hin.1 n).append (adds_writeAll r h.2 hin.2 n)

end

end Draft

/-- Rendering is undone by reading: the whole of what a built element renders to reads as its tree,
at every depth and however its subtrees were attached. -/
theorem read_render (tag : String) (attributes : List Attribute) (children : List Draft)
    (h : (Draft.element false tag attributes children).wellFormed = true) :
    read? (Draft.build tag attributes children).render.text.toList =
      some (Draft.element false tag attributes children).node.normal := by
  have hadds := Draft.adds_write (.element false tag attributes children) h rfl 0
  have hread := hadds.read rfl
  rw [Draft.build_eq, Element.render, String.toList_ofList]
  exact hread

theorem read_render_mixed :
    (Draft.element false "div" [⟨"data-options", some "[\"Don't\"]"⟩, ⟨"hidden", none⟩]
      [.element true "pre" [⟨"title", some "\"\n>"⟩]
          [.text "a\n<b>", .space, .text "", .text "&amp;"],
        .element false "br" [] []]).wellFormed = true ∧
    read? (Draft.build "div" [⟨"data-options", some "[\"Don't\"]"⟩, ⟨"hidden", none⟩]
      [.element true "pre" [⟨"title", some "\"\n>"⟩]
          [.text "a\n<b>", .space, .text "", .text "&amp;"],
        .element false "br" [] []]).render.text.toList =
      some (.element "div" [⟨"data-options", some "[\"Don't\"]"⟩, ⟨"hidden", none⟩]
        [.element "pre" [⟨"title", some "\"\n>"⟩] [.text "a\n<b>\u00a0&amp;"],
          .element "br" [] []]) :=
  ⟨by decide, read_render _ _ _ (by decide)⟩

end MarketingForm.Html
