import MarketingForm.Proofs.Html.RoundTrip

/-!
# Trees of elements

An element whose subtrees are all there, none of them finished markup, is written from a draft. So it
reads as a tree (`Element.tree`) wherever it stands in a text of elements (`readAll?_of_adds`). Whether
an element can be written is a matter of its frame (`Element.frame`). The elements of its tree are
the element itself and those below it (`Element.elements_tree`), and so the values that the tree gives an
attribute are its own and those of its children (`Element.values_tree`).
-/

namespace MarketingForm

namespace Html

/-! ## Texts of elements -/

/-- Reads a text as elements; the layout between them is dropped. -/
def readAll? (s : List Char) : Option (List Node) :=
  match run .text s with
  | some (.text, ts) => (build .empty [] ts).map fun ns => ns.filter fun n => !n.isLayout
  | _ => none

theorem Content.Holds.filter_children {c : Content} {ns : List Node} (h : c.Holds ns) :
    (c.children.filter fun n => !n.isLayout) = ns := by
  unfold Content.children
  split
  · rw [List.filter_filter, ← h.all]
    simp
  · exact h.all

theorem readAll?_of_adds {s : List Char} {ns : List Node} (h : Adds s ns) : readAll? s = some ns := by
  obtain ⟨ts, hspell, hbuild⟩ := h
  obtain ⟨d, hd, hin⟩ := hbuild .empty [] .empty
  have hb : Html.build .empty [] ts = some d.children := by
    simpa [Html.build] using hin [] []
  unfold readAll?
  rw [hspell]
  simp only [hb, Option.map_some, hd.filter_children, List.nil_append]

theorem adds_flatMap {α : Type} {xs : List α} {s : α → List Char} {ns : α → List Node}
    (h : ∀ x ∈ xs, Adds (s x) (ns x)) : Adds (xs.flatMap s) (xs.flatMap ns) := by
  induction xs with
  | nil => exact Adds.layout rfl
  | cons x xs ih =>
    rw [List.flatMap_cons, List.flatMap_cons]
    exact (h x List.mem_cons_self).append (ih fun y hy => h y (List.mem_cons_of_mem x hy))

/-! ## The elements of a tree -/

namespace Node

mutual

/-- The elements of a tree, each with its own attributes, in document order. -/
def elements : Node → List (String × List Attribute)
  | element tag as ns => (tag, as) :: elementsAll ns
  | text _ => []

def elementsAll : List Node → List (String × List Attribute)
  | [] => []
  | n :: r => n.elements ++ elementsAll r

end

theorem elementsAll_joinTexts (ns : List Node) : elementsAll (joinTexts ns) = elementsAll ns := by
  induction ns with
  | nil => rfl
  | cons n ns ih =>
    cases n with
    | element tag as ms => rw [joinTexts, elementsAll, elementsAll, ih]
    | text s =>
      have hprepend : elementsAll (prependText s (joinTexts ns)) = elementsAll (joinTexts ns) := by
        unfold prependText
        split
        · rename_i t r hr
          rw [hr]
          rfl
        · split <;> rfl
      rw [joinTexts, hprepend, ih]
      rfl

mutual

theorem elements_normal : ∀ n : Node, n.normal.elements = n.elements
  | element tag as ns => by
    rw [normal, elements, elements, elementsAll_joinTexts, elementsAll_normalAll ns]
  | text _ => rfl

theorem elementsAll_normalAll : ∀ ns : List Node, elementsAll (normalAll ns) = elementsAll ns
  | [] => rfl
  | n :: r => by
    rw [normalAll, elementsAll, elementsAll, elements_normal n, elementsAll_normalAll r]

end

end Node

/-! ## Attribute values -/

/-- The values that attributes give a name. -/
def attributeValues (name : String) (as : List Attribute) : List String :=
  as.filterMap fun a => if a.name = name then a.value else none

namespace Node

mutual

/-- The values that the attributes in a tree give a name, in document order. -/
def values (name : String) : Node → List String
  | element _ as ns => attributeValues name as ++ valuesAll name ns
  | text _ => []

def valuesAll (name : String) : List Node → List String
  | [] => []
  | n :: r => n.values name ++ valuesAll name r

end

theorem valuesAll_eq_flatMap (name : String) (ns : List Node) :
    valuesAll name ns = ns.flatMap (values name) := by
  induction ns with
  | nil => rfl
  | cons n ns ih => rw [valuesAll, List.flatMap_cons, ih]

mutual

/-- The values in a tree are those of its elements. -/
theorem values_eq_elements (name : String) :
    ∀ n : Node, n.values name = n.elements.flatMap fun p => attributeValues name p.2
  | element tag as ns => by
    rw [values, elements, List.flatMap_cons, valuesAll_eq_elementsAll name ns]
  | text _ => rfl

theorem valuesAll_eq_elementsAll (name : String) :
    ∀ ns : List Node, valuesAll name ns = (elementsAll ns).flatMap fun p => attributeValues name p.2
  | [] => rfl
  | n :: r => by
    rw [valuesAll, elementsAll, List.flatMap_append, values_eq_elements name n,
      valuesAll_eq_elementsAll name r]

end

end Node

end Html

open Html

/-! ## Drafts of children -/

namespace Child

mutual

/-- The draft that a child is written from, if none of its parts is finished markup. -/
def draft : Child → Draft
  | element tag as cs => .element false tag as (drafts cs)
  | text s => .text s
  | literal _ | embedded _ => .space

def drafts : List Child → List Draft
  | [] => []
  | c :: r => c.draft :: drafts r

end

mutual

/-- Every tag is a plain element name, every attribute has a name, void elements have no children, no
element has both texts and elements as children, and there is no fixed markup but `&nbsp;` and no finished
markup. -/
def sound : Child → Bool
  | element tag as cs =>
    isTagName tag && as.all (fun a => isAttributeName a.name) && (!isVoidTag tag || cs.isEmpty) &&
      (cs.all isInline || cs.all fun c => !c.isInline) && allSound cs
  | text _ => true
  | literal s => s == "&nbsp;"
  | embedded _ => false

def allSound : List Child → Bool
  | [] => true
  | c :: r => c.sound && allSound r

end

mutual

theorem toChild_draft : ∀ c : Child, c.sound = true → c.draft.toChild = c
  | element tag as cs, h => by
    simp only [sound, Bool.and_eq_true] at h
    rw [draft, Draft.toChild, if_neg Bool.false_ne_true, toChildren_drafts cs h.2]
  | text _, _ => rfl
  | literal s, h => by
    rw [draft, Draft.toChild, show s = "&nbsp;" by simpa [sound] using h]
  | embedded _, h => by cases h

theorem toChildren_drafts : ∀ cs : List Child, allSound cs = true → Draft.toChildren (drafts cs) = cs
  | [], _ => rfl
  | c :: r, h => by
    simp only [allSound, Bool.and_eq_true] at h
    rw [drafts, Draft.toChildren, toChild_draft c h.1, toChildren_drafts r h.2]

end

theorem isInline_draft {c : Child} (h : c.sound = true) : c.draft.isInline = c.isInline := by
  cases c with
  | embedded m => cases h
  | element | text | literal => rfl

theorem all_drafts {p : Draft → Bool} {q : Child → Bool} (hpq : ∀ c, c.sound = true → p c.draft = q c)
    {cs : List Child} (h : allSound cs = true) : (drafts cs).all p = cs.all q := by
  induction cs with
  | nil => rfl
  | cons c cs ih =>
    simp only [allSound, Bool.and_eq_true] at h
    rw [drafts, List.all_cons, List.all_cons, hpq c h.1, ih h.2]

mutual

theorem wellFormed_draft : ∀ c : Child, c.sound = true → c.draft.wellFormed = true
  | element tag as cs, h => by
    have hcs : allSound cs = true := by
      simp only [sound, Bool.and_eq_true] at h
      exact h.2
    have hempty : (drafts cs).isEmpty = cs.isEmpty := by cases cs <;> rfl
    rw [draft, Draft.wellFormed, hempty, all_drafts (fun c hc => isInline_draft hc) hcs,
      all_drafts (q := fun c => !c.isInline) (fun c hc => by rw [isInline_draft hc]) hcs,
      allWellFormed_drafts cs hcs]
    rw [sound, hcs] at h
    exact h
  | text _, _ | literal _, _ => rfl
  | embedded _, h => by cases h

theorem allWellFormed_drafts :
    ∀ cs : List Child, allSound cs = true → Draft.allWellFormed (drafts cs) = true
  | [], _ => rfl
  | c :: r, h => by
    simp only [allSound, Bool.and_eq_true] at h
    rw [drafts, Draft.allWellFormed, wellFormed_draft c h.1, allWellFormed_drafts r h.2]
    rfl

end

theorem allSound_append (cs ds : List Child) :
    allSound (cs ++ ds) = (allSound cs && allSound ds) := by
  induction cs with
  | nil => rfl
  | cons c cs ih => rw [List.cons_append, allSound, allSound, ih, Bool.and_assoc]

end Child

/-! ## Frames of built elements -/

/-- What the soundness of an element depends on. -/
structure Frame where
  tag : String
  /-- Whether all attributes have names. -/
  named : Bool
  /-- Whether there are no children. -/
  bare : Bool
  /-- Whether all children are texts. -/
  inline : Bool
  /-- Whether all children are elements. -/
  block : Bool
  /-- Whether the children are sound. -/
  sound : Bool

namespace Frame

def ok (φ : Frame) : Bool :=
  isTagName φ.tag && φ.named && (!isVoidTag φ.tag || φ.bare) && (φ.inline || φ.block) && φ.sound

/-- The frame with an element as one more child. -/
def addBlock (φ : Frame) (sound : Bool) : Frame :=
  { φ with bare := false, inline := false, sound := φ.sound && sound }

/-- The frame with a text as one more child. -/
def addInline (φ : Frame) : Frame := { φ with bare := false, block := false }

end Frame

namespace Element

def frame (e : Element) : Frame where
  tag := e.tag
  named := e.attributes.all fun a => isAttributeName a.name
  bare := e.children.isEmpty
  inline := e.children.all Child.isInline
  block := e.children.all fun c => !c.isInline
  sound := Child.allSound e.children

theorem sound_toChild (e : Element) : e.toChild.sound = e.frame.ok := rfl

/-- The tree that an element reads as. -/
def tree (e : Element) : Node := e.toChild.draft.node.normal

theorem adds_write {e : Element} (h : e.frame.ok = true) (level : Nat) :
    Adds (e.toChild.write level) [e.tree] := by
  have hsound : e.toChild.sound = true := h
  have hadds := Draft.adds_write e.toChild.draft (Child.wellFormed_draft _ hsound) rfl level
  rwa [Child.toChild_draft _ hsound] at hadds

theorem adds_render {e : Element} (h : e.frame.ok = true) : Adds e.render.text.toList [e.tree] := by
  rw [render, String.toList_ofList]
  exact adds_write h 0

/-- The tree of an element with one element in it. -/
theorem tree_child {e : Element} (h : e.children = []) (c : Element) :
    (e.child c).tree = .element e.tag e.attributes [c.tree] := by
  rw [tree, child, append, h]
  rfl

/-- The tree of an element with one text in it. -/
theorem tree_text {e : Element} (h : e.children = []) (s : String) :
    (e.text s).tree = .element e.tag e.attributes (Node.ofText s.toList) := by
  have hjoin : Node.joinTexts [.text s] = Node.ofText s.toList := by
    have hprepend := Node.prependText_ofText s []
    rwa [List.append_nil] at hprepend
  rw [← hjoin, tree, text, append, h]
  rfl

/-! ### Frames -/

variable (e c : Element) (cond : Bool) {name : String} (value : String)

@[simp] theorem frame_new (tag : String) :
    (new tag).frame = ⟨tag, true, true, true, true, true⟩ := rfl

@[simp] theorem frame_attr (h : isAttributeName name = true) :
    (e.attr name value).frame = e.frame := by
  simp [frame, attr, h]

@[simp] theorem frame_flag (h : isAttributeName name = true) : (e.flag name).frame = e.frame := by
  simp [frame, flag, h]

@[simp] theorem frame_attrIf (h : isAttributeName name = true) :
    (e.attrIf cond name value).frame = e.frame := by
  cases cond
  · rfl
  · exact frame_attr e value h

@[simp] theorem frame_flagIf (h : isAttributeName name = true) :
    (e.flagIf cond name).frame = e.frame := by
  cases cond
  · rfl
  · exact frame_flag e h

@[simp] theorem frame_cls (name : String) : (e.cls name).frame = e.frame :=
  frame_attrIf e _ name (by decide)

@[simp] theorem frame_child : (e.child c).frame = e.frame.addBlock c.frame.ok := by
  have hinline : c.toChild.isInline = false := rfl
  simp [frame, child, append, Frame.addBlock, Child.allSound_append, Child.allSound, hinline,
    sound_toChild c]

@[simp] theorem frame_text (s : String) : (e.text s).frame = e.frame.addInline := by
  simp [frame, text, append, Frame.addInline, Child.isInline, Child.allSound_append, Child.allSound,
    Child.sound]

@[simp] theorem frame_literal : (e.literal "&nbsp;").frame = e.frame.addInline := by
  simp [frame, literal, append, Frame.addInline, Child.isInline, Child.allSound_append,
    Child.allSound, Child.sound]

theorem frame_childList {cs : List Element} (h : ∀ c ∈ cs, c.frame.ok = true) :
    (e.childList cs).frame = { e.frame with
      bare := e.frame.bare && cs.isEmpty, inline := e.frame.inline && cs.isEmpty } := by
  have hbare : (e.children ++ cs.map toChild).isEmpty = (e.children.isEmpty && cs.isEmpty) := by
    cases e.children <;> cases cs <;> rfl
  have hinline : (cs.map toChild).all Child.isInline = cs.isEmpty := by
    cases cs <;> rfl
  have hblock : ((cs.map toChild).all fun c => !c.isInline) = true := by
    rw [List.all_map, List.all_eq_true]
    exact fun c _ => rfl
  have hsound : Child.allSound (cs.map toChild) = true := by
    clear hbare hinline hblock
    induction cs with
    | nil => rfl
    | cons c cs ih =>
      rw [List.map_cons, Child.allSound, sound_toChild, h c List.mem_cons_self,
        ih fun d hd => h d (List.mem_cons_of_mem c hd)]
      rfl
  simp only [frame, childList, List.all_append, hbare, hinline, hblock, Child.allSound_append, hsound,
    Bool.and_true]

/-! ### The elements below an element -/

/-- The elements below an element, each with its own attributes, in document order. -/
def below (e : Element) : List (String × List Attribute) :=
  Node.elementsAll (Draft.nodes (Child.drafts e.children))

theorem elements_tree : e.tree.elements = (e.tag, e.attributes) :: e.below := by
  rw [tree, Node.elements_normal]
  rfl

section

variable (name value : String)

@[simp] theorem below_new (tag : String) : (new tag).below = [] := rfl

@[simp] theorem below_attr : (e.attr name value).below = e.below := rfl

@[simp] theorem below_attrIf : (e.attrIf cond name value).below = e.below := by cases cond <;> rfl

@[simp] theorem below_cls : (e.cls name).below = e.below := e.below_attrIf _ "class" name

@[simp] theorem below_flag : (e.flag name).below = e.below := rfl

@[simp] theorem below_flagIf : (e.flagIf cond name).below = e.below := by cases cond <;> rfl

theorem below_append (d : Child) : (e.append d).below = e.below ++ d.draft.node.elements := by
  have hdrafts : ∀ cs : List Child, Node.elementsAll (Draft.nodes (Child.drafts (cs ++ [d]))) =
      Node.elementsAll (Draft.nodes (Child.drafts cs)) ++ d.draft.node.elements := by
    intro cs
    induction cs with
    | nil => exact List.append_nil _
    | cons c cs ih =>
      rw [List.cons_append, Child.drafts, Draft.nodes, Node.elementsAll, ih, ← List.append_assoc]
      rfl
  exact hdrafts e.children

@[simp] theorem below_child :
    (e.child c).below = e.below ++ (c.tag, c.attributes) :: c.below :=
  e.below_append c.toChild

@[simp] theorem below_childList (cs : List Element) :
    (e.childList cs).below = e.below ++ cs.flatMap fun c => (c.tag, c.attributes) :: c.below := by
  rw [childList_eq_foldl]
  induction cs generalizing e with
  | nil => simp
  | cons c cs ih => rw [List.foldl_cons, ih, below_child, List.flatMap_cons, List.append_assoc]

@[simp] theorem below_text (s : String) : (e.text s).below = e.below :=
  (e.below_append (.text s)).trans (List.append_nil _)

@[simp] theorem below_literal (s : String) : (e.literal s).below = e.below :=
  (e.below_append (.literal s)).trans (List.append_nil _)

end

/-! ### Attribute values -/

/-- The values that an element's own attributes give a name. -/
def own (e : Element) (name : String) : List String := attributeValues name e.attributes

/-- The values that the attributes below an element give a name. -/
def inner (e : Element) (name : String) : List String :=
  Node.valuesAll name (Draft.nodes (Child.drafts e.children))

theorem inner_eq_below (name : String) :
    e.inner name = e.below.flatMap fun p => attributeValues name p.2 :=
  Node.valuesAll_eq_elementsAll name _

theorem values_tree (name : String) : e.tree.values name = e.own name ++ e.inner name := by
  rw [Node.values_eq_elements, elements_tree, List.flatMap_cons, inner_eq_below, own]

section

variable (e c : Element) (cond : Bool) (name value : String) {other : String}

@[simp] theorem own_new (tag : String) : (new tag).own name = [] := rfl

@[simp] theorem own_attr : (e.attr name value).own name = e.own name ++ [value] := by
  simp [own, attr, attributeValues]

@[simp] theorem own_attr_of_ne (h : other ≠ name) : (e.attr other value).own name = e.own name := by
  simp [own, attr, attributeValues, h]

@[simp] theorem own_attrIf_of_ne (h : other ≠ name) :
    (e.attrIf cond other value).own name = e.own name := by
  cases cond
  · rfl
  · exact e.own_attr_of_ne name value h

@[simp] theorem own_cls_of_ne (cls : String) (h : "class" ≠ name) :
    (e.cls cls).own name = e.own name :=
  e.own_attrIf_of_ne _ name cls h

@[simp] theorem own_flag : (e.flag other).own name = e.own name := by
  simp [own, flag, attributeValues]

@[simp] theorem own_flagIf : (e.flagIf cond other).own name = e.own name := by
  cases cond
  · rfl
  · exact e.own_flag name

@[simp] theorem own_child : (e.child c).own name = e.own name := rfl

@[simp] theorem own_childList (cs : List Element) : (e.childList cs).own name = e.own name := rfl

@[simp] theorem own_text (s : String) : (e.text s).own name = e.own name := rfl

@[simp] theorem own_literal (s : String) : (e.literal s).own name = e.own name := rfl

@[simp] theorem inner_new (tag : String) : (new tag).inner name = [] := rfl

@[simp] theorem inner_attr : (e.attr other value).inner name = e.inner name := rfl

@[simp] theorem inner_attrIf : (e.attrIf cond other value).inner name = e.inner name := by
  cases cond <;> rfl

@[simp] theorem inner_cls (cls : String) : (e.cls cls).inner name = e.inner name :=
  e.inner_attrIf _ name cls

@[simp] theorem inner_flag : (e.flag other).inner name = e.inner name := rfl

@[simp] theorem inner_flagIf : (e.flagIf cond other).inner name = e.inner name := by
  cases cond <;> rfl

@[simp] theorem inner_child : (e.child c).inner name = e.inner name ++ (c.own name ++ c.inner name) := by
  rw [inner_eq_below, below_child, List.flatMap_append, List.flatMap_cons, inner_eq_below, inner_eq_below,
    own]

@[simp] theorem inner_childList (cs : List Element) :
    (e.childList cs).inner name = e.inner name ++ cs.flatMap fun c => c.own name ++ c.inner name := by
  simp only [inner_eq_below, below_childList, List.flatMap_append, List.flatMap_assoc, List.flatMap_cons,
    own]

@[simp] theorem inner_text (s : String) : (e.text s).inner name = e.inner name := by
  rw [inner_eq_below, below_text, inner_eq_below]

@[simp] theorem inner_literal (s : String) : (e.literal s).inner name = e.inner name := by
  rw [inner_eq_below, below_literal, inner_eq_below]

end

end Element

end MarketingForm
