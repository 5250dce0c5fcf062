import MarketingForm.Proofs.Html.Element

/-!
# Asking trees

What is taken from a tree: the elements with a tag (`Node.tagged`), the values that the attributes of an
element give a name (`Node.own`), whether it carries a bare attribute (`Node.flagged`), and the text in it
(`Node.content`). The tree of an element that was built from elements, or around one text, is asked part
by part.
-/

namespace MarketingForm

namespace Html.Node

/-! ## Questions -/

mutual

/-- The elements with a tag, in document order. -/
def tagged (tag : String) : Node → List Node
  | element t as ns => (if t = tag then [element t as ns] else []) ++ taggedAll tag ns
  | text _ => []

def taggedAll (tag : String) : List Node → List Node
  | [] => []
  | n :: r => n.tagged tag ++ taggedAll tag r

end

mutual

/-- The text in a tree. -/
def content : Node → String
  | element _ _ ns => contentAll ns
  | text s => s

def contentAll : List Node → String
  | [] => ""
  | n :: r => n.content ++ contentAll r

end

/-- The values that an element's own attributes give a name. -/
def own (name : String) : Node → List String
  | element _ as _ => attributeValues name as
  | text _ => []

/-- Whether an element carries a bare attribute. -/
def flagged (name : String) : Node → Bool
  | element _ as _ => as.any fun a => a.name == name && a.value.isNone
  | text _ => false

theorem taggedAll_eq_flatMap (tag : String) (ns : List Node) :
    taggedAll tag ns = ns.flatMap (tagged tag) := by
  induction ns with
  | nil => rfl
  | cons n ns ih => rw [taggedAll, List.flatMap_cons, ih]

theorem taggedAll_ofText (tag : String) (s : List Char) : taggedAll tag (ofText s) = [] := by
  unfold ofText
  split <;> rfl

theorem contentAll_ofText (s : List Char) : contentAll (ofText s) = String.ofList s := by
  unfold ofText
  split
  · rename_i h
    rw [h]
    rfl
  · exact String.append_empty

end Html.Node

open Html

namespace Element

/-! ## Parts of built elements -/

section

variable (e c : Element) (cond : Bool) (name value : String)

@[simp] theorem tag_new (tag : String) : (new tag).tag = tag := rfl

@[simp] theorem tag_attr : (e.attr name value).tag = e.tag := rfl

@[simp] theorem tag_attrIf : (e.attrIf cond name value).tag = e.tag := by cases cond <;> rfl

@[simp] theorem tag_cls : (e.cls name).tag = e.tag := e.tag_attrIf _ "class" name

@[simp] theorem tag_flag : (e.flag name).tag = e.tag := rfl

@[simp] theorem tag_flagIf : (e.flagIf cond name).tag = e.tag := by cases cond <;> rfl

@[simp] theorem tag_child : (e.child c).tag = e.tag := rfl

@[simp] theorem tag_childList (cs : List Element) : (e.childList cs).tag = e.tag := rfl

@[simp] theorem tag_text (s : String) : (e.text s).tag = e.tag := rfl

end

theorem child_child (e c d : Element) : (e.child c).child d = e.childList [c, d] := by
  simp [child, append, childList]

/-- An element whose children are elements. -/
def Holds (e : Element) (cs : List Element) : Prop := e.children = cs.map toChild

section

variable {e : Element} {cs : List Element} (h : e.Holds cs) (c : Element) (cond : Bool)
  (name value : String)

theorem holds_new (tag : String) : (new tag).Holds [] := rfl

include h

theorem Holds.attr : (e.attr name value).Holds cs := h

theorem Holds.attrIf : (e.attrIf cond name value).Holds cs := by cases cond <;> exact h

theorem Holds.cls : (e.cls name).Holds cs := h.attrIf _ "class" name

theorem Holds.flag : (e.flag name).Holds cs := h

theorem Holds.flagIf : (e.flagIf cond name).Holds cs := by cases cond <;> exact h

theorem Holds.child : (e.child c).Holds (cs ++ [c]) := by
  have hchildren : (e.child c).children = e.children ++ [c.toChild] := rfl
  rw [Holds, hchildren, h, List.map_append]
  rfl

theorem Holds.childList (ds : List Element) : (e.childList ds).Holds (cs ++ ds) := by
  have hchildren : (e.childList ds).children = e.children ++ ds.map toChild := rfl
  rw [Holds, hchildren, h, List.map_append]

end

/-! ## Trees of built elements -/

theorem tree_of_holds {e : Element} {cs : List Element} (h : e.Holds cs) :
    e.tree = .element e.tag e.attributes (cs.map tree) := by
  have hnodes : Node.normalAll (Draft.nodes (Child.drafts e.children)) = cs.map tree := by
    rw [h]
    clear h
    induction cs with
    | nil => rfl
    | cons c cs ih =>
      rw [List.map_cons, List.map_cons, ← ih]
      rfl
  have helements : ∀ n ∈ cs.map tree, n.isElement = true := by
    intro n hn
    obtain ⟨c, -, rfl⟩ := List.mem_map.1 hn
    rfl
  have htree : e.tree =
      .element e.tag e.attributes
        (Node.joinTexts (Node.normalAll (Draft.nodes (Child.drafts e.children)))) := rfl
  rw [htree, hnodes, Node.joinTexts_of_elements helements]

theorem own_tree (e : Element) (name : String) : e.tree.own name = e.own name := rfl

/-- The elements with a tag in an element of elements. -/
theorem tagged_of_holds {e : Element} {cs : List Element} (h : e.Holds cs) (tag : String) :
    e.tree.tagged tag =
      (if e.tag = tag then [e.tree] else []) ++ cs.flatMap fun c => c.tree.tagged tag := by
  rw [tree_of_holds h, Node.tagged, Node.taggedAll_eq_flatMap, List.flatMap_map]

/-- The elements with a tag in an element around a text. -/
theorem tagged_text {e : Element} (h : e.Holds []) (s tag : String) :
    (e.text s).tree.tagged tag = if e.tag = tag then [(e.text s).tree] else [] := by
  rw [tree_text h, Node.tagged, Node.taggedAll_ofText, List.append_nil]

theorem content_text {e : Element} (h : e.Holds []) (s : String) : (e.text s).tree.content = s := by
  rw [tree_text h, Node.content, Node.contentAll_ofText, String.ofList_toList]

/-- The text in an element of elements. -/
theorem content_of_holds {e : Element} {cs : List Element} (h : e.Holds cs) :
    e.tree.content = Node.contentAll (cs.map tree) := by
  rw [tree_of_holds h, Node.content]

/-! ## Bare attributes -/

/-- Whether an element carries a bare attribute. -/
def flagged (e : Element) (name : String) : Bool :=
  e.attributes.any fun a => a.name == name && a.value.isNone

theorem flagged_tree (e : Element) (name : String) : e.tree.flagged name = e.flagged name := rfl

section

variable (e c : Element) (cond : Bool) (name value : String) {other : String}

@[simp] theorem flagged_new (tag : String) : (new tag).flagged name = false := rfl

@[simp] theorem flagged_attr : (e.attr other value).flagged name = e.flagged name := by
  simp [flagged, attr]

@[simp] theorem flagged_attrIf : (e.attrIf cond other value).flagged name = e.flagged name := by
  cases cond
  · rfl
  · exact e.flagged_attr name value

@[simp] theorem flagged_flag : (e.flag name).flagged name = true := by simp [flagged, flag]

@[simp] theorem flagged_flag_of_ne (h : other ≠ name) :
    (e.flag other).flagged name = e.flagged name := by
  simp [flagged, flag, h]

@[simp] theorem flagged_flagIf : (e.flagIf cond name).flagged name = (e.flagged name || cond) := by
  cases cond
  · exact (Bool.or_false _).symm
  · exact (e.flagged_flag name).trans (Bool.or_true _).symm

@[simp] theorem flagged_flagIf_of_ne (h : other ≠ name) :
    (e.flagIf cond other).flagged name = e.flagged name := by
  cases cond
  · rfl
  · exact e.flagged_flag_of_ne name h

@[simp] theorem flagged_text (s : String) : (e.text s).flagged name = e.flagged name := rfl

end

end Element

end MarketingForm
