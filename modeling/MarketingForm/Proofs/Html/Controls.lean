import MarketingForm.Proofs.Html.Query

/-!
# Form controls in trees

The form controls of a tree are its elements with one of three tags (`Node.controls`). Attributes can be
added to all of them, wherever they stand, with the rest of the tree as it was (`Node.extendControls`). For
an element the same is done on the element itself (`Element.tree_extendControls`), part by part as it was
built.
-/

namespace MarketingForm

namespace Html

/-- The tags of form controls. -/
def isControlTag (tag : String) : Bool := ["input", "textarea", "select"].contains tag

/-- The attributes of an element with a tag, and more of them if it is a form control. -/
def extendAttributes (extra : List Attribute) (tag : String) (as : List Attribute) : List Attribute :=
  if isControlTag tag then as ++ extra else as

theorem extendAttributes_control {tag : String} (h : isControlTag tag = true)
    (extra as : List Attribute) : extendAttributes extra tag as = as ++ extra := by
  rw [extendAttributes, if_pos h]

theorem extendAttributes_other {tag : String} (h : isControlTag tag = false)
    (extra as : List Attribute) : extendAttributes extra tag as = as := by
  rw [extendAttributes, h, if_neg Bool.false_ne_true]

namespace Node

/-- The tags of the form controls in a tree, in document order. -/
def controls (n : Node) : List String := (n.elements.map Prod.fst).filter isControlTag

/-- The attributes of the elements in a tree, in document order. -/
def attributes (n : Node) : List Attribute := n.elements.flatMap Prod.snd

/-- No element in a tree has an attribute with one of some names. -/
def Lacks (names : List String) (n : Node) : Prop := ∀ a ∈ n.attributes, a.name ∉ names

mutual

/-- The tree with attributes added to those of every form control. -/
def extendControls (extra : List Attribute) : Node → Node
  | element tag as ns => .element tag (extendAttributes extra tag as) (extendAll extra ns)
  | text s => .text s

def extendAll (extra : List Attribute) : List Node → List Node
  | [] => []
  | n :: r => n.extendControls extra :: extendAll extra r

end

variable (extra : List Attribute)

theorem prependText_extendAll (s : String) (ns : List Node) :
    prependText s (extendAll extra ns) = extendAll extra (prependText s ns) := by
  unfold prependText
  cases ns with
  | nil =>
    simp only [extendAll]
    split <;> rfl
  | cons n ns =>
    cases n with
    | text t => rfl
    | element tag as ms =>
      simp only [extendAll, extendControls]
      split <;> rfl

theorem joinTexts_extendAll (ns : List Node) :
    joinTexts (extendAll extra ns) = extendAll extra (joinTexts ns) := by
  induction ns with
  | nil => rfl
  | cons n ns ih =>
    cases n with
    | text s =>
      rw [extendAll, extendControls, joinTexts, joinTexts, ih, prependText_extendAll]
    | element tag as ms =>
      rw [extendAll, extendControls, joinTexts, joinTexts, ih, extendAll, extendControls]

mutual

theorem normal_extendControls :
    ∀ n : Node, (n.extendControls extra).normal = n.normal.extendControls extra
  | element tag as ns => by
    rw [extendControls, normal, normal, extendControls, normalAll_extendAll ns, joinTexts_extendAll]
  | text _ => rfl

theorem normalAll_extendAll :
    ∀ ns : List Node, normalAll (extendAll extra ns) = extendAll extra (normalAll ns)
  | [] => rfl
  | n :: r => by
    rw [extendAll, normalAll, normalAll, extendAll, normal_extendControls n, normalAll_extendAll r]

end

end Node

end Html

open Html

/-! ## Children -/

namespace Child

variable (extra : List Attribute)

mutual

/-- The child with attributes added to those of every form control. -/
def extendControls : Child → Child
  | element tag as cs => .element tag (extendAttributes extra tag as) (extendAll cs)
  | text s => .text s
  | literal s => .literal s
  | embedded m => .embedded m

def extendAll : List Child → List Child
  | [] => []
  | c :: r => c.extendControls :: extendAll r

end

theorem extendAll_eq_map (cs : List Child) : extendAll extra cs = cs.map (extendControls extra) := by
  induction cs with
  | nil => rfl
  | cons c cs ih => rw [extendAll, List.map_cons, ih]

mutual

theorem node_extendControls :
    ∀ c : Child, (c.extendControls extra).draft.node = c.draft.node.extendControls extra
  | element tag as cs => by
    rw [extendControls, draft, draft, Draft.node, Draft.node, Node.extendControls, nodes_extendAll cs]
  | text _ | literal _ | embedded _ => rfl

theorem nodes_extendAll : ∀ cs : List Child,
    Draft.nodes (drafts (extendAll extra cs)) = Node.extendAll extra (Draft.nodes (drafts cs))
  | [] => rfl
  | c :: r => by
    rw [extendAll, drafts, drafts, Draft.nodes, Draft.nodes, Node.extendAll, node_extendControls c,
      nodes_extendAll r]

end

end Child

/-! ## Elements -/

namespace Element

/-- The element with attributes added to those of every form control. -/
def extendControls (extra : List Attribute) (e : Element) : Element :=
  ⟨e.tag, extendAttributes extra e.tag e.attributes, e.children.map (Child.extendControls extra)⟩

theorem toChild_extendControls (extra : List Attribute) (e : Element) :
    (e.extendControls extra).toChild = e.toChild.extendControls extra := by
  rw [toChild, toChild, Child.extendControls, Child.extendAll_eq_map]
  rfl

theorem tree_extendControls (extra : List Attribute) (e : Element) :
    (e.extendControls extra).tree = e.tree.extendControls extra := by
  rw [tree, toChild_extendControls, Child.node_extendControls, Node.normal_extendControls]
  rfl

section

variable {e : Element} (c : Element) (extra : List Attribute)

theorem extendControls_control (h : isControlTag e.tag = true) (hbare : e.Holds []) :
    e.extendControls extra = { e with attributes := e.attributes ++ extra } := by
  have hnone : e.children = [] := hbare
  rw [extendControls, extendAttributes_control h, hnone]
  rfl

/-! Attributes are added to the parts of an element that has been built. -/

@[simp] theorem extendControls_new {tag : String} (h : isControlTag tag = false) :
    (new tag).extendControls extra = new tag := by
  rw [extendControls, tag_new, extendAttributes_other h]
  rfl

@[simp] theorem extendControls_attr (h : isControlTag e.tag = false) (name value : String) :
    (e.attr name value).extendControls extra = (e.extendControls extra).attr name value := by
  simp only [extendControls, attr, extendAttributes_other h]

@[simp] theorem extendControls_attrIf (h : isControlTag e.tag = false) (cond : Bool)
    (name value : String) :
    (e.attrIf cond name value).extendControls extra =
      (e.extendControls extra).attrIf cond name value := by
  cases cond
  · rfl
  · exact extendControls_attr extra h name value

@[simp] theorem extendControls_cls (h : isControlTag e.tag = false) (name : String) :
    (e.cls name).extendControls extra = (e.extendControls extra).cls name :=
  extendControls_attrIf extra h _ "class" name

@[simp] theorem extendControls_flag (h : isControlTag e.tag = false) (name : String) :
    (e.flag name).extendControls extra = (e.extendControls extra).flag name := by
  simp only [extendControls, flag, extendAttributes_other h]

@[simp] theorem extendControls_text (s : String) :
    (e.text s).extendControls extra = (e.extendControls extra).text s := by
  simp [extendControls, text, append, Child.extendControls]

@[simp] theorem extendControls_child :
    (e.child c).extendControls extra = (e.extendControls extra).child (c.extendControls extra) := by
  simp [extendControls, child, append, toChild, Child.extendControls, Child.extendAll_eq_map]

@[simp] theorem extendControls_childList (cs : List Element) :
    (e.childList cs).extendControls extra =
      (e.extendControls extra).childList (cs.map (extendControls extra)) := by
  simp [extendControls, childList, ← toChild_extendControls, Function.comp_def]

end

theorem controls_tree (e : Element) :
    e.tree.controls = (e.tag :: e.below.map Prod.fst).filter isControlTag := by
  rw [Node.controls, elements_tree, List.map_cons]

theorem lacks_tree (e : Element) (names : List String) :
    e.tree.Lacks names ↔
      (∀ a ∈ e.attributes, a.name ∉ names) ∧ ∀ p ∈ e.below, ∀ a ∈ p.2, a.name ∉ names := by
  rw [Node.Lacks, Node.attributes, elements_tree, List.flatMap_cons]
  simp only [List.forall_mem_append, List.mem_flatMap]
  exact and_congr_right fun _ =>
    ⟨fun h p hp a ha => h a ⟨p, hp, ha⟩, fun h a ⟨p, hp, ha⟩ => h p hp a ha⟩

/-! ### Attributes of built elements -/

section

variable (e c : Element) (cond : Bool) (name value : String)

@[simp] theorem attributes_new (tag : String) : (new tag).attributes = [] := rfl

@[simp] theorem attributes_attr :
    (e.attr name value).attributes = e.attributes ++ [⟨name, some value⟩] := rfl

@[simp] theorem attributes_attrIf : (e.attrIf cond name value).attributes =
    e.attributes ++ if cond then [⟨name, some value⟩] else [] := by
  cases cond
  · exact (List.append_nil _).symm
  · rfl

@[simp] theorem attributes_cls :
    (e.cls name).attributes = e.attributes ++ if !name.isEmpty then [⟨"class", some name⟩] else [] :=
  e.attributes_attrIf _ "class" name

@[simp] theorem attributes_flag : (e.flag name).attributes = e.attributes ++ [⟨name, none⟩] := rfl

@[simp] theorem attributes_child : (e.child c).attributes = e.attributes := rfl

@[simp] theorem attributes_childList (cs : List Element) :
    (e.childList cs).attributes = e.attributes := rfl

@[simp] theorem attributes_text (s : String) : (e.text s).attributes = e.attributes := rfl

end

/-! ### Elements without some attributes -/

section

variable (e c : Element) (cond : Bool) {names : List String} {name : String} (value : String)

@[simp] theorem lacks_new (tag : String) : (new tag).tree.Lacks names := by
  simp [lacks_tree]

@[simp] theorem lacks_attr (h : name ∉ names) :
    (e.attr name value).tree.Lacks names ↔ e.tree.Lacks names := by
  simp only [lacks_tree, attributes_attr, below_attr, List.forall_mem_append,
    List.forall_mem_singleton, h, not_false_eq_true, and_true]

@[simp] theorem lacks_attrIf (h : name ∉ names) :
    (e.attrIf cond name value).tree.Lacks names ↔ e.tree.Lacks names := by
  cases cond
  · exact Iff.rfl
  · exact e.lacks_attr value h

@[simp] theorem lacks_cls (cls : String) (h : "class" ∉ names) :
    (e.cls cls).tree.Lacks names ↔ e.tree.Lacks names :=
  e.lacks_attrIf _ cls h

@[simp] theorem lacks_flag (h : name ∉ names) :
    (e.flag name).tree.Lacks names ↔ e.tree.Lacks names := by
  simp only [lacks_tree, attributes_flag, below_flag, List.forall_mem_append,
    List.forall_mem_singleton, h, not_false_eq_true, and_true]

@[simp] theorem lacks_flagIf (h : name ∉ names) :
    (e.flagIf cond name).tree.Lacks names ↔ e.tree.Lacks names := by
  cases cond
  · exact Iff.rfl
  · exact e.lacks_flag h

@[simp] theorem lacks_child :
    (e.child c).tree.Lacks names ↔ e.tree.Lacks names ∧ c.tree.Lacks names := by
  simp only [lacks_tree, attributes_child, below_child, List.forall_mem_append, List.forall_mem_cons,
    and_assoc]

@[simp] theorem lacks_childList (cs : List Element) :
    (e.childList cs).tree.Lacks names ↔ e.tree.Lacks names ∧ ∀ c ∈ cs, c.tree.Lacks names := by
  rw [childList_eq_foldl]
  induction cs generalizing e with
  | nil => simp
  | cons c cs ih => rw [List.foldl_cons, ih, lacks_child, List.forall_mem_cons, and_assoc]

@[simp] theorem lacks_text (s : String) : (e.text s).tree.Lacks names ↔ e.tree.Lacks names := by
  simp only [lacks_tree, attributes_text, below_text]

end

end Element

end MarketingForm
