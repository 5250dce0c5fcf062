import MarketingForm.Proofs.Html.Token

/-!
# Element trees

`build` puts tokens together to a tree: an opening tag starts an element unless its tag is void, a
closing tag must name the innermost open element. In an element that holds elements, texts of spaces
and line feeds are layout and are dropped. `read?` reads a whole text as one element.

`Adds s ns` says that `s` adds the elements `ns`, and besides them only layout, to the element that
it stands in.
-/

namespace MarketingForm.Html

/-- A node of an element tree. -/
inductive Node where
  | element (tag : String) (attributes : List Attribute) (children : List Node)
  | text (s : String)

def isLayoutChar (c : Char) : Bool := c == ' ' || c == '\n'

namespace Node

def isElement : Node → Bool
  | element .. => true
  | text _ => false

/-- Texts that may be there for layout only. -/
def isLayout : Node → Bool
  | element .. => false
  | text s => s.toList.all isLayoutChar

/-- The node of a text; an empty text has none. -/
def ofText (s : List Char) : List Node := if s = [] then [] else [.text (String.ofList s)]

end Node

/-! ## The content of an element -/

/-- What has been read of an element: its nodes, and the characters since the last of them. -/
structure Content where
  nodes : List Node
  raw : List Char

namespace Content

def empty : Content := ⟨[], []⟩

def push (c : Content) (s : List Char) : Content := { c with raw := c.raw ++ s }

/-- The nodes with the last text. -/
def all (c : Content) : List Node := c.nodes ++ Node.ofText (decode c.raw)

def add (c : Content) (n : Node) : Content := ⟨c.all ++ [n], []⟩

/-- The nodes, without layout if there are elements among them. -/
def children (c : Content) : List Node :=
  if c.all.any Node.isElement then c.all.filter fun n => !n.isLayout else c.all

/-- The content is some nodes and layout. -/
structure Holds (c : Content) (ns : List Node) : Prop where
  nodes : (c.nodes.filter fun n => !n.isLayout) = ns
  raw : c.raw.all isLayoutChar = true

theorem Holds.empty : Holds .empty [] := ⟨rfl, rfl⟩

theorem Holds.push {c : Content} {ns : List Node} (h : c.Holds ns) {s : List Char}
    (hs : s.all isLayoutChar = true) : (c.push s).Holds ns :=
  ⟨h.nodes, by simp only [Content.push, List.all_append, h.raw, hs, Bool.and_self]⟩

theorem decode_of_layout {s : List Char} (h : s.all isLayoutChar = true) : decode s = s := by
  induction s with
  | nil => rfl
  | cons c s ih =>
    simp only [List.all_cons, Bool.and_eq_true] at h
    have hc : c ≠ '&' := by rintro rfl; exact absurd h.1 (by decide)
    rw [decode_cons hc, ih h.2]

theorem Holds.all {c : Content} {ns : List Node} (h : c.Holds ns) :
    (c.all.filter fun n => !n.isLayout) = ns := by
  have hlast : ((Node.ofText (decode c.raw)).filter fun n => !n.isLayout) = [] := by
    rw [decode_of_layout h.raw, Node.ofText]
    split
    · rfl
    · have hraw := h.raw
      simp_all [Node.isLayout]
  rw [Content.all, List.filter_append, hlast, List.append_nil, h.nodes]

theorem Holds.add {c : Content} {ns : List Node} (h : c.Holds ns) {n : Node}
    (hn : n.isElement = true) : (c.add n).Holds (ns ++ [n]) := by
  refine ⟨?_, rfl⟩
  have : n.isLayout = false := by
    cases n with
    | element => rfl
    | text => cases hn
  simp [Content.add, h.all, this]

theorem Holds.children {c : Content} {ns : List Node} (h : c.Holds ns) {n : Node} (hmem : n ∈ ns)
    (hn : n.isElement = true) : c.children = ns := by
  have hany : c.all.any Node.isElement = true := by
    rw [← h.all] at hmem
    exact List.any_eq_true.2 ⟨n, (List.mem_filter.1 hmem).1, hn⟩
  rw [Content.children, if_pos hany, h.all]

end Content

/-! ## Building a tree -/

/-- An open element and what stands before it in the element around it. -/
structure Outer where
  tag : String
  attributes : List Attribute
  before : Content

/-- Puts tokens together, in the innermost of the open elements. -/
def build : Content → List Outer → List Token → Option (List Node)
  | c, [], [] => some c.children
  | _, _ :: _, [] => none
  | c, os, .char x :: ts => build (c.push [x]) os ts
  | c, os, .opening tag as :: ts =>
    if isVoidTag tag then build (c.add (.element tag as [])) os ts
    else build .empty (⟨tag, as, c⟩ :: os) ts
  | _, [], .closing _ :: _ => none
  | c, o :: os, .closing tag :: ts =>
    if tag = o.tag then build (o.before.add (.element tag o.attributes c.children)) os ts else none

/-- Reads a text that is one element. -/
def read? (s : List Char) : Option Node :=
  match run .text s with
  | some (.text, ts) =>
    match build .empty [] ts with
    | some [n] => some n
    | _ => none
  | _ => none

theorem build_chars (s : List Char) (c : Content) (os : List Outer) (r : List Token) :
    build c os (s.map .char ++ r) = build (c.push s) os r := by
  induction s generalizing c with
  | nil => simp [Content.push]
  | cons x s ih =>
    rw [List.map_cons, List.cons_append, build, ih]
    simp [Content.push]

/-- `s` adds the elements `ns` and layout to the element that it stands in. -/
def Adds (s : List Char) (ns : List Node) : Prop :=
  ∃ ts, Spells s ts ∧ ∀ (c : Content) (ms : List Node), c.Holds ms →
    ∃ d : Content, d.Holds (ms ++ ns) ∧ ∀ os r, build c os (ts ++ r) = build d os r

namespace Adds

theorem append {s t : List Char} {ns ms : List Node} (hs : Adds s ns) (ht : Adds t ms) :
    Adds (s ++ t) (ns ++ ms) := by
  obtain ⟨ts, hspell, hbuild⟩ := hs
  obtain ⟨us, hspell', hbuild'⟩ := ht
  refine ⟨ts ++ us, hspell.append hspell', fun c ks hc => ?_⟩
  obtain ⟨d, hd, hcd⟩ := hbuild c ks hc
  obtain ⟨e, he, hde⟩ := hbuild' d _ hd
  refine ⟨e, by rwa [List.append_assoc] at he, fun os r => ?_⟩
  rw [List.append_assoc, hcd, hde]

theorem layout {s : List Char} (h : s.all isLayoutChar = true) : Adds s [] := by
  have hlt : '<' ∉ s := fun hmem => absurd (List.all_eq_true.1 h _ hmem) (by decide)
  refine ⟨_, spells_text hlt, fun c ms hc => ⟨c.push s, ?_, fun os r => build_chars s c os r⟩⟩
  rw [List.append_nil]
  exact hc.push h

/-- A tag whose element has no content. -/
theorem void {tag : String} {as : List Attribute} (ht : isTagName tag = true)
    (has : ∀ a ∈ as, isAttributeName a.name = true) (hv : isVoidTag tag = true) :
    Adds (openingTag tag as) [.element tag as []] := by
  refine ⟨_, spells_openingTag ht has, fun c ms hc => ⟨_, hc.add rfl, fun os r => ?_⟩⟩
  rw [List.singleton_append, build, if_pos hv]

theorem elements {tag : String} {as : List Attribute} (ht : isTagName tag = true)
    (has : ∀ a ∈ as, isAttributeName a.name = true) (hv : isVoidTag tag = false) {s : List Char}
    {n : Node} {ns : List Node} (hn : n ∈ ns) (he : n.isElement = true) (hs : Adds s ns) :
    Adds (openingTag tag as ++ s ++ closingTag tag) [.element tag as ns] := by
  obtain ⟨ts, hspell, hbuild⟩ := hs
  obtain ⟨d, hd, hin⟩ := hbuild .empty [] .empty
  refine ⟨_, ((spells_openingTag ht has).append hspell).append (spells_closingTag ht),
    fun c ms hc => ⟨_, hc.add rfl, fun os r => ?_⟩⟩
  have hchildren : d.children = ns := hd.children hn he
  rw [List.append_assoc, List.append_assoc, List.singleton_append, build, hv, if_neg (by simp), hin,
    List.singleton_append, build, if_pos rfl, hchildren]

theorem text {tag : String} {as : List Attribute} (ht : isTagName tag = true)
    (has : ∀ a ∈ as, isAttributeName a.name = true) (hv : isVoidTag tag = false) {s : List Char}
    (hs : '<' ∉ s) :
    Adds (openingTag tag as ++ s ++ closingTag tag) [.element tag as (Node.ofText (decode s))] := by
  refine ⟨_, ((spells_openingTag ht has).append (spells_text hs)).append (spells_closingTag ht),
    fun c ms hc => ⟨_, hc.add rfl, fun os r => ?_⟩⟩
  have hchildren : (Content.empty.push s).children = Node.ofText (decode s) := by
    have hall : (Content.empty.push s).all = Node.ofText (decode s) := rfl
    have hnone : (Node.ofText (decode s)).any Node.isElement = false := by
      unfold Node.ofText
      split <;> rfl
    rw [Content.children, hall, hnone, if_neg (by simp)]
  rw [List.append_assoc, List.append_assoc, List.singleton_append, build, hv, if_neg (by simp),
    build_chars, List.singleton_append, build, if_pos rfl, hchildren]

theorem read {s : List Char} {n : Node} (hn : n.isElement = true) (h : Adds s [n]) :
    read? s = some n := by
  obtain ⟨ts, hspell, hbuild⟩ := h
  obtain ⟨d, hd, hin⟩ := hbuild .empty [] .empty
  have hb : build .empty [] ts = some [n] := by
    simpa [build, hd.children (n := n) (by simp) hn] using hin [] []
  unfold read?
  rw [hspell]
  simp only [hb]

end Adds

end MarketingForm.Html
