import MarketingForm.Markup.Entity
import MarketingForm.Text.Case

/-!
# Elements

An element is a tag with attributes and children; its texts and attribute values are kept as they
are, and are encoded where the element is written (`Markup.Layout`). A subtree that has been written
already is embedded as finished markup.
-/

namespace MarketingForm

/-- Finished markup: closed elements with every text encoded. -/
structure Markup where
  text : String
deriving DecidableEq, Inhabited

/-- An attribute; a bare one has no value. -/
structure Attribute where
  name : String
  value : Option String
deriving DecidableEq

/-- What an element can hold. -/
inductive Child where
  | element (tag : String) (attributes : List Attribute) (children : List Child)
  | text (s : String)
  /-- Fixed markup such as `&nbsp;`, written as it is. -/
  | literal (s : String)
  | embedded (m : Markup)

/-- An element. -/
structure Element where
  tag : String
  attributes : List Attribute
  children : List Child

/-- The elements that have no closing tag and show no children. -/
def voidTags : List String := ["br", "hr", "img", "input", "link", "meta"]

def isVoidTag (tag : String) : Bool := voidTags.contains tag

/-- A plain element name: an ASCII letter, then ASCII letters, digits and hyphens. -/
def isTagName (tag : String) : Bool :=
  match tag.toList with
  | [] => false
  | c :: r => c.isAlpha && r.all fun d => d.isAlphanum || d == '-'

namespace Element

/-- The element without attributes and children. -/
def new (tag : String) : Element := ⟨tag, [], []⟩

/-- The element with a tag that a user chose, in lower case. Refuses a tag that is no plain element
name or that could not hold children. -/
def named? (tag : String) : Option Element :=
  let tag := Text.asciiLower tag
  if isTagName tag && !isVoidTag tag then some (new tag) else none

/-- Adds an attribute with a value. -/
def attr (e : Element) (name value : String) : Element :=
  { e with attributes := e.attributes ++ [⟨name, some value⟩] }

/-- Adds an attribute with a value on a condition. -/
def attrIf (e : Element) (cond : Bool) (name value : String) : Element :=
  if cond then e.attr name value else e

/-- Adds a class attribute unless the class is empty. -/
def cls (e : Element) (name : String) : Element := e.attrIf (!name.isEmpty) "class" name

/-- Adds a bare attribute. -/
def flag (e : Element) (name : String) : Element :=
  { e with attributes := e.attributes ++ [⟨name, none⟩] }

/-- Adds a bare attribute on a condition. -/
def flagIf (e : Element) (cond : Bool) (name : String) : Element :=
  if cond then e.flag name else e

/-- The element as a child of another one. -/
def toChild (e : Element) : Child := .element e.tag e.attributes e.children

/-- Adds one child of any sort. -/
def append (e : Element) (c : Child) : Element := { e with children := e.children ++ [c] }

def child (e c : Element) : Element := e.append c.toChild

/-- Adds several elements as children. -/
def childList (e : Element) (cs : List Element) : Element :=
  { e with children := e.children ++ cs.map toChild }

theorem childList_eq_foldl (e : Element) (cs : List Element) :
    e.childList cs = cs.foldl child e := by
  induction cs generalizing e with
  | nil => simp [childList]
  | cons c cs ih =>
    rw [List.foldl_cons, ← ih]
    simp [childList, child, append]

def text (e : Element) (s : String) : Element := e.append (.text s)

/-- Adds fixed markup as a child. -/
def literal (e : Element) (s : String) : Element := e.append (.literal s)

/-- Adds finished markup as a child. -/
def embed (e : Element) (m : Markup) : Element := e.append (.embedded m)

end Element

end MarketingForm
