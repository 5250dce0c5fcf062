import MarketingForm.Yaml.Token.Scan

/-!
# Nodes of a YAML document

A document is a tree of scalars, sequences, mappings and aliases. Where the text is broken the tree
is cut: the collections around the break are incomplete and hold what came before it. An alias is a
`reference` to the number of an anchor; which node that is, `Document.target?` tells.
-/

namespace MarketingForm.Yaml

/-- What may stand in front of a node. -/
structure Props where
  tag : Option (List Char)
  /-- The number of the node's anchor. -/
  anchor : Option Nat
deriving DecidableEq

namespace Props

/-- No tag and no anchor. -/
def bare : Props := ⟨none, none⟩

/-- A lone mark before a written scalar means nothing. -/
def withoutLoneMark (p : Props) : Props :=
  if p.tag = some ['!'] then { p with tag := none } else p

end Props

/-- A node with the place where it starts. The children of a mapping are keys and values in turn. -/
inductive Node where
  | scalar (mark : Mark) (props : Props) (style : Style) (text : List Char)
  | sequence (mark : Mark) (props : Props) (items : List Node) (complete : Bool)
  | mapping (mark : Mark) (props : Props) (children : List Node) (complete : Bool)
  | reference (mark : Mark) (anchor : Nat)
deriving Inhabited

namespace Node

def mark : Node → Mark
  | scalar m .. => m
  | sequence m .. => m
  | mapping m .. => m
  | reference m _ => m

/-- Whether the node ends before the text breaks. -/
def isComplete : Node → Bool
  | scalar .. => true
  | sequence _ _ _ complete => complete
  | mapping _ _ _ complete => complete
  | reference .. => true

/-- An empty plain scalar. -/
def blank (m : Mark) : Node := scalar m .bare .plain []

mutual

/-- The number of nodes and collection ends. -/
def size : Node → Nat
  | scalar .. => 1
  | reference .. => 1
  | sequence _ _ items complete => 1 + sizeAll items + (if complete then 1 else 0)
  | mapping _ _ children complete => 1 + sizeAll children + (if complete then 1 else 0)

def sizeAll : List Node → Nat
  | [] => 0
  | n :: r => size n + sizeAll r

end

/-- The node with its anchor, if it has one. -/
def anchorOf (n : Node) : List (Nat × Node) :=
  match n with
  | scalar _ p _ _ => (p.anchor.map fun a => (a, n)).toList
  | sequence _ p _ _ => (p.anchor.map fun a => (a, n)).toList
  | mapping _ p _ _ => (p.anchor.map fun a => (a, n)).toList
  | reference .. => []

mutual

/-- The anchored nodes in the order in which they start. -/
def anchors : Node → List (Nat × Node)
  | scalar m p s t => anchorOf (scalar m p s t)
  | reference .. => []
  | sequence m p items complete => anchorOf (sequence m p items complete) ++ anchorsAll items
  | mapping m p children complete => anchorOf (mapping m p children complete) ++ anchorsAll children

def anchorsAll : List Node → List (Nat × Node)
  | [] => []
  | n :: r => anchors n ++ anchorsAll r

end

end Node

/-- A text read as a single document. -/
structure Document where
  /-- The root; blank if the text is empty, nothing if it is broken before the root. -/
  root : Option Node
  /-- Whether the text is one sound document. -/
  sound : Bool

namespace Document

/-- The node with an anchor number: the last one that starts in the document. -/
def target? (d : Document) (anchor : Nat) : Option Node :=
  (d.root.map Node.anchors).getD [] |>.reverse.lookup anchor

/-- How many aliases may be followed. -/
def aliasLimit (d : Document) : Nat := 100 * (d.root.map Node.size).getD 1

end Document

end MarketingForm.Yaml
