import MarketingForm.Yaml.Fault
import MarketingForm.Yaml.Node.Read

/-!
# Decoding nodes

A decoder reads a value from a node at a spot of a document. It goes through the document in the
order of the text, so of two faults the first one counts, and a break in the text counts where the
reading reaches it. Aliases are followed where a value is needed; values that nobody asks for are
passed over.
-/

namespace MarketingForm.Yaml

/-- A reading of a document that counts the aliases it follows. -/
abbrev Decode (α : Type) := ReaderT Document (StateT Nat (Except Fault)) α

/-- A path in a document and how many more collections may nest there. -/
structure Spot where
  path : Path
  depth : Nat

/-- The depth to which collections may nest. -/
def nestingLimit : Nat := 128

namespace Spot

def root : Spot := ⟨.root, nestingLimit⟩

def item (s : Spot) (i : Nat) : Spot := { s with path := .item s.path i }

/-- The spot of the value that belongs to a key. -/
def child (s : Spot) (key : Node) : Spot := { s with path := s.path.child key }

end Spot

/-- A way to read a node as a value. -/
abbrev Decoder (α : Type) := Spot → Node → Decode α

/-- A fault whose place is not known yet. -/
def mismatch {α : Type} (cause : Cause) : Decode α := throw (.mismatch cause none)

/-- The text breaks here. -/
def broken {α : Type} : Decode α := throw .broken

/-- Gives the faults of a reading the place of a node. -/
def placedAt {α : Type} (s : Spot) (m : Mark) (read : Decode α) : Decode α :=
  fun d n => (read d n).mapError fun f => f.placed ⟨s.path, m⟩

/-- The node that an alias stands for; any other node stands for itself. -/
def follow (n : Node) : Decode Node := do
  match n with
  | .reference _ anchor =>
    let d ← read
    let count ← getModify (· + 1)
    if d.aliasLimit ≤ count then throw .tooManyAliases
    else
      match d.target? anchor with
      | some t => pure t
      | none => broken
  | n => pure n

/-- Passes over a node without a look at it. -/
def passOver (n : Node) : Decode Unit := if n.isComplete then pure () else broken

/-! ### Scalars -/

/-- The tags of the standard schema. -/
def schemaTag (name : String) : Option (List Char) := some ("tag:yaml.org,2002:" ++ name).toList

/-- The name of a local tag, which starts with a mark. -/
def Props.localTag? (p : Props) : Option (List Char) :=
  match p.tag with
  | some ['!'] => some ['!']
  | some ('!' :: name) => some name
  | _ => none

/-- The name of a node's local tag. -/
def Node.localTag? : Node → Option (List Char)
  | scalar _ p _ _ => p.localTag?
  | sequence _ p _ _ => p.localTag?
  | mapping _ p _ _ => p.localTag?
  | reference .. => none

/-- What a scalar means: a tag of the schema forces a type, another tag that is not local makes a
text, and so do quotes. -/
def scalarMeaning (p : Props) (style : Style) (text : List Char) : Except Cause Meaning :=
  if p.tag = schemaTag "bool" then
    match boolean? text with
    | some b => .ok (.boolean b)
    | none => .error (.wrongText text "a boolean")
  else if p.tag = schemaTag "int" then
    match integer? text with
    | some n => .ok n
    | none => .error (.wrongText text "an integer")
  else if p.tag = schemaTag "float" then
    match real? text with
    | some x => .ok (.real x)
    | none => .error (.wrongText text "a float")
  else if p.tag = schemaTag "null" then
    if isNullWord text then .ok .null else .error (.wrongText text "null")
  else if style = .plain ∧ (p.tag.isNone || p.localTag?.isSome) = true then .ok (meaning text)
  else .ok (.text text)

/-- The fault of a node that is not what was expected. -/
def unexpected {α : Type} (n : Node) (expected : String) : Decode α :=
  match n with
  | .scalar _ p style text =>
    match scalarMeaning p style text with
    | .ok m => mismatch (.wrongType (.scalar m) expected)
    | .error c => mismatch c
  | .sequence .. => mismatch (.wrongType .sequence expected)
  | .mapping .. => mismatch (.wrongType .mapping expected)
  | .reference .. => broken

/-- Reads the text of a scalar, whatever it means. -/
def textOf (expected : String) : Decoder String := fun s n => do
  let t ← follow n
  placedAt s t.mark <|
    match t with
    | .scalar _ _ _ text => pure (String.ofList text)
    | t => unexpected t expected

/-- Reads any text. -/
def text : Decoder String := textOf "a string"

/-- Reads a value that a null may stand for the lack of. -/
def optional {α : Type} (decode : Decoder α) : Decoder (Option α) := fun s n => do
  let t ← follow n
  match t with
  | .scalar _ p .plain text =>
    if p.tag.isSome && p.tag != schemaTag "null" then some <$> decode s t
    else if isNullWord text || (p.tag.isNone && text.isEmpty) then pure none
    else if p.tag.isSome then mismatch (.wrongText text "null")
    else some <$> decode s t
  | t => some <$> decode s t

/-! ### Collections -/

/-- One level further down; at the limit the document is refused. -/
def nested {α : Type} (s : Spot) (m : Mark) (read : Spot → Decode α) : Decode α :=
  match s.depth with
  | 0 => throw (.tooDeep m)
  | depth + 1 => read { s with depth := depth }

/-- Reads the items of a sequence in turn. -/
def itemsFrom {α : Type} (decode : Decoder α) (s : Spot) (complete : Bool) (i : Nat) :
    List Node → Decode (List α)
  | [] => if complete then pure [] else broken
  | n :: r => do
    let x ← decode (s.item i) n
    let xs ← itemsFrom decode s complete (i + 1) r
    pure (x :: xs)

/-- Whether a node may stand for an empty collection. -/
def isBlank (n : Node) : Bool :=
  match n with
  | .scalar _ _ .plain [] => true
  | _ => false

/-- Reads a sequence. -/
def sequenceOf {α : Type} (decode : Decoder α) : Decoder (List α) := fun s n => do
  let t ← follow n
  placedAt s t.mark <|
    match t with
    | .sequence m _ items complete =>
      nested s m fun s => itemsFrom decode s complete 0 items
    | t => if isBlank t then pure [] else unexpected t "a sequence"

/-- How the entries of a mapping are read into a state, one after another. -/
structure EntryDecoder (σ κ : Type) where
  /-- Reads a key, before the value is looked at. -/
  key : σ → Decoder κ
  /-- Reads the value of a key into the state. -/
  value : κ → σ → Decoder σ

/-- Reads the entries of a mapping in turn. -/
def entriesFrom {σ κ : Type} (decode : EntryDecoder σ κ) (s : Spot) (complete : Bool) (acc : σ) :
    List Node → Decode σ
  | [] => if complete then pure acc else broken
  | [k] => do
    let _ ← decode.key acc s k
    broken
  | k :: v :: r => do
    let key ← decode.key acc s k
    let acc ← decode.value key acc (s.child k) v
    entriesFrom decode s complete acc r

/-- Reads a mapping from an initial state, and finishes the state at its end. -/
def mappingOf {σ κ α : Type} (expected : String) (decode : EntryDecoder σ κ) (initial : σ)
    (finish : σ → Decode α) : Decoder α := fun s n => do
  let t ← follow n
  placedAt s t.mark <|
    match t with
    | .mapping m _ children complete =>
      nested s m fun s => do finish (← entriesFrom decode s complete initial children)
    | t => if isBlank t then finish initial else unexpected t expected

/-- Reads the name of a field that has not been given yet. -/
def fieldName {σ : Type} (given : σ → String → Bool) (acc : σ) : Decoder String := fun s n => do
  let name ← textOf "field identifier" s n
  if given acc name then mismatch (.duplicateField name) else pure name

/-- The value of a field that must be given. -/
def required {α : Type} (name : String) : Option α → Decode α
  | some x => pure x
  | none => mismatch (.missingField name)

/-! ### Documents -/

/-- Decodes a document; it must be sound to its end. -/
def Document.decode {α : Type} (d : Document) (decode : Decoder α) : Except Fault α :=
  match d.root with
  | none => .error .broken
  | some n =>
    match decode .root n d 0 with
    | .error f => .error f
    | .ok (x, _) => if d.sound then .ok x else .error .broken

/-- Decodes a text. -/
def decodeText {α : Type} (decode : Decoder α) (text : String) : Except Fault α :=
  (parse text).decode decode

end MarketingForm.Yaml
