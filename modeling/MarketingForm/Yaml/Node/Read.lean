import MarketingForm.Yaml.Node

/-!
# Reading nodes from tokens

The readers follow the nesting of the tokens. Each returns what could be read, and the state behind
it unless the text broke on the way.
-/

namespace MarketingForm.Yaml

/-- The tokens to come, and the numbers of the anchors that have been set. -/
structure Source where
  tokens : List Token
  anchors : List (List Char × Nat)

/-- The prefixes that tag handles stand for. -/
abbrev Handles := List (List Char × List Char)

namespace Source

/-- The source after its first token. -/
def next (s : Source) : Source := { s with tokens := s.tokens.drop 1 }

def head? (s : Source) : Option Token := s.tokens.head?

/-- Sets an anchor: its number is the count of the names so far. -/
def setAnchor (s : Source) (name : Option (List Char)) : Option Nat × Source :=
  match name with
  | none => (none, s)
  | some name =>
    let n := s.anchors.length
    (some n, { s with anchors := (name, n) :: s.anchors.filter fun a => a.1 != name })

end Source

/-- An anchor and a tag, in either order, before a node. -/
structure Prelude where
  anchor : Option (List Char)
  tag : Option (List Char × List Char)
  /-- Where the first of them starts. -/
  mark : Option Mark

/-- Reads the anchor and the tag before a node. -/
def readPrelude (s : Source) : Prelude × Source :=
  match s.tokens with
  | ⟨.anchor a, m, _⟩ :: ⟨.tag h t, _, _⟩ :: r =>
    (⟨some a, some (h, t), some m⟩, { s with tokens := r })
  | ⟨.tag h t, m, _⟩ :: ⟨.anchor a, _, _⟩ :: r =>
    (⟨some a, some (h, t), some m⟩, { s with tokens := r })
  | ⟨.anchor a, m, _⟩ :: r => (⟨some a, none, some m⟩, { s with tokens := r })
  | ⟨.tag h t, m, _⟩ :: r => (⟨none, some (h, t), some m⟩, { s with tokens := r })
  | _ => (⟨none, none, none⟩, s)

/-- The full tag of a handle and a suffix; nothing if the handle is unknown. -/
def fullTag (handles : Handles) : List Char × List Char → Option (List Char)
  | ([], suffix) => some suffix
  | (handle, suffix) => (handles.lookup handle).map (· ++ suffix)

/-- Whether a node of its own starts at a token, instead of a blank one before an indicator. -/
def hasNode (stops : List TokenKind) (t : Token) : Bool := !stops.contains t.kind

mutual

/-- Reads a node. In block context block collections may start; `indentless` tells that a sequence
may stand without being indented. The fuel bounds the number of tokens. -/
def readNode (handles : Handles) (block indentless : Bool) (s : Source) :
    Nat → Option Node × Option Source
  | 0 => (none, none)
  | fuel + 1 =>
    match s.tokens with
    | ⟨.reference name, m, _⟩ :: _ =>
      match s.anchors.lookup name with
      | some n => (some (.reference m n), some s.next)
      | none => (none, none)
    | _ =>
      let (pre, s) := readPrelude s
      match s.head?, (match pre.tag with
        | none => some none
        | some t => (fullTag handles t).map some) with
      | none, _ => (none, none)
      | _, none => (none, none)
      | some t, some tag =>
        let mark := pre.mark.getD t.start
        let (anchor, s) := s.setAnchor pre.anchor
        let props : Props := ⟨tag.filter fun t => !t.isEmpty, anchor⟩
        let sequence (p : List Node × Option Source) : Option Node × Option Source :=
          (some (.sequence mark props p.1 p.2.isSome), p.2)
        let mapping (p : List Node × Option Source) : Option Node × Option Source :=
          (some (.mapping mark props p.1 p.2.isSome), p.2)
        match t.kind with
        | .scalar text style =>
          (some (.scalar mark props.withoutLoneMark style text), some s.next)
        | .flowSequenceStart => sequence (readFlowItems handles true s.next fuel)
        | .flowMappingStart => mapping (readFlowEntries handles true s.next fuel)
        | .blockSequenceStart =>
          if block then sequence (readBlockItems handles s.next fuel)
          else readEmpty props pre mark s
        | .blockMappingStart =>
          if block then mapping (readBlockEntries handles s.next fuel)
          else readEmpty props pre mark s
        | .blockEntry =>
          if indentless then sequence (readIndentlessItems handles s fuel)
          else readEmpty props pre mark s
        | _ => readEmpty props pre mark s

/-- An anchor or a tag alone makes an empty scalar. -/
def readEmpty (props : Props) (pre : Prelude) (mark : Mark) (s : Source) :
    Option Node × Option Source :=
  if pre.mark.isSome then (some (.scalar mark props .plain []), some s) else (none, none)

/-- Reads a node, or a blank one where an indicator follows directly. -/
def readNodeUnless (handles : Handles) (stops : List TokenKind) (block indentless : Bool)
    (blankAt : Mark) (s : Source) : Nat → Option Node × Option Source
  | 0 => (none, none)
  | fuel + 1 =>
    match s.head? with
    | none => (none, none)
    | some t =>
      if hasNode stops t then readNode handles block indentless s fuel
      else (some (.blank blankAt), some s)

/-- Reads the items of a block sequence up to its end. -/
def readBlockItems (handles : Handles) (s : Source) : Nat → List Node × Option Source
  | 0 => ([], none)
  | fuel + 1 =>
    match s.head? with
    | some ⟨.blockEntry, _, stop⟩ =>
      match readNodeUnless handles [.blockEntry, .blockEnd] true false stop s.next fuel with
      | (n, none) => (n.toList, none)
      | (n, some s) =>
        let (ns, rest) := readBlockItems handles s fuel
        (n.toList ++ ns, rest)
    | some ⟨.blockEnd, _, _⟩ => ([], some s.next)
    | _ => ([], none)

/-- Reads the items of a sequence that is not indented, up to the first token that is no item. -/
def readIndentlessItems (handles : Handles) (s : Source) : Nat → List Node × Option Source
  | 0 => ([], none)
  | fuel + 1 =>
    match s.head? with
    | some ⟨.blockEntry, _, stop⟩ =>
      match readNodeUnless handles [.blockEntry, .key, .value, .blockEnd] true false stop s.next
          fuel with
      | (n, none) => (n.toList, none)
      | (n, some s) =>
        let (ns, rest) := readIndentlessItems handles s fuel
        (n.toList ++ ns, rest)
    | some _ => ([], some s)
    | none => ([], none)

/-- Reads the entries of a block mapping up to its end. -/
def readBlockEntries (handles : Handles) (s : Source) : Nat → List Node × Option Source
  | 0 => ([], none)
  | fuel + 1 =>
    let readValue (key : Option Node) (s : Source) : List Node × Option Source :=
      match readBlockValue handles s fuel with
      | (v, none) => (key.toList ++ v.toList, none)
      | (v, some s) =>
        let (ns, rest) := readBlockEntries handles s fuel
        (key.toList ++ v.toList ++ ns, rest)
    match s.head? with
    | some ⟨.key, _, stop⟩ =>
      match readNodeUnless handles [.key, .value, .blockEnd] true true stop s.next fuel with
      | (k, none) => (k.toList, none)
      | (k, some s) => readValue k s
    | some ⟨.blockEnd, _, _⟩ => ([], some s.next)
    | _ => ([], none)

/-- Reads the value of a block mapping's entry; without a colon it is blank. -/
def readBlockValue (handles : Handles) (s : Source) : Nat → Option Node × Option Source
  | 0 => (none, none)
  | fuel + 1 =>
    match s.head? with
    | some ⟨.value, _, stop⟩ =>
      readNodeUnless handles [.key, .value, .blockEnd] true true stop s.next fuel
    | some t => (some (.blank t.start), some s)
    | none => (none, none)

/-- Reads the items of a flow sequence up to its end. -/
def readFlowItems (handles : Handles) (first : Bool) (s : Source) : Nat → List Node × Option Source
  | 0 => ([], none)
  | fuel + 1 =>
    let readOn (s : Source) : List Node × Option Source :=
      let after (p : Option Node × Option Source) : List Node × Option Source :=
        match p with
        | (n, none) => (n.toList, none)
        | (n, some s) =>
          let (ns, rest) := readFlowItems handles false s fuel
          (n.toList ++ ns, rest)
      match s.head? with
      | none => ([], none)
      | some ⟨.flowSequenceEnd, _, _⟩ => ([], some s.next)
      | some ⟨.key, m, _⟩ =>
        let (ns, rest) := readFlowPair handles s.next fuel
        let rest := rest.filter fun s => !s.tokens.isEmpty
        after (some (.mapping m .bare ns rest.isSome), rest)
      | some _ => after (readNode handles false false s fuel)
    match s.head? with
    | none => ([], none)
    | some ⟨.flowSequenceEnd, _, _⟩ => ([], some s.next)
    | some ⟨.flowEntry, _, _⟩ => if first then readOn s else readOn s.next
    | some _ => if first then readOn s else ([], none)

/-- Reads the single entry of a mapping inside a flow sequence, after its key indicator. -/
def readFlowPair (handles : Handles) (s : Source) : Nat → List Node × Option Source
  | 0 => ([], none)
  | fuel + 1 =>
    let readValue (key : Node) (s : Source) : List Node × Option Source :=
      match s.head? with
      | none => ([key], none)
      | some ⟨.value, _, _⟩ =>
        match s.next.head? with
        | none => ([key], none)
        | some t =>
          let (v, rest) :=
            readNodeUnless handles [.flowEntry, .flowSequenceEnd] false false t.start s.next fuel
          (key :: v.toList, rest)
      | some t => ([key, .blank t.start], some s)
    match s.head? with
    | none => ([], none)
    | some t =>
      if hasNode [.value, .flowEntry, .flowSequenceEnd] t then
        match readNode handles false false s fuel with
        | (some k, some s) => readValue k s
        | (k, _) => (k.toList, none)
      else readValue (.blank t.stop) s.next

/-- Reads the entries of a flow mapping up to its end. -/
def readFlowEntries (handles : Handles) (first : Bool) (s : Source) :
    Nat → List Node × Option Source
  | 0 => ([], none)
  | fuel + 1 =>
    let next (ns : List Node) (s : Source) : List Node × Option Source :=
      let (more, rest) := readFlowEntries handles false s fuel
      (ns ++ more, rest)
    let readValue (key : Node) (s : Source) : List Node × Option Source :=
      match s.head? with
      | none => ([key], none)
      | some ⟨.value, _, _⟩ =>
        match s.next.head? with
        | none => ([key], none)
        | some t =>
          match readNodeUnless handles [.flowEntry, .flowMappingEnd] false false t.start s.next
              fuel with
          | (v, none) => (key :: v.toList, none)
          | (v, some s) => next (key :: v.toList) s
      | some t => next [key, .blank t.start] s
    let readOn (s : Source) : List Node × Option Source :=
      match s.head? with
      | none => ([], none)
      | some ⟨.flowMappingEnd, _, _⟩ => ([], some s.next)
      | some ⟨.key, _, _⟩ =>
        match s.next.head? with
        | none => ([], none)
        | some t =>
          match readNodeUnless handles [.value, .flowEntry, .flowMappingEnd] false false t.start
              s.next fuel with
          | (some k, some s) => readValue k s
          | (k, _) => (k.toList, none)
      | some _ =>
        match readNode handles false false s fuel with
        | (some k, some s) =>
          match s.head? with
          | none => ([k], none)
          | some t => next [k, .blank t.start] s
        | (k, _) => (k.toList, none)
    match s.head? with
    | none => ([], none)
    | some ⟨.flowMappingEnd, _, _⟩ => ([], some s.next)
    | some ⟨.flowEntry, _, _⟩ => if first then readOn s else readOn s.next
    | some _ => if first then readOn s else ([], none)

end

/-! ### Documents -/

/-- The handles that every document knows. -/
def standardHandles : Handles :=
  [(['!'], ['!']), (['!', '!'], "tag:yaml.org,2002:".toList)]

/-- Reads the directives of a document: at most one version, each handle once. -/
def readDirectives (versioned : Bool) (handles : Handles) :
    List Token → Option (Handles × List Token)
  | ⟨.version major minor, _, _⟩ :: r =>
    if versioned || major != 1 || (minor != 1 && minor != 2) then none
    else readDirectives true handles r
  | ⟨.tagDirective handle lead, _, _⟩ :: r =>
    if (handles.lookup handle).isSome then none
    else readDirectives versioned ((handle, lead) :: handles) r
  | r => some (handles, r)

/-- Whether nothing but document ends follows a document. -/
def endsStream : List Token → Bool
  | ⟨.documentEnd, _, _⟩ :: r => endsStream r
  | ⟨.streamEnd, _, _⟩ :: _ => true
  | _ => false

/-- A document with a root, or cut before it. -/
def finishDocument (p : Option Node × Option Source) : Document :=
  ⟨p.1, p.2.any fun s => endsStream s.tokens⟩

/-- A text that breaks before the first node. -/
def brokenDocument : Document := ⟨none, false⟩

/-- Whether a token behind the start of a document leaves it without a root. -/
def endsContent : TokenKind → Bool
  | .version .. | .tagDirective .. | .documentStart | .documentEnd | .streamEnd => true
  | _ => false

/-- Reads a document that starts with directives or a marker. -/
def readExplicit (ts : List Token) : Document :=
  match readDirectives false [] ts with
  | some (handles, ⟨.documentStart, _, _⟩ :: r) =>
    match r with
    | [] => brokenDocument
    | t :: _ =>
      if endsContent t.kind then finishDocument (some (.blank t.start), some ⟨r, []⟩)
      else finishDocument
        (readNode (handles ++ standardHandles) true false ⟨r, []⟩ (4 * r.length + 8))
  | _ => brokenDocument

/-- Reads the tokens of a text as a single document. -/
def readDocument (ts : List Token) : Document :=
  match ts with
  | [] => brokenDocument
  | ⟨.streamEnd, m, _⟩ :: _ => ⟨some (.blank m), true⟩
  | ⟨.version .., _, _⟩ :: _ => readExplicit ts
  | ⟨.tagDirective .., _, _⟩ :: _ => readExplicit ts
  | ⟨.documentStart, _, _⟩ :: _ => readExplicit ts
  | _ => finishDocument (readNode standardHandles true false ⟨ts, []⟩ (4 * ts.length + 8))

/-- Reads a text as a single document. -/
def parse (text : String) : Document := readDocument (tokens text.toList)

end MarketingForm.Yaml
