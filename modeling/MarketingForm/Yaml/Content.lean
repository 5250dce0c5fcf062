import MarketingForm.Yaml.Decode

/-!
# Untyped content

A node can be read before it is known which type it has. Integers of more than 64 bits and nodes
with a local tag are refused; null and floating-point numbers are kept apart from everything else.
-/

namespace MarketingForm.Yaml

/-- What a node holds when no type is asked for. -/
inductive Content where
  /-- Null or a floating-point number. -/
  | other
  | boolean (b : Bool)
  /-- An integer; `signed` tells that it is written with a minus sign. -/
  | integer (signed : Bool) (n : Int)
  | text (s : String)
  | sequence (items : List Content)
  | mapping (entries : List (Content × Content))
deriving Inhabited

namespace Content

/-- The content of a scalar with some meaning. -/
def ofMeaning : Meaning → Decode Content
  | .null => pure other
  | .boolean b => pure (boolean b)
  | .integer signed n => pure (integer signed n)
  | .wide n => mismatch (.wrongType (.scalar (.wide n)) "any value")
  | .real _ => pure other
  | .text s => pure (text (String.ofList s))

/-- Entries that are read one by one, the last one first. -/
def entryDecoder (decode : Decoder Content) : EntryDecoder (List (Content × Content)) Content :=
  ⟨fun _ s n => decode s n, fun k acc s n => do
    let v ← decode s n
    pure ((k, v) :: acc)⟩

/-- Reads a node whose children are read by `decode`; without it no collection may nest here. -/
def decodeWith (decode : Option (Decoder Content)) : Decoder Content := fun s n => do
  let t ← follow n
  let inner (m : Mark) (read : Decoder Content → Decode Content) : Decode Content :=
    match decode with
    | some d => read d
    | none => throw (.tooDeep m)
  placedAt s t.mark <|
    if t.localTag?.isSome then mismatch .localTag
    else
      match t with
      | .scalar _ p style word =>
        match scalarMeaning p style word with
        | .ok m => ofMeaning m
        | .error c => mismatch c
      | .sequence m _ items complete => inner m fun d => do
        let xs ← itemsFrom d s complete 0 items
        pure (.sequence xs)
      | .mapping m _ children complete => inner m fun d => do
        let es ← entriesFrom (entryDecoder d) s complete [] children
        pure (.mapping es.reverse)
      | .reference .. => broken

/-- Reads a node where collections may nest to a depth. -/
def decodeTo : Nat → Decoder Content
  | 0 => decodeWith none
  | depth + 1 => decodeWith (some (decodeTo depth))

/-- Reads any node. -/
def decode : Decoder Content := fun s n => decodeTo s.depth s n

end Content

end MarketingForm.Yaml
