import MarketingForm.Form.Basic

/-!
# Edits

The three ways in which a form changes: a field is added, a field is removed, a property of a field
is set. A refused edit leaves the form as it was.
-/

namespace MarketingForm

/-- Why an edit was refused. -/
inductive EditError where
  | unknownType (key : String)
  | noField (id : FieldId)
  | outOfRange (index size : Nat)
deriving DecidableEq

def EditError.message : EditError → String
  | unknownType key => "unknown field type '" ++ key ++ "'"
  | noField id => "no field with id '" ++ id.text ++ "'"
  | outOfRange index size =>
    "insert position " ++ Text.decimal index ++ " is out of range for a form with " ++
      Text.decimal size ++ " fields"

namespace Form

/-- Inserts before a position; the size of the list appends. -/
def insertAt {α : Type} (x : α) (i : Nat) (xs : List α) : List α := xs.take i ++ x :: xs.drop i

/-- Adds a field of the kind under `key`, at the end or before a position. -/
def add (form : Form) (id : FieldId) (key : String) (index? : Option Nat) : Except EditError Form :=
  match Definition.lookup? key with
  | none => .error (.unknownType key)
  | some d =>
    match index? with
    | none => .ok { form with fields := form.fields ++ [Field.new d id] }
    | some i =>
      if i ≤ form.fields.length then
        .ok { form with fields := insertAt (Field.new d id) i form.fields }
      else .error (.outOfRange i form.fields.length)

/-- Takes the first field with an id out of a list. -/
def takeOut (id : FieldId) : List Field → Option (Field × List Field)
  | [] => none
  | f :: r => if f.id = id then some (f, r) else (takeOut id r).map fun p => (p.1, f :: p.2)

/-- Removes the first field with an id and returns it. -/
def remove (form : Form) (id : FieldId) : Except EditError (Field × Form) :=
  match takeOut id form.fields with
  | some (f, rest) => .ok (f, { form with fields := rest })
  | none => .error (.noField id)

/-- Changes the first field with an id. -/
def change (id : FieldId) (g : Field → Field) : List Field → Option (List Field)
  | [] => none
  | f :: r => if f.id = id then some (g f :: r) else (change id g r).map (f :: ·)

/-- Sets one property of the first field with an id. -/
def set (form : Form) (id : FieldId) (name : String) (v : Value) : Except EditError Form :=
  match change id (fun f => { f with props := f.props.insert name v }) form.fields with
  | some fields => .ok { form with fields := fields }
  | none => .error (.noField id)

end Form

end MarketingForm
