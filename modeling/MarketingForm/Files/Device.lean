import MarketingForm.Files.Disk

/-!
# Devices

A tree on a device that can fail. Each operation may be refused before it does anything, for causes
that the tree knows nothing of. A write may also stop behind the creation of its file, with a part of
the content only: on a full device, say. All other operations are carried out as a whole or not at
all, and a question that is refused is answered as if there were nothing.
-/

namespace MarketingForm.Files

/-- What a disk is asked for. -/
inductive Operation where
  | exists? (path : String)
  | isDir (path : String)
  | read (path : String)
  | write (path : String)
  | makeDir (path : String)
  | move (source target : String)
  | remove (path : String)
deriving DecidableEq

/-- What goes wrong with an operation. -/
inductive Trouble where
  /-- It is refused before it does anything. -/
  | refused (cause : FileError)
  /-- A write stops when its file holds so many bytes of the content; any other operation is
  refused. -/
  | stopped (bytes : Nat) (cause : FileError)
deriving DecidableEq

def Trouble.cause : Trouble → FileError
  | refused cause | stopped _ cause => cause

/-- What goes wrong with each operation, by the number of those before it. -/
abbrev Troubles := Nat → Operation → Option Trouble

/-- A tree on a device with troubles, and the number of operations so far. -/
structure Device (troubles : Troubles) where
  tree : Tree
  tried : Nat

namespace Device

variable {troubles : Troubles} {α : Type}

/-- The device with another tree, one operation later. -/
def after (d : Device troubles) (t : Tree) : Device troubles := ⟨t, d.tried + 1⟩

/-- Carries out an operation on the tree, unless something goes wrong with it. -/
def attempt (op : Operation) (x : StateM Tree α) (refused : FileError → α) :
    StateM (Device troubles) α := fun d =>
  match troubles d.tried op with
  | none =>
    match x d.tree with
    | (a, t) => (a, d.after t)
  | some trouble => (refused trouble.cause, d.after d.tree)

/-- Writes a file, or a part of it. -/
def write (path : String) (content : ByteArray) :
    StateM (Device troubles) (Except FileError Unit) := fun d =>
  match troubles d.tried (.write path) with
  | some (.stopped bytes cause) =>
    match d.tree.write path (content.extract 0 bytes) with
    | .ok t => (.error cause, d.after t)
    | .error e => (.error e, d.after d.tree)
  | _ => attempt (.write path) (Disk.writeBytes (m := StateM Tree) path content) .error d

end Device

instance (troubles : Troubles) : Disk (StateM (Device troubles)) where
  exists? path := Device.attempt (.exists? path) (Disk.exists? path) fun _ => false
  isDir path := Device.attempt (.isDir path) (Disk.isDir path) fun _ => false
  readBytes path :=
    Device.attempt (.read path) (Disk.readBytes (m := StateM Tree) path) .error
  writeBytes path content := Device.write path content
  makeDir path := Device.attempt (.makeDir path) (Disk.makeDir (m := StateM Tree) path) .error
  move source target :=
    Device.attempt (.move source target) (Disk.move (m := StateM Tree) source target) .error
  remove path := Device.attempt (.remove path) (Disk.remove (m := StateM Tree) path) .error

end MarketingForm.Files
