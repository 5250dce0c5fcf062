import MarketingForm.Files.Tree
import MarketingForm.Text.Utf8

/-!
# Disks

The program speaks to a disk through few operations, each of which fails with a cause. A directory
tree is a disk: its paths are resolved from the root, which is also the working directory, one
segment after another. It fails only where its shape is in the way, and then it stays as it is; a
disk that can also fail in other ways is a `Device`.
-/

namespace MarketingForm.Files

/-- Why an operation on a disk fails. -/
inductive FileError where
  | notFound
  | alreadyExists
  | notDirectory
  | isDirectory
  | nameTooLong
  | busy
  | nulInPath
  | notText
  /-- Any other cause, in the words of the system. -/
  | other (text : String)
deriving DecidableEq

def FileError.message : FileError → String
  | notFound => "No such file or directory (os error 2)"
  | alreadyExists => "File exists (os error 17)"
  | notDirectory => "Not a directory (os error 20)"
  | isDirectory => "Is a directory (os error 21)"
  | nameTooLong => "File name too long (os error 36)"
  | busy => "Device or resource busy (os error 16)"
  | nulInPath => "file name contained an unexpected NUL byte"
  | notText => "stream did not contain valid UTF-8"
  | other text => text

/-- The operations of a disk. -/
class Disk (m : Type → Type) where
  /-- Whether anything lies at a path. -/
  exists? : String → m Bool
  /-- Whether a directory lies at a path. -/
  isDir : String → m Bool
  readBytes : String → ExceptT FileError m ByteArray
  /-- Creates or overwrites a file. -/
  writeBytes : String → ByteArray → ExceptT FileError m Unit
  /-- Creates one directory. -/
  makeDir : String → ExceptT FileError m Unit
  /-- Moves a file; a file that lies at the new path is replaced. -/
  move : String → String → ExceptT FileError m Unit
  /-- Removes a file. -/
  remove : String → ExceptT FileError m Unit

/-! ### Paths in a tree -/

/-- The most bytes that a name may have. -/
def nameLimit : Nat := 255

/-- One more than the most bytes that a path may have. -/
def pathLimit : Nat := 4096

/-- A path as the system takes it. -/
structure Route where
  segments : List Segment
  /-- Whether the path ends in a slash. -/
  slashed : Bool

/-- The route of a path that is neither empty nor too long. -/
def route (path : String) : Except FileError Route :=
  let cs := path.toList
  if '\x00' ∈ cs then .error .nulInPath
  else if cs.isEmpty then .error .notFound
  else if pathLimit ≤ Text.utf8Length cs then .error .nameTooLong
  else .ok ⟨(segments cs).filter fun s => !s.isEmpty, cs.getLast? == some '/'⟩

namespace Tree

/-- One step from a place: the tree must have a directory there. -/
def step (t : Tree) (loc : Location) (s : Segment) : Except FileError Location :=
  match t.get? loc with
  | some (dir es) =>
    if s = ['.'] then .ok loc
    else if s = ['.', '.'] then .ok loc.dropLast
    else if nameLimit < Text.utf8Length s then .error .nameTooLong
    else if (es.lookup s).isSome then .ok (loc ++ [s])
    else .error .notFound
  | some (file _) => .error .notDirectory
  | none => .error .notFound

/-- The place at the end of some steps. -/
def walk (t : Tree) (loc : Location) : List Segment → Except FileError Location
  | [] => .ok loc
  | s :: r => (t.step loc s).bind fun loc => t.walk loc r

/-- The place of a path where something lies. -/
def locate (t : Tree) (path : String) : Except FileError Location := do
  let r ← route path
  let loc ← t.walk [] r.segments
  match t.get? loc with
  | some (file _) => if r.slashed then .error .notDirectory else .ok loc
  | _ => .ok loc

/-- A place where something may be created or replaced. -/
structure Target where
  location : Location
  /-- Whether the path ends in a slash. -/
  slashed : Bool

/-- What the last segment of a path names. -/
inductive Ending where
  /-- The root or a segment of dots. -/
  | dots (location : Location)
  | name (target : Target)

/-- The place of a path whose directory is there, though the path itself need not be. -/
def locateParent (t : Tree) (path : String) : Except FileError Ending := do
  let r ← route path
  match r.segments.getLast? with
  | none => .ok (.dots [])
  | some last =>
    let loc ← t.walk [] r.segments.dropLast
    match t.get? loc with
    | some (dir _) =>
      if last = ['.'] then .ok (.dots loc)
      else if last = ['.', '.'] then .ok (.dots loc.dropLast)
      else if nameLimit < Text.utf8Length last then .error .nameTooLong
      else .ok (.name ⟨loc ++ [last], r.slashed⟩)
    | some (file _) => .error .notDirectory
    | none => .error .notFound

/-! ### Operations on a tree -/

def read (t : Tree) (path : String) : Except FileError ByteArray := do
  let loc ← t.locate path
  match t.get? loc with
  | some (file c) => .ok c
  | some (dir _) => .error .isDirectory
  | none => .error .notFound

def write (t : Tree) (path : String) (content : ByteArray) : Except FileError Tree := do
  match ← t.locateParent path with
  | .dots _ => .error .isDirectory
  | .name ⟨loc, slashed⟩ =>
    if slashed then .error .isDirectory
    else
      match t.get? loc with
      | some (dir _) => .error .isDirectory
      | _ => .ok (t.put loc (file content))

def makeDir (t : Tree) (path : String) : Except FileError Tree := do
  match ← t.locateParent path with
  | .dots _ => .error .alreadyExists
  | .name ⟨loc, _⟩ =>
    match t.get? loc with
    | some _ => .error .alreadyExists
    | none => .ok (t.put loc empty)

/-- Moves a file. Onto a path with a slash at its end, or onto a directory, it cannot go. -/
def move (t : Tree) (source target : String) : Except FileError Tree := do
  let _ ← route source
  let _ ← route target
  let src ← t.locateParent source
  let dst ← t.locateParent target
  match src, dst with
  | .name src, .name dst =>
    match t.get? src.location with
    | none => .error .notFound
    | some (dir _) => .error .isDirectory
    | some (file c) =>
      if src.slashed || dst.slashed then .error .notDirectory
      else
        match t.get? dst.location with
        | some (dir _) => .error .isDirectory
        | _ =>
          if src.location = dst.location then .ok t
          else .ok ((t.erase src.location).put dst.location (file c))
  | _, _ => .error .busy

def remove (t : Tree) (path : String) : Except FileError Tree := do
  let loc ← t.locate path
  match t.get? loc with
  | some (file _) => .ok (t.erase loc)
  | some (dir _) => .error .isDirectory
  | none => .error .notFound

end Tree

/-- Carries out a change of a tree; on an error the tree stays as it is. -/
def change (f : Tree → Except FileError Tree) : StateM Tree (Except FileError Unit) := fun t =>
  match f t with
  | .ok u => (.ok (), u)
  | .error e => (.error e, t)

instance : Disk (StateM Tree) where
  exists? path := fun t => ((t.locate path).isOk, t)
  isDir path := fun t =>
    (match t.locate path with
      | .ok loc => (t.get? loc).any Tree.isDir
      | .error _ => false, t)
  readBytes path := fun t => (t.read path, t)
  writeBytes path content := change fun t => t.write path content
  makeDir path := change fun t => t.makeDir path
  move source target := change fun t => t.move source target
  remove path := change fun t => t.remove path

/-! ### Derived operations -/

section

variable {m : Type → Type} [Monad m] [Disk m]

/-- Reads a file as a text. -/
def readText (path : String) : ExceptT FileError m String := do
  let bytes ← Disk.readBytes path
  match String.fromUTF8? bytes with
  | some s => pure s
  | none => throw .notText

/-- Reads a file as a text if it is there. -/
def readText? (path : String) : ExceptT FileError m (Option String) :=
  tryCatch (some <$> readText path) fun e => if e = .notFound then pure none else throw e

/-- Writes a text. -/
def writeText (path text : String) : ExceptT FileError m Unit := Disk.writeBytes path text.toUTF8

/-- Creates a directory; an error counts only if there is none. -/
def ensureDir (path : String) : ExceptT FileError m Unit :=
  tryCatch (Disk.makeDir path) fun e => do
    if ← (Disk.isDir path : m Bool) then pure () else throw e

/-- Creates a directory, and before it its parents up to some number of levels. -/
def makeDirsTo : Nat → String → ExceptT FileError m Unit
  | 0, _ => pure ()
  | depth + 1, path =>
    if path = "" then pure ()
    else
      tryCatch (Disk.makeDir path) fun e => do
        if e = .notFound then
          match parent? path with
          | some parent =>
            makeDirsTo depth parent
            ensureDir path
          | none => throw e
        else if ← (Disk.isDir path : m Bool) then pure ()
        else throw e

/-- Creates a directory with all its parents; one that is there already is fine. -/
def makeDirs (path : String) : ExceptT FileError m Unit := makeDirsTo (path.length + 1) path

/-- Writes a text at a path by way of a file beside it, which is gone afterwards. If the move fails,
the error is passed on as `moved` sees it; an error in writing is passed on as `written` sees it. -/
def replaceText {ε : Type} (beside path text : String) (written moved : FileError → ε) :
    ExceptT ε m Unit := do
  (writeText beside text).adapt written
  tryCatch ((Disk.move beside path).adapt moved) fun e => do
    let _ ← (Disk.remove beside : ExceptT FileError m Unit).run
    throw e

end

end MarketingForm.Files
