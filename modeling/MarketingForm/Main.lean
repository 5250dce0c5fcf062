import MarketingForm.Command.Run

/-!
# The command line

Runs a command line on the disk of the machine and prints what it printed.
-/

namespace MarketingForm

open Files

/-- The cause of an error of the system. -/
def fileErrorOf (e : IO.Error) : FileError :=
  match e with
  | .noFileOrDirectory .. => .notFound
  | .alreadyExists .. => .alreadyExists
  | .inappropriateType _ code details =>
    if code = 20 then .notDirectory else if code = 21 then .isDirectory else .other details
  | .invalidArgument _ code details => if code = 36 then .nameTooLong else .other details
  | .resourceBusy code details => if code = 16 then .busy else .other details
  | e => .other (toString e)

/-- Does something at paths that the system can take. -/
def onDisk {α : Type} (paths : List String) (x : IO α) : ExceptT FileError IO α := ExceptT.mk do
  match paths.findSome? fun p => match route p with
    | .error e => some e
    | .ok _ => none with
  | some e => pure (.error e)
  | none =>
    match ← x.toBaseIO with
    | .ok a => pure (.ok a)
    | .error e => pure (.error (fileErrorOf e))

/-- The disk of the machine. -/
instance : Disk IO where
  exists? path := do
    match ← (onDisk [path] do ((← IO.currentDir) / path).metadata).run with
    | .ok _ => pure true
    | .error _ => pure false
  isDir path := do
    match ← (onDisk [path] do ((← IO.currentDir) / path).metadata).run with
    | .ok d => pure (d.type == .dir)
    | .error _ => pure false
  readBytes path := onDisk [path] (IO.FS.readBinFile path)
  writeBytes path content := onDisk [path] (IO.FS.writeBinFile path content)
  makeDir path := onDisk [path] (IO.FS.createDir path)
  move source target := onDisk [source, target] (IO.FS.rename source target)
  remove path := onDisk [path] (IO.FS.removeFile path)

/-- The milliseconds since 1970, read off a file that has just been made. -/
def currentMillis : IO Int := do
  let (_, path) ← IO.FS.createTempFile
  let ⟨secs, nanos⟩ := (← path.metadata).modified
  IO.FS.removeFile path
  pure (secs * 1000 + nanos.toNat / 1000000)

end MarketingForm

open MarketingForm in
def main (args : List String) : IO UInt32 := do
  let (newId, _) := IdSource.new.generate (← currentMillis)
  let home := (← IO.getEnv "HOME").getD ""
  let ending ← runWords newId home args
  IO.print ending.printed.out
  IO.eprint ending.printed.err
  pure ending.code.toUInt32
