import DocSplice.Storage.Error

/-!
# Replacing a file

A file is replaced as a whole: the new content is written to a temporary file beside it, which then takes
its place. Links are followed first, so that a link stays and the file behind it is replaced. A file that
exists must be open to writing and passes its mode on. If a step fails, the temporary file is removed.
-/
namespace DocSplice.Storage

variable {H : Type}

/-- The file that a write to the path lands on: the end of its links if it exists, else the path. -/
def landing (path : NativePath) : Action H (Except StorageError NativePath) := do
  match ← Action.realPath path with
  | .ok real =>
    match ← Action.probe real with
    | .ok () => pure (.ok real)
    | .error f => pure (.error (.fault path f))
  | .error (.refused .notFound) => pure (.ok path)
  | .error f => pure (.error (.fault path f))

/-- The name of the temporary file for a target, which holds the number of the process. -/
def temporaryName (pid : Nat) (target : NativePath) : Octets :=
  Utf8.encode ('.' :: ((NativePath.fileName? target).map Utf8.decodeLossy).getD []
    ++ '.' :: Text.ofNat pid ++ ".tmp".toList)

/-- The path of the temporary file for a target. -/
def temporaryPath (pid : Nat) (target : NativePath) : NativePath :=
  target.withFileName (temporaryName pid target)

/-- Gives the open file the mode of the target, if the target has one. -/
def passMode (temp target : NativePath) (file : H) : Action H (Except StorageError Unit) := do
  match ← Action.modeOf target with
  | .ok mode => (·.mapError (.fault temp)) <$> Action.setMode file mode
  | .error _ => pure (.ok ())

/-- Writes the content to the temporary file and moves it to the target. -/
def fillAndMove (temp target : NativePath) (content : Octets) : Task H StorageError Unit := do
  let file ← Task.onPath temp (Action.create temp)
  Task.ofCall (Action.lock file) fun _ => .notHeld target
  ExceptT.mk (passMode temp target file)
  Task.onPath temp (Action.write file content)
  Task.onPath temp (Action.sync file)
  Task.ofCall (Action.unlock file) fun _ => .notHeld target
  Task.onPath target (Action.rename temp target)

/-- Replaces the content of the file at the path. -/
def replace (pid : Nat) (path : PortablePath) (content : Octets) :
    Action H (Except StorageError Unit) := do
  match ← landing path.native with
  | .error e => pure (.error e)
  | .ok target =>
    let temp := temporaryPath pid target
    match ← (fillAndMove temp target content).run with
    | .ok () => pure (.ok ())
    | .error e =>
      let _ ← Action.unlink temp
      pure (.error e)

end DocSplice.Storage
