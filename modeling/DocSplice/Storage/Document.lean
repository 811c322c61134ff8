import DocSplice.Storage.Replace

/-!
# Reading and writing documents

A document is stored as its UTF-8 octets. Reading refuses a file that is not text.
-/
namespace DocSplice.Storage

variable {H : Type}

/-- Reads the document at the path. -/
def readText (path : PortablePath) : Action H (Except StorageError Text) := do
  match ← Action.read path.native with
  | .error f => pure (.error (.fault path.native f))
  | .ok content =>
    match Utf8.decode? content with
    | none => pure (.error (.fault path.native .notText))
    | some text =>
      Action.note (.textRead path content.length)
      pure (.ok text)

/-- Replaces the document at the path. -/
def writeText (pid : Nat) (path : PortablePath) (text : Text) :
    Action H (Except StorageError Unit) := do
  let content := Utf8.encode text
  match ← replace pid path content with
  | .error e => pure (.error e)
  | .ok () =>
    Action.note (.textWritten path content.length)
    pure (.ok ())

end DocSplice.Storage
