import DocSplice.Action

/-!
# Errors of storage

A storage operation fails at a path: a call was refused there, or the file could not be held.
-/
namespace DocSplice

/-- Why a storage operation failed, and where. -/
inductive StorageError where
  | fault (path : NativePath) (f : Fault)
  | notHeld (path : NativePath)
deriving DecidableEq, Repr

namespace StorageError

/-- The path at which the operation failed. -/
def path : StorageError → NativePath
  | fault p _ => p
  | notHeld p => p

/-- Whether the error says that the file does not exist. -/
def isNotFound : StorageError → Bool
  | fault _ (.refused .notFound) => true
  | _ => false

/-- What a message says about the error. -/
def message : StorageError → Text
  | fault p f => "I/O error at ".toList ++ p.shown ++ ": ".toList ++ f.message
  | notHeld p => "Lock acquisition failed for ".toList ++ p.shown

end StorageError

/-- An action that can fail. -/
abbrev Task (H ε α : Type) := ExceptT ε (Action H) α

namespace Task

variable {H ε ε' α : Type}

/-- The task of one call, with its fault turned into an error. -/
def ofCall (act : Action H (Except Fault α)) (error : Fault → ε) : Task H ε α :=
  ExceptT.mk ((·.mapError error) <$> act)

/-- The task of one call on a path. -/
def onPath (path : NativePath) (act : Action H (Except Fault α)) : Task H StorageError α :=
  ofCall act (.fault path)

end Task
end DocSplice
