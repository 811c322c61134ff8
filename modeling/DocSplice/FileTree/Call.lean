import DocSplice.Event
import DocSplice.FileTree.Access

/-!
# File calls

The calls through which an update touches the world, and the answer that each one gets. An open file is
known by a handle, whose type the calls leave open; on a tree it is the place of the file.
-/
namespace DocSplice

/-- A call on the world; `H` is the type of handles of open files. -/
inductive Call (H : Type) where
  /-- Read a whole file. -/
  | read (path : NativePath)
  /-- Follow all links of a path. -/
  | realPath (path : NativePath)
  /-- Try to open a file for writing, without changing it. -/
  | probe (path : NativePath)
  /-- Open a file for writing, created if it is missing and emptied if it is not. -/
  | create (path : NativePath)
  /-- Wait until no one else holds the file, and hold it. -/
  | lock (file : H)
  /-- Ask for the mode of an entry. -/
  | modeOf (path : NativePath)
  | setMode (file : H) (mode : Nat)
  /-- Add octets at the end of an open file. -/
  | write (file : H) (content : Octets)
  /-- Wait until the file is stored. -/
  | sync (file : H)
  | unlock (file : H)
  | rename (source target : NativePath)
  | unlink (path : NativePath)
  /-- Report an event. -/
  | note (event : Event)

namespace Call

/-- What a call answers. -/
@[reducible] def Answer {H : Type} : Call H → Type
  | read _ => Except Fault Octets
  | realPath _ => Except Fault NativePath
  | create _ => Except Fault H
  | modeOf _ => Except Fault Nat
  | note _ => Unit
  | _ => Except Fault Unit

/-- The answer of a call that may change the tree, and the tree after it. A failed call changes
nothing. -/
def settle {α : Type} (t : FileTree) (r : Except Fault (α × FileTree)) : Except Fault α × FileTree :=
  match r with
  | .ok (a, t') => (.ok a, t')
  | .error f => (.error f, t)

/-- What a call does to a tree, for a process with the given working directory. -/
def perform (cwd : Place) : (c : Call Place) → FileTree → c.Answer × FileTree
  | read path, t => (t.read cwd path, t)
  | realPath path, t => (t.realPath cwd path, t)
  | probe path, t => (t.probe cwd path, t)
  | create path, t => settle t (t.create cwd path)
  | lock _, t => (.ok (), t)
  | modeOf path, t => (t.modeOf cwd path, t)
  | setMode file mode, t => (.ok (), t.setMode file mode)
  | write file content, t => (.ok (), t.append file content)
  | sync _, t => (.ok (), t)
  | unlock _, t => (.ok (), t)
  | rename source target, t => settle t ((t.rename cwd source target).map ((), ·))
  | unlink path, t => settle t ((t.unlink cwd path).map ((), ·))
  | note _, t => ((), t)

end Call
end DocSplice
