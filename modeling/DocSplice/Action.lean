import DocSplice.FileTree.Call

/-!
# Actions

An action is a sequence of calls in which each call may depend on the answers before it. It is plain
data: `run` performs it on a tree, `events` collects what it reports on the way, and `Interrupted` says
which trees can be left behind when it is stopped before its end. The statements say how these take a
sequence of two actions.
-/
namespace DocSplice

/-- A sequence of calls with a result. -/
inductive Action (H : Type) (α : Type) where
  | done (result : α)
  | call (c : Call H) (next : c.Answer → Action H α)

namespace Action

variable {H α β : Type}

/-- The action that goes on with the result of another. -/
def bind : Action H α → (α → Action H β) → Action H β
  | done a, f => f a
  | call c next, f => call c fun answer => (next answer).bind f

instance : Monad (Action H) where
  pure := done
  bind := bind

/-- The result of an action on a tree, and the tree after it. -/
def run (cwd : Place) : Action Place α → FileTree → α × FileTree
  | done a, t => (a, t)
  | call c next, t => (next (c.perform cwd t).1).run cwd (c.perform cwd t).2

/-- What an action on a tree reports. -/
def events (cwd : Place) : Action Place α → FileTree → List Event
  | done _, _ => []
  | call c next, t =>
    let later := (next (c.perform cwd t).1).events cwd (c.perform cwd t).2
    match c with
    | .note e => e :: later
    | _ => later

/-- `Interrupted cwd act t u`: the action, begun on the tree `t` and stopped somewhere, can leave `u`. It
can stop between two calls, and inside a write after any part of the content. -/
inductive Interrupted (cwd : Place) : Action Place α → FileTree → FileTree → Prop where
  | here (act : Action Place α) (t : FileTree) : Interrupted cwd act t t
  | inside (file : Place) (content : Octets) (n : Nat) (next : Except Fault Unit → Action Place α)
      (t : FileTree) :
      Interrupted cwd (call (.write file content) next) t (t.append file (content.take n))
  | later {c : Call Place} {next : c.Answer → Action Place α} {t u : FileTree}
      (h : Interrupted cwd (next (c.perform cwd t).1) (c.perform cwd t).2 u) :
      Interrupted cwd (call c next) t u

@[simp] theorem pure_eq_done (a : α) : (pure a : Action H α) = done a := rfl

@[simp] theorem done_bind (a : α) (f : α → Action H β) : (done a >>= f) = f a := rfl

@[simp] theorem call_bind (c : Call H) (next : c.Answer → Action H α) (f : α → Action H β) :
    (call c next >>= f) = call c fun answer => next answer >>= f := rfl

@[simp] theorem run_done (cwd : Place) (a : α) (t : FileTree) : (done a).run cwd t = (a, t) := rfl

@[simp] theorem run_call (cwd : Place) (c : Call Place) (next : c.Answer → Action Place α)
    (t : FileTree) : (call c next).run cwd t = (next (c.perform cwd t).1).run cwd (c.perform cwd t).2 :=
  rfl

@[simp] theorem run_bind (cwd : Place) (act : Action Place α) (f : α → Action Place β) (t : FileTree) :
    (act >>= f).run cwd t = (f (act.run cwd t).1).run cwd (act.run cwd t).2 := by
  induction act generalizing t with
  | done a => rfl
  | call c next ih => simp [ih]

@[simp] theorem run_map (cwd : Place) (f : α → β) (act : Action Place α) (t : FileTree) :
    (f <$> act).run cwd t = (f (act.run cwd t).1, (act.run cwd t).2) :=
  run_bind cwd act (fun a => done (f a)) t

@[simp] theorem events_done (cwd : Place) (a : α) (t : FileTree) : (done a).events cwd t = [] := rfl

theorem events_bind (cwd : Place) (act : Action Place α) (f : α → Action Place β) (t : FileTree) :
    (act >>= f).events cwd t
      = act.events cwd t ++ (f (act.run cwd t).1).events cwd (act.run cwd t).2 := by
  induction act generalizing t with
  | done a => rfl
  | call c next ih => cases c <;> simp [events, ih]

/-! ## Single calls -/

/-- Reads a whole file. -/
def read (path : NativePath) : Action H (Except Fault Octets) := call (.read path) done

/-- Follows all links of a path. -/
def realPath (path : NativePath) : Action H (Except Fault NativePath) := call (.realPath path) done

/-- Tries to open a file for writing. -/
def probe (path : NativePath) : Action H (Except Fault Unit) := call (.probe path) done

/-- Opens an empty file for writing. -/
def create (path : NativePath) : Action H (Except Fault H) := call (.create path) done

/-- Holds an open file. -/
def lock (file : H) : Action H (Except Fault Unit) := call (.lock file) done

/-- Asks for the mode of an entry. -/
def modeOf (path : NativePath) : Action H (Except Fault Nat) := call (.modeOf path) done

/-- Changes the mode of an open file. -/
def setMode (file : H) (mode : Nat) : Action H (Except Fault Unit) := call (.setMode file mode) done

/-- Adds octets at the end of an open file. -/
def write (file : H) (content : Octets) : Action H (Except Fault Unit) := call (.write file content) done

/-- Waits until an open file is stored. -/
def sync (file : H) : Action H (Except Fault Unit) := call (.sync file) done

/-- Holds an open file no longer. -/
def unlock (file : H) : Action H (Except Fault Unit) := call (.unlock file) done

/-- Moves a file. -/
def rename (source target : NativePath) : Action H (Except Fault Unit) :=
  call (.rename source target) done

/-- Removes a file. -/
def unlink (path : NativePath) : Action H (Except Fault Unit) := call (.unlink path) done

/-- Reports an event. -/
def note (event : Event) : Action H Unit := call (.note event) done

section Run

variable (cwd : Place) (path target : NativePath) (file : Place) (content : Octets) (mode : Nat)
  (event : Event) (t : FileTree)

@[simp] theorem run_read : (read path).run cwd t = (t.read cwd path, t) := rfl

@[simp] theorem run_realPath : (realPath path).run cwd t = (t.realPath cwd path, t) := rfl

@[simp] theorem run_probe : (probe path).run cwd t = (t.probe cwd path, t) := rfl

@[simp] theorem run_create : (create path).run cwd t = Call.settle t (t.create cwd path) := rfl

@[simp] theorem run_lock : (lock file).run cwd t = (.ok (), t) := rfl

@[simp] theorem run_modeOf : (modeOf path).run cwd t = (t.modeOf cwd path, t) := rfl

@[simp] theorem run_setMode : (setMode file mode).run cwd t = (.ok (), t.setMode file mode) := rfl

@[simp] theorem run_write : (write file content).run cwd t = (.ok (), t.append file content) := rfl

@[simp] theorem run_sync : (sync file).run cwd t = (.ok (), t) := rfl

@[simp] theorem run_unlock : (unlock file).run cwd t = (.ok (), t) := rfl

@[simp] theorem run_rename :
    (rename path target).run cwd t = Call.settle t ((t.rename cwd path target).map ((), ·)) := rfl

@[simp] theorem run_unlink :
    (unlink path).run cwd t = Call.settle t ((t.unlink cwd path).map ((), ·)) := rfl

@[simp] theorem run_note : (note event).run cwd t = ((), t) := rfl

end Run

end Action
end DocSplice
