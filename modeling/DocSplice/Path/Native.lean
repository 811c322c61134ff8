import DocSplice.Text.Utf8

/-!
# Native paths

A native path is a sequence of octets with `/` between its names. It is read as steps from a directory:
to a named entry, to the parent, or nowhere. The file name of a path is its last step, if that is a name;
`withFileName` puts another name in its place.
-/
namespace DocSplice

/-- A path as the file system takes it. -/
abbrev NativePath := Octets

namespace NativePath

/-- The octet between the names of a path. -/
def slash : UInt8 := 0x2F

/-- The octet of a full stop. -/
def dot : UInt8 := 0x2E

/-- One step of a path. -/
inductive Step where
  | here
  | parent
  | name (n : Octets)
deriving DecidableEq, Repr

/-- The step that a part between slashes stands for. -/
def Step.ofPart (part : Octets) : Step :=
  if part = [dot] then here else if part = [dot, dot] then parent else name part

/-- The path cut at its slashes; there is one part more than slashes. -/
def parts (path : NativePath) : List Octets := go [] [] path
where
  go (done : List Octets) (part : Octets) : Octets → List Octets
    | [] => (part.reverse :: done).reverse
    | b :: rest => if b = slash then go (part.reverse :: done) [] rest else go done (b :: part) rest

/-- The steps of a path; slashes in a row count as one. -/
def steps (path : NativePath) : List Step :=
  ((parts path).filter (· ≠ [])).map Step.ofPart

/-- Whether the path starts at the root. -/
def isAbsolute (path : NativePath) : Bool := path.head? == some slash

/-- Whether the path ends in a slash. -/
def endsInSlash (path : NativePath) : Bool := path.getLast? == some slash

/-- The path without slashes and without steps to nowhere at its end. The first argument is the path
read backward. A single slash, or a single full stop, stays. -/
def dropIdleEnd : Octets → Octets
  | b :: rest =>
    if b = slash then
      if rest = [] then [b] else dropIdleEnd rest
    else if b = dot ∧ rest.head? = some slash then dropIdleEnd rest
    else b :: rest
  | [] => []

/-- The path read backward, cut behind its last name. -/
def splitLast (path : NativePath) : Octets × Octets :=
  (dropIdleEnd path.reverse).span (· ≠ slash)

/-- The last step of the path, if it is a name. -/
def fileName? (path : NativePath) : Option Octets :=
  let last := (splitLast path).1.reverse
  if last = [] ∨ last = [dot] ∨ last = [dot, dot] then none else some last

/-- The path without its last step. -/
def parent (path : NativePath) : NativePath := (dropIdleEnd (splitLast path).2).reverse

/-- The path and those above it, the nearest first, up to the root or to the first step. -/
def upward (path : NativePath) : List NativePath := go path.length path
where
  go : Nat → NativePath → List NativePath
    | 0, _ => []
    | n + 1, p => if p = [] then [] else if parent p = p then [p] else p :: go n (parent p)

/-- The path to the entry with the given name in a directory. -/
def join (path name : NativePath) : NativePath :=
  if path = [] then name
  else if endsInSlash path then path ++ name
  else path ++ slash :: name

/-- The path with another name in place of its file name, or with the name added if it has none. -/
def withFileName (path : NativePath) (name : Octets) : NativePath :=
  match fileName? path with
  | some _ => join (parent path) name
  | none => join path name

/-- The path as messages show it. -/
def shown (path : NativePath) : Text := Utf8.decodeLossy path

end NativePath
end DocSplice
