import DocSplice.FileTree.Access
import DocSplice.FileTree.Listing

/-!
# Preparing a tree

Plain operations by path that put a tree into a wanted state: writing a file in place, making directories
with their parents, adding links, changing modes, and removing whatever stands at a path. Those that take
several steps keep what they have done if a later step fails.
-/
namespace DocSplice.FileTree

/-- Writes a file in place; a file that is missing is created. -/
def put (t : FileTree) (cwd : Place) (path : NativePath) (content : Octets) : Except Fault FileTree :=
  (t.create cwd path).map fun r => r.2.append r.1 content

/-- Makes a directory at a vacant path, in a directory that exists. -/
def makeDirectory (t : FileTree) (cwd : Place) (path : NativePath) : Except Fault FileTree :=
  match t.destination cwd false path with
  | .error f => .error f
  | .ok (.found ..) => .error (.refused .occupied)
  | .ok (.vacant place) =>
    if t.denies place.dropLast .write then .error (.refused .accessDenied)
    else
      let above := match t.lookup place.dropLast with
        | some (.directory mode) => mode
        | _ => 0
      .ok (t.insert place (.directory (.newDirectory above)))

/-- Whether the path leads to a directory. -/
def isDirectory (t : FileTree) (cwd : Place) (path : NativePath) : Bool :=
  match t.find cwd path with
  | .ok (_, .directory _) => true
  | _ => false

/-- Makes a directory, or finds one. -/
def haveDirectory (t : FileTree) (cwd : Place) (path : NativePath) : Except Fault Unit × FileTree :=
  match t.makeDirectory cwd path with
  | .ok t' => (.ok (), t')
  | .error f => (if t.isDirectory cwd path then .ok () else .error f, t)

/-- Makes the first of the given directories. Where what it is to stand in is missing, the directories
after it are made first; these stay if a later one fails. -/
def makeFirst (t : FileTree) (cwd : Place) : List NativePath → Except Fault Unit × FileTree
  | [] => (.ok (), t)
  | path :: above =>
    match t.haveDirectory cwd path with
    | (.error (.refused .notFound), _) =>
      match t.makeFirst cwd above with
      | (.ok (), t') => t'.haveDirectory cwd path
      | failed => failed
    | r => r

/-- Makes a directory, and its parents where they are missing. -/
def makeDirectories (t : FileTree) (cwd : Place) (path : NativePath) : Except Fault Unit × FileTree :=
  t.makeFirst cwd path.upward

/-- Adds a link at a vacant path. -/
def addLink (t : FileTree) (cwd : Place) (path target : NativePath) : Except Fault FileTree :=
  if target = [] then .error (.refused .notFound)
  else if target.contains 0 then .error .nulInPath
  else if pathLimit ≤ target.length then .error (.refused .nameTooLong)
  else match t.destination cwd false path with
    | .error f => .error f
    | .ok (.found ..) => .error (.refused .occupied)
    | .ok (.vacant place) =>
      if path.endsInSlash then .error (.refused .notFound)
      else if t.denies place.dropLast .write then .error (.refused .accessDenied)
      else .ok (t.insert place (.link target))

/-- Changes the mode of the entry that the path leads to. Of the number only twelve bits count. -/
def changeMode (t : FileTree) (cwd : Place) (path : NativePath) (number : Nat) :
    Except Fault FileTree :=
  let mode : Mode := number % 0o10000
  match t.find cwd path with
  | .error f => .error f
  | .ok (place, .directory _) => .ok (t.insert place (.directory mode))
  | .ok (place, _) => .ok (t.setMode place mode)

/-- Removes places one after the other, as long as the directories that hold them let it. -/
def removeEach (t : FileTree) : List Place → Except Fault Unit × FileTree
  | [] => (.ok (), t)
  | place :: rest =>
    if t.denies place.dropLast .write || t.denies place.dropLast .search then
      (.error (.refused .accessDenied), t)
    else (t.erase place).removeEach rest

/-- Removes what stands at the path: first all that is below it, the deepest first, and then the entry
itself, for which the path must end in its name. What has been removed before a failure stays removed. A
link is removed itself, unless the path ends in a slash; then what is below the directory behind it is
removed, and the link stays. -/
def remove (t : FileTree) (cwd : Place) (path : NativePath) : Except Fault Unit × FileTree :=
  match t.destination cwd path.endsInSlash path with
  | .error f => (.error f, t)
  | .ok (.vacant _) => (.error (.refused .notFound), t)
  | .ok (.found place _) =>
    match t.removeEach (((t.below place).map (·.1)).mergeSort fun p q => q.length ≤ p.length) with
    | (.error f, t') => (.error f, t')
    | (.ok (), t') =>
      match path.steps.getLast?, t'.destination cwd false path with
      | some (.name _), .ok _ => t'.removeEach [place]
      | some (.name _), .error f => (.error f, t')
      | some .parent, .error (.refused .notFound) => (.ok (), t')
      | _, _ => (.error (.refused .busy), t')
end DocSplice.FileTree
