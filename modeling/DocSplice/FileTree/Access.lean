import DocSplice.FileTree.Resolve

/-!
# Access to files by path

What the file calls do to a tree, for a process that owns the entries and has the rights of their modes.
Each call resolves its path and then reads, or changes one or two places; a call that fails changes
nothing.
-/
namespace DocSplice.FileTree

/-- Refuses a path that no call takes: one with a NUL, or one that is too long. -/
def checkPath (path : NativePath) : Except Fault Unit :=
  if path.contains 0 then .error .nulInPath
  else if pathLimit ≤ path.length then .error (.refused .nameTooLong)
  else .ok ()

/-- The place that the path leads to, and what stands there. Only a final link may be kept. -/
def destination (t : FileTree) (cwd : Place) (follow : Bool) (path : NativePath) :
    Except Fault Destination :=
  match checkPath path with
  | .error f => .error f
  | .ok () => (t.resolve cwd follow path).mapError .refused

/-- The entry that the path leads to through all links. -/
def find (t : FileTree) (cwd : Place) (path : NativePath) : Except Fault (Place × Entry) :=
  match t.destination cwd true path with
  | .error f => .error f
  | .ok (.vacant _) => .error (.refused .notFound)
  | .ok (.found place entry) => .ok (place, entry)

/-- Reads a whole file. -/
def read (t : FileTree) (cwd : Place) (path : NativePath) : Except Fault Octets :=
  match t.find cwd path with
  | .error f => .error f
  | .ok (_, .file mode content) =>
    if mode.grants .read then .ok content else .error (.refused .accessDenied)
  | .ok (_, .directory mode) =>
    .error (.refused (if mode.grants .read then .isDirectory else .accessDenied))
  | .ok (_, .link _) => .error (.refused .tooManyLinks)

/-- The path from the root to the entry that the path leads to. The names of the path are asked for one by
one, so that its own length does not matter. -/
def realPath (t : FileTree) (cwd : Place) (path : NativePath) : Except Fault NativePath :=
  if path.contains 0 then .error .nulInPath
  else match t.resolveBy t.singleRule cwd true path with
    | .error r => .error (.refused r)
    | .ok (.vacant _) => .error (.refused .notFound)
    | .ok (.found place _) =>
      if pathLimit ≤ (pathTo place).length then .error (.refused .nameTooLong) else .ok (pathTo place)

/-- Opens a file for writing and closes it again. -/
def probe (t : FileTree) (cwd : Place) (path : NativePath) : Except Fault Unit :=
  match t.find cwd path with
  | .error f => .error f
  | .ok (_, .file mode _) => if mode.grants .write then .ok () else .error (.refused .accessDenied)
  | .ok (_, .directory _) => .error (.refused .isDirectory)
  | .ok (_, .link _) => .error (.refused .tooManyLinks)

/-- Opens a file for writing and empties it; a vacant place gets an empty file. -/
def create (t : FileTree) (cwd : Place) (path : NativePath) : Except Fault (Place × FileTree) :=
  match t.destination cwd true path with
  | .error f => .error f
  | .ok (.found place (.file mode _)) =>
    if mode.grants .write then .ok (place, t.insert place (.file mode.afterChange []))
    else .error (.refused .accessDenied)
  | .ok (.found _ (.directory _)) => .error (.refused .isDirectory)
  | .ok (.found _ (.link _)) => .error (.refused .tooManyLinks)
  | .ok (.vacant place) =>
    if path.endsInSlash then .error (.refused .isDirectory)
    else if t.denies place.dropLast .write then .error (.refused .accessDenied)
    else .ok (place, t.insert place (.file .newFile []))

/-- The mode of the entry that the path leads to. -/
def modeOf (t : FileTree) (cwd : Place) (path : NativePath) : Except Fault Mode :=
  match t.find cwd path with
  | .error f => .error f
  | .ok (_, .file mode _) => .ok mode
  | .ok (_, .directory mode) => .ok mode
  | .ok (_, .link _) => .error (.refused .tooManyLinks)

/-- Moves a file or a link to another place and replaces what stood there, which must not be a
directory. A link is moved or replaced itself. Directories are not moved. -/
def rename (t : FileTree) (cwd : Place) (source target : NativePath) : Except Fault FileTree :=
  match t.destination cwd false source with
  | .error f => .error f
  | .ok (.vacant _) => .error (.refused .notFound)
  | .ok (.found _ (.directory _)) => .error (.refused .isDirectory)
  | .ok (.found old entry) =>
    let denied (new : Place) : Bool :=
      t.denies old.dropLast .write || t.denies new.dropLast .write
    match t.destination cwd false target with
    | .error f => .error f
    | .ok (.vacant new) =>
      if target.endsInSlash then .error (.refused .notDirectory)
      else if denied new then .error (.refused .accessDenied)
      else .ok ((t.erase old).insert new entry)
    | .ok (.found new (.directory _)) =>
      match target.steps.getLast? with
      | some (.name _) =>
        if target.endsInSlash then .error (.refused .notDirectory)
        else .error (.refused (if denied new then .accessDenied else .isDirectory))
      | _ => .error (.refused .busy)
    | .ok (.found new _) =>
      if new = old then .ok t
      else if denied new then .error (.refused .accessDenied)
      else .ok ((t.erase old).insert new entry)

/-- Removes a file or a link. -/
def unlink (t : FileTree) (cwd : Place) (path : NativePath) : Except Fault FileTree :=
  match t.destination cwd false path with
  | .error f => .error f
  | .ok (.vacant _) => .error (.refused .notFound)
  | .ok (.found _ (.directory _)) => .error (.refused .isDirectory)
  | .ok (.found place _) =>
    if t.denies place.dropLast .write then .error (.refused .accessDenied) else .ok (t.erase place)

end DocSplice.FileTree
