import DocSplice.FileTree.Mode
import DocSplice.Path.Native

/-!
# File trees

A file tree maps places to entries. A place is the list of names that lead to it from the root. The view
of a tree is `lookup`; each operation is described by what it does to the view, and two trees with the
same view are the same for every purpose of this library.
-/
namespace DocSplice

/-- The place of an entry: the names that lead to it from the root. -/
abbrev Place := List Octets

/-- What stands at a place. -/
inductive Entry where
  | file (mode : Mode) (content : Octets)
  | directory (mode : Mode)
  | link (target : NativePath)
deriving DecidableEq, Repr

/-- A tree, as a list of its places and entries. -/
structure FileTree where
  entries : List (Place × Entry)
deriving Repr

namespace FileTree

/-- The tree that holds an empty root directory. -/
def empty : FileTree := ⟨[([], .directory 0o755)]⟩

/-- What stands at the place. -/
def lookup (t : FileTree) (p : Place) : Option Entry := t.entries.lookup p

/-- The tree without what stood at the place. -/
def erase (t : FileTree) (p : Place) : FileTree := ⟨t.entries.filter fun e => e.1 ≠ p⟩

/-- The tree with the entry at the place, whatever stood there. -/
def insert (t : FileTree) (p : Place) (e : Entry) : FileTree := ⟨(p, e) :: (t.erase p).entries⟩

@[simp] theorem lookup_erase (t : FileTree) (p q : Place) :
    (t.erase p).lookup q = if q = p then none else t.lookup q := by
  obtain ⟨l⟩ := t
  simp only [erase, lookup]
  induction l with
  | nil => simp
  | cons e l ih => by_cases h : e.1 = p <;> by_cases hq : q = e.1 <;> grind

@[simp] theorem lookup_insert (t : FileTree) (p q : Place) (e : Entry) :
    (t.insert p e).lookup q = if q = p then some e else t.lookup q := by
  have h := lookup_erase t p q
  by_cases hq : q = p
  · simp [insert, lookup, hq]
  · have : (q == p) = false := by simpa using hq
    simp only [lookup, hq, if_false] at h
    simp [insert, lookup, List.lookup_cons, this, hq, h]

/-- Whether a directory stands at the place and withholds the right. -/
def denies (t : FileTree) (p : Place) (right : Right) : Bool :=
  match t.lookup p with
  | some (.directory mode) => !mode.grants right
  | _ => false

/-- Changes the mode of the file at the place. -/
def setMode (t : FileTree) (p : Place) (mode : Mode) : FileTree :=
  match t.lookup p with
  | some (.file _ content) => t.insert p (.file mode content)
  | _ => t

/-- Adds octets at the end of the file at the place. Its mode changes if there are any. -/
def append (t : FileTree) (p : Place) (more : Octets) : FileTree :=
  match t.lookup p with
  | some (.file mode content) =>
    t.insert p (.file (if more = [] then mode else mode.afterChange) (content ++ more))
  | _ => t

theorem lookup_setMode_of_ne (t : FileTree) {p q : Place} (mode : Mode) (h : q ≠ p) :
    (t.setMode p mode).lookup q = t.lookup q := by
  unfold setMode; split <;> simp [h]

theorem lookup_append_of_ne (t : FileTree) {p q : Place} (more : Octets) (h : q ≠ p) :
    (t.append p more).lookup q = t.lookup q := by
  unfold append; split <;> simp [h]

end FileTree
end DocSplice
