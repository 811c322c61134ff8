import DocSplice.FileTree.Basic

/-!
# Listing a tree

What stands below a place, and whether the modes let a process list and read all of it.
-/
namespace DocSplice.FileTree

/-- The entries below a place. -/
def below (t : FileTree) (place : Place) : List (Place × Entry) :=
  t.entries.filter fun e => place.isPrefixOf e.1 && e.1 != place

/-- Whether everything at a place and below it can be read. A directory is read by listing its names, and
what it holds is reached by searching it. -/
def isOpen (t : FileTree) (place : Place) : Bool :=
  t.entries.all fun (p, e) => !place.isPrefixOf p || match e with
    | .file mode _ => mode.grants .read
    | .directory mode => mode.grants .read && (mode.grants .search || (t.below p).isEmpty)
    | .link _ => true

end DocSplice.FileTree
