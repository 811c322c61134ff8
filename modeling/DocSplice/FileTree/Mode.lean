/-!
# Modes of entries

A mode is a number of twelve bits. Nine of them grant rights, three to the owner of the entry, three to
its group and three to everyone; the other three are marks. A process owns all that it meets here, and
has no privileges, so the rights of the owner are its rights.
-/
namespace DocSplice

/-- The mode of an entry. -/
abbrev Mode := Nat

/-- What a process may do with a file or a directory. In a directory, to search it is to reach what it
holds by name, and to write it is to add and remove names. -/
inductive Right where
  | read
  | write
  | search
deriving DecidableEq, Repr

namespace Mode

/-- Whether the bit of the given value is set. -/
def has (mode : Mode) (bit : Nat) : Bool := mode / bit % 2 == 1

/-- Whether the mode grants the right to the owner. -/
def grants (mode : Mode) : Right → Bool
  | .read => mode.has 0o400
  | .write => mode.has 0o200
  | .search => mode.has 0o100

/-- The mode of a new file. -/
def newFile : Mode := 0o644

/-- The mode of a new directory in one with the given mode. The mark of the group is passed down. -/
def newDirectory (above : Mode) : Mode := 0o755 + if above.has 0o2000 then 0o2000 else 0

/-- The mode of a file whose content has been changed: its program no longer runs with the rights of the
owner, nor with those of the group. -/
def afterChange (mode : Mode) : Mode :=
  let mode := if mode.has 0o4000 then mode - 0o4000 else mode
  if mode.has 0o2000 && mode.has 0o010 then mode - 0o2000 else mode

/-- A mode without marks survives a change of content. -/
theorem afterChange_of_lt {mode : Mode} (h : mode < 0o2000) : mode.afterChange = mode := by
  have h₁ : mode / 0o4000 = 0 := Nat.div_eq_of_lt (Nat.lt_of_lt_of_le h (by decide))
  have h₂ : mode / 0o2000 = 0 := Nat.div_eq_of_lt h
  simp [afterChange, has, h₁, h₂]

end Mode
end DocSplice
