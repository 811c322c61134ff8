import DocSplice.Proofs.Destination

/-!
# What file calls change

A call that writes puts a file where a file or nothing stood (`Filled`), and a call that moves changes two places
(`Moved`). Neither makes or removes a directory, and so long as no link is moved, the links stay as well
(`Filled.sameWays`, `Moved.sameWays`). `create_eq_ok` and `rename_eq_ok` say what a call has done from its
success.
-/
namespace DocSplice

namespace Mode

variable {mode mode' : Mode}

/-- Of a mode, a change of content takes away marks only. -/
theorem afterChange_mod (mode : Mode) : mode.afterChange % 0o2000 = mode % 0o2000 := by
  have howner : ∀ m : ℕ, m / 2048 % 2 = 1 → (m - 2048) % 1024 = m % 1024 := by
    intro m hmark
    omega
  have hgroup : ∀ m : ℕ, m / 1024 % 2 = 1 → (m - 1024) % 1024 = m % 1024 := by
    intro m hmark
    omega
  simp only [afterChange, has, beq_iff_eq, Bool.and_eq_true]
  split_ifs with h₁ h₂ h₂
  · rw [hgroup _ h₂.1, howner _ h₁]
  · exact howner _ h₁
  · exact hgroup _ h₂.1
  · rfl

/-- Modes that differ in marks grant the same rights. -/
theorem grants_eq_of_mod (h : mode % 0o2000 = mode' % 0o2000) (right : Right) :
    mode.grants right = mode'.grants right := by
  have hbit : ∀ m m' : ℕ, m % 1024 = m' % 1024 →
      m / 256 % 2 = m' / 256 % 2 ∧ m / 128 % 2 = m' / 128 % 2 ∧ m / 64 % 2 = m' / 64 % 2 := by
    intro m m' h
    omega
  obtain ⟨hread, hwrite, hsearch⟩ := hbit mode mode' h
  cases right <;> simp only [grants, has, hread, hwrite, hsearch]

/-- The mode of a file once the content has been written to it. -/
def written (mode : Mode) (content : Octets) : Mode := if content = [] then mode else mode.afterChange

theorem written_mod (mode : Mode) (content : Octets) : mode.written content % 0o2000 = mode % 0o2000 := by
  rw [written]
  split
  · rfl
  · exact afterChange_mod mode

/-- A file that could be read can still be read after its content has changed. -/
theorem grants_read_written (h : mode.grants .read = true) (content : Octets) :
    (mode.written content).grants .read = true :=
  (grants_eq_of_mod (written_mod mode content) .read).trans h

end Mode

namespace FileTree

variable {t t' : FileTree} {cwd x p source dest : Place} {path : NativePath} {mode : Mode}
  {content : Octets}

/-! ## Files that are filled -/

/-- The second tree is the first one with the given file, where a file or nothing stood. -/
structure Filled (t t' : FileTree) (x : Place) (mode : Mode) (content : Octets) : Prop where
  free : ∀ e, t.lookup x = some e → e.IsFile
  lookup : ∀ p, t'.lookup p = if p = x then some (.file mode content) else t.lookup p

namespace Filled

theorem lookup_self (h : Filled t t' x mode content) : t'.lookup x = some (.file mode content) := by
  rw [h.lookup, if_pos rfl]

theorem lookup_of_ne (h : Filled t t' x mode content) (hp : p ≠ x) : t'.lookup p = t.lookup p := by
  rw [h.lookup, if_neg hp]

/-- Filling a file leaves the directories and links as they are. -/
theorem sameWays (h : Filled t t' x mode content) : SameWays t t' := by
  intro p e he
  by_cases hp : p = x
  · subst hp
    constructor
    · intro hfile
      cases h.lookup_self.symm.trans hfile
      exact absurd (Entry.isFile_file mode content) he
    · intro hold
      exact absurd (h.free e hold) he
  · rw [h.lookup_of_ne hp]

/-- Changing the mode of the file. -/
theorem setMode (h : Filled t t' x mode content) (m : Mode) : Filled t (t'.setMode x m) x m content := by
  refine ⟨h.free, ?_⟩
  intro p
  rw [FileTree.setMode, h.lookup_self]
  by_cases hp : p = x
  · simp [hp]
  · simp [hp, h.lookup_of_ne hp]

/-- Adding to the file. -/
theorem append (h : Filled t t' x mode content) (more : Octets) :
    Filled t (t'.append x more) x (mode.written more) (content ++ more) := by
  refine ⟨h.free, ?_⟩
  intro p
  rw [FileTree.append, h.lookup_self]
  by_cases hp : p = x
  · simp [hp, Mode.written]
  · simp [hp, h.lookup_of_ne hp]

end Filled

/-- What opening a file for writing does: an empty file stands where the path leads. -/
theorem create_eq_ok (h : t.create cwd path = .ok (x, t')) :
    t.destination cwd true path = .ok (t.standing x) ∧ ∃ mode, Filled t t' x mode [] := by
  have hfilled : ∀ mode, (∀ e, t.lookup x = some e → e.IsFile) →
      Filled t (t.insert x (.file mode [])) x mode [] := by
    intro mode hfree
    exact ⟨hfree, fun p => by simp⟩
  rw [create] at h
  split at h
  · cases h
  · next place mode content hdest =>
    have hplace := (destination_eq_ok_iff.1 hdest).2.2.1.eq_standing
    rw [Destination.place] at hplace
    split at h
    · cases h
      refine ⟨hplace ▸ hdest, _, hfilled _ ?_⟩
      intro e he
      rw [standing_of_some he] at hplace
      cases hplace
      exact Entry.isFile_file mode content
    · cases h
  · cases h
  · cases h
  · next place hdest =>
    have hplace := (destination_eq_ok_iff.1 hdest).2.2.1.eq_standing
    rw [Destination.place] at hplace
    split_ifs at h
    cases h
    refine ⟨hplace ▸ hdest, _, hfilled _ ?_⟩
    intro e he
    rw [standing_of_some he] at hplace
    cases hplace

/-- A file is made only in a directory that may be written. -/
theorem denies_eq_false_of_create (h : t.create cwd path = .ok (x, t')) (hx : t.lookup x = none) :
    t.denies x.dropLast .write = false := by
  obtain ⟨hdest, -⟩ := create_eq_ok h
  rw [create, hdest, standing_of_none hx] at h
  simp only at h
  split_ifs at h with hslash hdenies
  exact Bool.eq_false_iff.2 hdenies

/-! ## Entries that are moved -/

/-- What moving an entry does, if the two paths lead to different places themselves. -/
theorem rename_eq_ok {from' to' : NativePath} (h : t.rename cwd from' to' = .ok t')
    (hsource : ∀ d, t.destination cwd false from' = .ok d → d = t.standing source)
    (hdest : ∀ d, t.destination cwd false to' = .ok d → d = t.standing dest) (hne : source ≠ dest) :
    Moved t t' source dest := by
  have hmoved : ∀ e, t.lookup source = some e → Moved t ((t.erase source).insert dest e) source dest := by
    intro e he p
    simp [he]
  rw [rename] at h
  split at h
  · cases h
  · cases h
  · cases h
  · next old entry _ hfrom =>
    have hold := hsource _ hfrom
    have hentry : old = source ∧ t.lookup source = some entry := by
      cases he : t.lookup source with
      | none => simp [standing_of_none he] at hold
      | some e =>
          rw [standing_of_some he] at hold
          cases hold
          exact ⟨rfl, rfl⟩
    obtain ⟨rfl, he⟩ := hentry
    simp only at h
    split at h
    · cases h
    · next new hto =>
      have hnew := congrArg Destination.place (hdest _ hto)
      rw [place_standing] at hnew
      subst hnew
      split_ifs at h
      cases h
      exact hmoved entry he
    · split at h
      · split_ifs at h
      · cases h
    · next new entry' hto =>
      have hnew := congrArg Destination.place (hdest _ hto)
      rw [place_standing] at hnew
      subst hnew
      split_ifs at h with hsame
      · exact absurd hsame.symm hne
      · cases h
        exact hmoved entry he

end FileTree
end DocSplice
