import DocSplice.Proofs.Opened
import DocSplice.Proofs.Stored

/-!
# Replacements whose temporary file is not there yet

If nothing is found at the path of the temporary file, the file is made at a vacant place (`destination_of_create`),
and the path names this place (`opened_of_clear`). Hence a replacement either fails, removes the temporary file and
leaves the tree as it was, or puts a file with the content where the target leads, and changes nothing else
(`run_fillAndMove_of_clear`).
-/
namespace DocSplice

open FileTree NativePath

variable {t t' u : FileTree} {cwd x p : Place} {path temp target : NativePath} {content : Octets} {mode : Mode}
  {e : Entry} {d d' : Destination}

namespace FileTree

/-! ## Trees without an entry -/

theorem erase_insert (t : FileTree) (p : Place) (e : Entry) : (t.insert p e).erase p = t.erase p := by
  simp [insert, erase]

theorem erase_of_none (h : t.lookup p = none) : t.erase p = t := by
  obtain ⟨entries⟩ := t
  have hne : ∀ entry ∈ entries, entry.1 ≠ p := by
    intro entry hentry heq
    rw [lookup, List.lookup_eq_none_iff] at h
    simpa [heq] using h entry hentry
  simpa [erase] using hne

theorem erase_setMode (t : FileTree) (p : Place) (mode : Mode) : (t.setMode p mode).erase p = t.erase p := by
  rw [setMode]
  split
  · exact erase_insert t p _
  · rfl

theorem erase_append (t : FileTree) (p : Place) (more : Octets) : (t.append p more).erase p = t.erase p := by
  rw [append]
  split
  · exact erase_insert t p _
  · rfl

theorem erase_passMode (t : FileTree) (target : NativePath) : (t.passMode cwd target x).erase x = t.erase x := by
  rw [FileTree.passMode]
  split
  · exact erase_setMode t x _
  · rfl

/-! ## A file that is made -/

/-- Nothing is found at the path, be it a link. -/
def Clear (t : FileTree) (cwd : Place) (path : NativePath) : Prop :=
  ∀ p e, t.destination cwd false path ≠ .ok (.found p e)

theorem clear_of_vacant (h : t.destination cwd false path = .ok (.vacant x)) : t.Clear cwd path := by
  intro p e hfound
  cases h.symm.trans hfound

/-- A file that is opened where nothing was found is made at a vacant place. -/
theorem destination_of_create (hclear : t.Clear cwd path) (h : t.create cwd path = .ok (x, u)) :
    t.destination cwd false path = .ok (.vacant x) ∧ t.lookup x = none := by
  obtain ⟨hdest, -⟩ := create_eq_ok h
  rcases destination_of_follow (endsInSlash_of_create h) hdest with hsame | ⟨p, target, hlink⟩
  · cases hx : t.lookup x with
    | none => exact ⟨by rwa [standing_of_none hx] at hsame, rfl⟩
    | some e =>
        rw [standing_of_some hx] at hsame
        exact absurd hsame (hclear x e)
  · exact absurd hlink (hclear p _)

/-- Nothing is removed where nothing is found. -/
theorem exists_unlink_of_clear (hclear : t.Clear cwd path) : ∃ f, t.unlink cwd path = .error f := by
  rw [unlink]
  split
  · exact ⟨_, rfl⟩
  · exact ⟨_, rfl⟩
  · exact ⟨_, rfl⟩
  · next place entry _ hdest => exact absurd hdest (hclear place entry)

/-- A file that is made has the mode of a new file. -/
theorem eq_insert_of_create (h : t.create cwd path = .ok (x, u)) (hx : t.lookup x = none) :
    u = t.insert x (.file .newFile []) := by
  obtain ⟨hdest, -⟩ := create_eq_ok h
  rw [create, hdest, standing_of_none hx] at h
  simp only at h
  split_ifs at h
  cases h
  rfl

theorem made_of_create (h : t.create cwd path = .ok (x, u)) (hx : t.lookup x = none) : Filled t u x .newFile [] := by
  rw [eq_insert_of_create h hx]
  exact ⟨by simp [hx], fun p => by simp⟩

end FileTree

namespace Storage

/-- The mode that a file is given for a target: its own mode, or that of a new file. -/
def passedMode (t : FileTree) (cwd : Place) (target : NativePath) : Mode :=
  match t.modeOf cwd target with
  | .ok mode => mode
  | .error _ => .newFile

/-- The temporary file once the content has been written to it. -/
theorem filled_of_create (target : NativePath) (content : Octets) (hcreate : t.create cwd temp = .ok (x, u))
    (hx : t.lookup x = none) :
    Filled t ((u.passMode cwd target x).append x content) x ((passedMode u cwd target).written content) content := by
  have hpassed : passedMode u cwd target = (u.modeOf cwd target).toOption.getD .newFile := by
    rw [passedMode]
    cases u.modeOf cwd target <;> rfl
  rw [hpassed]
  exact (made_of_create hcreate hx).passMode.append content

/-- Without the temporary file the tree is as it was. -/
theorem erase_filled (content : Octets) (hcreate : t.create cwd temp = .ok (x, u)) (hx : t.lookup x = none) :
    ((u.passMode cwd target x).append x content).erase x = t := by
  rw [erase_append, erase_passMode, eq_insert_of_create hcreate hx, erase_insert, erase_of_none hx]

/-- Where nothing was found, the temporary file is opened at the place that its path names. -/
theorem opened_of_clear (hclear : t.Clear cwd temp) (hcreate : t.create cwd temp = .ok (x, u)) {v : FileTree}
    (hfilled : Filled t v x mode content) : Opened t v cwd temp x x mode content := by
  obtain ⟨hdest, hx⟩ := destination_of_create hclear hcreate
  rw [← standing_of_none hx] at hdest
  exact ⟨hfilled, (create_eq_ok hcreate).1, hdest, endsInSlash_of_create hcreate, .inl rfl⟩

/-- The temporary file can be removed again. -/
theorem unlink_of_filled (ht : t.Rooted) (hcwd : t.IsDir cwd) (hclear : t.Clear cwd temp)
    (hcreate : t.create cwd temp = .ok (x, u)) {v : FileTree} (hfilled : Filled t v x mode content) :
    v.unlink cwd temp = .ok (v.erase x) := by
  obtain ⟨-, hx⟩ := destination_of_create hclear hcreate
  have hdest := (opened_of_clear hclear hcreate hfilled).own_filled ht hcwd
  rw [standing_of_some hfilled.lookup_self] at hdest
  have hwrite := denies_eq_false_of_create hcreate hx
  rw [← hfilled.sameWays.sameDirectories.denies_eq] at hwrite
  simp [unlink, hdest, hwrite]

/-! ## Filling and moving -/

variable {pid : ℕ}

/-- Moving the temporary file puts it where the target leads. -/
theorem stored_of_rename (ht : t.Rooted) (hcwd : t.IsDir cwd) (hclear : t.Clear cwd (temporaryPath pid target))
    (hcreate : t.create cwd (temporaryPath pid target) = .ok (x, u)) {v : FileTree}
    (hfilled : Filled t v x mode content) (h : v.rename cwd (temporaryPath pid target) target = .ok t') :
    ∃ d, t.destination cwd false target = .ok d ∧ target.endsInSlash = false ∧
      Stored t t' d.place mode content ∧ t'.Clear cwd (temporaryPath pid target) := by
  obtain ⟨-, hx⟩ := destination_of_create hclear hcreate
  obtain ⟨dest, htarget, hslash, hfree, hne, hmoved⟩ :=
    (opened_of_clear hclear hcreate hfilled).exists_moved ht hcwd h
  have hstored : Stored t t' dest mode content := by
    refine ⟨hfree, ?_⟩
    intro q
    rw [hmoved q, hfilled.lookup_self]
    by_cases hq : q = x
    · simp [hq, hx]
    · simp [hq, hfilled.lookup_of_ne hq]
  refine ⟨t.standing dest, htarget, hslash, by rwa [place_standing], ?_⟩
  intro p e hfound
  by_cases hp : p = dest
  · subst hp
    cases (lookup_of_destination hfound).symm.trans hstored.lookup_self
    have hdirs := hstored.sameDirectories
    exact place_ne_of_destination ht (hdirs.rooted ht) hcwd (hdirs.isDir_iff.2 hcwd) htarget
      (standing_ne_directory hfree) hfound (by simp) (place_standing t p)
  · exact hclear p e (hstored.destination_of_ne hfound hp)

/-- **Filling and moving a temporary file that is not there yet** puts a file with the content where the target leads,
and nothing is found at the temporary path then; or it fails, and removing the temporary file leaves the tree as it
was. -/
theorem run_fillAndMove_of_clear (ht : t.Rooted) (hcwd : t.IsDir cwd) (content : Octets)
    (hclear : t.Clear cwd (temporaryPath pid target)) :
    (∃ e v, (fillAndMove (temporaryPath pid target) target content).run.run cwd t = (.error e, v) ∧
        ((Action.unlink (temporaryPath pid target)).run cwd v).2 = t) ∨
      ∃ t' x u d, (fillAndMove (temporaryPath pid target) target content).run.run cwd t = (.ok (), t') ∧
        t.create cwd (temporaryPath pid target) = .ok (x, u) ∧
        t.destination cwd false target = .ok d ∧ target.endsInSlash = false ∧
        Stored t t' d.place ((passedMode u cwd target).written content) content ∧
        t'.Clear cwd (temporaryPath pid target) := by
  rw [run_fillAndMove]
  cases hcreate : t.create cwd (temporaryPath pid target) with
  | error f =>
      refine .inl ⟨_, t, rfl, ?_⟩
      obtain ⟨f, hunlink⟩ := exists_unlink_of_clear hclear
      rw [Action.run_unlink, hunlink]
      rfl
  | ok r =>
      obtain ⟨x, u⟩ := r
      obtain ⟨-, hx⟩ := destination_of_create hclear hcreate
      have hfilled := filled_of_create target content hcreate hx
      dsimp only
      cases hrename : ((u.passMode cwd target x).append x content).rename cwd (temporaryPath pid target) target with
      | error f =>
          refine .inl ⟨_, _, rfl, ?_⟩
          rw [Action.run_unlink, unlink_of_filled ht hcwd hclear hcreate hfilled]
          exact erase_filled content hcreate hx
      | ok t' =>
          obtain ⟨d, hdest, hslash, hstored, hclear'⟩ := stored_of_rename ht hcwd hclear hcreate hfilled hrename
          exact .inr ⟨t', x, u, d, rfl, rfl, hdest, hslash, hstored, hclear'⟩

end Storage
end DocSplice
