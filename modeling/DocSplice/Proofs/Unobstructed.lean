import DocSplice.Proofs.AllOrNothing

/-!
# Replacements with nothing in their way

If nothing stands at the place of the temporary file, nothing is found at its path either (`clear_of_free`). Hence a
replacement of a file either fails and leaves the tree as it was, or leaves the file with the new content and nothing
else changed (`run_replace_of_free`).
-/
namespace DocSplice.Storage

open FileTree NativePath

variable {t : FileTree} {cwd dir : Place} {k content c : Octets} {m : Mode}

/-- The second tree is the first one with new content in the file at the place, and, but for the marks that a change
of content takes away, with the old mode of this file. -/
def Overwritten (t t' : FileTree) (place : Place) (m : Mode) (content : Octets) : Prop :=
  ∀ q, t'.lookup q = if q = place then some (.file (m.written content) content) else t.lookup q

/-- Nothing is found at the path from the root to a place where nothing stands. -/
theorem clear_of_free (ht : t.Rooted) (hdir : t.IsDir dir) (hnames : ∀ j ∈ dir ++ [k], IsName j)
    (hfree : t.lookup (dir ++ [k]) = none) : t.Clear cwd (pathTo (dir ++ [k])) := by
  intro p e hfound
  have hstanding := destination_pathTo ht hdir hnames (by simp [hfree]) hfound
  rw [standing_of_none hfree] at hstanding
  cases hstanding

/-- **A replacement with nothing in its way.** If nothing stands at the place of the temporary file, a replacement
of a file either fails and changes nothing, or overwrites this file and changes nothing else. -/
theorem run_replace_of_free {pid : ℕ} {path : PortablePath} {place : Place} (ht : t.WellFormed)
    (hcwd : t.IsDir cwd) (hfind : t.find cwd path.native = .ok (place, .file m c))
    (hfree : t.lookup (temporaryPlace pid place) = none) (content : Octets) :
    (∃ e, (replace pid path content).run cwd t = (.error e, t)) ∨
      ∃ t', (replace pid path content).run cwd t = (.ok (), t') ∧ Overwritten t t' place m content := by
  rcases run_landing_of_find hfind with ⟨hlanding, hprobe⟩ | ⟨e, hlanding⟩
  · have hfile := lookup_of_find hfind
    obtain ⟨dir, n, k, rfl, htemp, hpath, -, hdir, hnames, htempNames⟩ := exists_names_of_file ht pid hfile
    rw [htemp] at hfree
    have hclear : t.Clear cwd (temporaryPath pid (pathTo (dir ++ [n]))) :=
      hpath ▸ clear_of_free ht.rooted hdir htempNames hfree
    rw [run_replace_of_ok hlanding]
    rcases run_fillAndMove_of_clear ht.rooted hcwd content hclear with
      ⟨e, v, hrun, hunlink⟩ | ⟨t', x, u, d, hrun, hcreate, hdest, -, hstored, -⟩
    · rw [hrun]
      exact .inl ⟨e, Prod.ext rfl hunlink⟩
    · rw [hrun]
      refine .inr ⟨t', rfl, ?_⟩
      obtain ⟨-, hx⟩ := destination_of_create hclear hcreate
      have hself := destination_pathTo ht.rooted hdir hnames (fun _ _ => rfl) hdest
      rw [standing_of_some hfile] at hself
      subst hself
      rw [passedMode_of_find ht hcwd hcreate hx (find_pathTo_of_probe ht.rooted hdir hnames hfile hprobe)] at hstored
      exact hstored.lookup
  · exact .inl ⟨e, run_replace_of_error hlanding⟩

end DocSplice.Storage
