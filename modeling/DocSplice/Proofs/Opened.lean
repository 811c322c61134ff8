import DocSplice.Proofs.LastName
import DocSplice.Proofs.Replace
import DocSplice.Proofs.WalkEnd

/-!
# Opening and moving the temporary file

The temporary file is opened through links, but it is moved as the entry that its path names (`Opened`). This entry and
the one that the target names stand at different places (`place_ne_of_destination`), and a move that succeeds has moved
the one to the other (`Opened.exists_moved`).
-/
namespace DocSplice

open FileTree NativePath

variable {t t' u v : FileTree} {cwd x p source : Place} {path temp target l : NativePath} {content : Octets}
  {mode : Mode} {d d' : Destination} {pid : ℕ}

namespace FileTree

/-- A path that follows its last link leads where it does without, unless this last link is there. -/
theorem destination_of_follow (hslash : path.endsInSlash = false) (h : t.destination cwd true path = .ok d) :
    t.destination cwd false path = .ok d ∨
      ∃ p target, t.destination cwd false path = .ok (.found p (.link target)) := by
  obtain ⟨hcheck, hnil, w, -⟩ := destination_eq_ok_iff.1 h
  have hdest : ∀ d, Walks t t.wholeRule false linkLimit (linkStart cwd path) path.steps d →
      t.destination cwd false path = .ok d := by
    intro d w
    exact destination_eq_ok_iff.2 ⟨hcheck, hnil, w, by simp [hslash]⟩
  rcases walk_follow t t.wholeRule linkLimit (linkStart cwd path) path.steps with hwalk | ⟨p, target, w', -⟩
  · exact .inl (hdest d (walk_eq_ok_iff.1 (hwalk ▸ walk_eq_ok_iff.2 w)))
  · exact .inr ⟨p, target, hdest _ w'⟩

/-- A file is opened under a path without a slash at its end. -/
theorem endsInSlash_of_create (h : t.create cwd path = .ok (x, u)) : path.endsInSlash = false := by
  rw [create] at h
  split at h
  · cases h
  · next place mode content hdest =>
    have hslash := (destination_eq_ok_iff.1 hdest).2.2.2
    exact Bool.eq_false_iff.2 fun hends => Bool.false_ne_true (hslash hends)
  · cases h
  · cases h
  · split_ifs at h with hslash
    exact Bool.eq_false_iff.2 hslash

/-- A move that succeeds has a target that leads to no directory and ends in no slash. -/
theorem exists_destination_of_rename (h : t.rename cwd temp target = .ok t') :
    ∃ d, t.destination cwd false target = .ok d ∧ (∀ p mode, d ≠ .found p (.directory mode)) ∧
      target.endsInSlash = false := by
  rw [rename] at h
  split at h
  · cases h
  · cases h
  · cases h
  · simp only at h
    split at h
    · cases h
    · next new hto =>
      split_ifs at h with hslash
      exact ⟨_, hto, by simp, Bool.eq_false_iff.2 hslash⟩
    · split at h
      · split_ifs at h
      · cases h
    · next new entry hplain hto =>
      have hentry : ∀ mode, entry ≠ .directory mode := fun mode heq => hplain mode heq
      refine ⟨_, hto, fun p mode heq => hentry mode (by cases heq; rfl), ?_⟩
      have hslash := (destination_eq_ok_iff.1 hto).2.2.2
      refine Bool.eq_false_iff.2 fun hends => ?_
      cases entry with
      | file m c => exact Bool.false_ne_true (hslash hends)
      | directory m => exact hentry m rfl
      | link l => exact Bool.false_ne_true (hslash hends)

/-- A path that leads to no directory leads to a place where none stands. -/
theorem not_isDir_of_destination {follow : Bool} (h : t.destination cwd follow path = .ok d)
    (hd : ∀ p mode, d ≠ .found p (.directory mode)) : ¬ t.IsDir d.place := by
  intro hdir
  obtain ⟨mode, hmode⟩ := hdir
  have hstanding := (destination_eq_ok_iff.1 h).2.2.1.eq_standing
  rw [standing_of_some hmode] at hstanding
  exact hd _ _ hstanding

/-- Where no directory stands, none is found. -/
theorem standing_ne_directory (h : ¬t.IsDir p) (q : Place) (m : Mode) : t.standing p ≠ .found q (.directory m) := by
  intro heq
  cases hp : t.lookup p with
  | none => cases (standing_of_none hp).symm.trans heq
  | some e =>
      cases (standing_of_some hp).symm.trans heq
      exact h ⟨m, hp⟩

end FileTree

namespace Storage

/-! ## Where the target leads -/

theorem nul_not_mem_of_checkPath (h : checkPath path = .ok ()) : 0 ∉ path := by
  intro hmem
  rw [checkPath, if_pos (List.contains_iff_mem.2 hmem)] at h
  cases h

/-- The last name of a temporary path is not the last name of its target. -/
theorem getLast?_steps_temporaryPath_ne (pid : ℕ) {n : Octets} (hcheck : checkPath target = .ok ())
    (hlast : target.steps.getLast? = some (.name n)) :
    (temporaryPath pid target).steps.getLast? ≠ some (.name n) := by
  have hname := fileName?_of_getLast?_steps hlast
  have hn := isName_of_fileName? hname (nul_not_mem_of_checkPath hcheck)
  have htemp : temporaryName pid target = Utf8.encode (temporaryText pid n) := by
    rw [temporaryName, hname]
    rfl
  have htempName := isName_temporaryText pid hn.slash_not_mem hn.nul_not_mem
  rw [temporaryPath, htemp, getLast?_steps_withFileName target htempName]
  intro heq
  exact encode_temporaryText_ne pid n (by simpa using heq)

/-- Two paths that lead to no directory, one of them to the temporary file of the other, lead to different places. -/
theorem place_ne_of_destination {pid : ℕ} (ht : t.Rooted) (ht' : t'.Rooted) (hcwd : t.IsDir cwd) (hcwd' : t'.IsDir cwd)
    (htarget : t.destination cwd false target = .ok d) (hd : ∀ p mode, d ≠ .found p (.directory mode))
    (htemp : t'.destination cwd false (temporaryPath pid target) = .ok d')
    (hd' : ∀ p mode, d' ≠ .found p (.directory mode)) : d.place ≠ d'.place := by
  obtain ⟨hcheck, -, w, -⟩ := destination_eq_ok_iff.1 htarget
  obtain ⟨-, -, w', -⟩ := destination_eq_ok_iff.1 htemp
  obtain ⟨n, hlast, hplace⟩ := w.exists_name ht (ht.isDir_linkStart hcwd _) hd
  obtain ⟨k, hlast', hplace'⟩ := w'.exists_name ht' (ht'.isDir_linkStart hcwd' _) hd'
  intro heq
  rw [heq, hplace'] at hplace
  cases hplace
  exact getLast?_steps_temporaryPath_ne pid hcheck hlast hlast'

/-! ## Opening the temporary file -/

/-- The content has been written to the temporary file: a file has been filled where its path leads, which is the
place that the path names itself, unless a link stands there. -/
structure Opened (t v : FileTree) (cwd : Place) (temp : NativePath) (source x : Place) (mode : Mode)
    (content : Octets) : Prop where
  filled : Filled t v x mode content
  leads : t.destination cwd true temp = .ok (t.standing x)
  own : t.destination cwd false temp = .ok (t.standing source)
  slash : temp.endsInSlash = false
  plain : x = source ∨ ∃ l, t.lookup source = some (.link l)

theorem exists_opened (target : NativePath) (content : Octets) (h : t.create cwd temp = .ok (x, u)) :
    ∃ source mode, Opened t ((u.passMode cwd target x).append x content) cwd temp source x mode content := by
  obtain ⟨hdest, m, hfilled⟩ := create_eq_ok h
  have hslash := endsInSlash_of_create h
  have hfilled : Filled t ((u.passMode cwd target x).append x content) x
      (((u.modeOf cwd target).toOption.getD m).written content) content := hfilled.passMode.append content
  rcases destination_of_follow hslash hdest with hsame | ⟨source, l, hlink⟩
  · exact ⟨x, _, hfilled, hdest, hsame, hslash, .inl rfl⟩
  · have hsource := lookup_of_destination hlink
    exact ⟨source, _, hfilled, hdest, (standing_of_some hsource).symm ▸ hlink, hslash, .inr ⟨l, hsource⟩⟩

namespace Opened

variable (h : Opened t v cwd temp source x mode content)

include h

theorem x_ne_source (hlink : t.lookup source = some (.link l)) : x ≠ source := by
  intro heq
  subst heq
  exact Entry.not_isFile_link l (h.filled.free _ hlink)

theorem x_eq_source (hplain : ∀ l, t.lookup source ≠ some (.link l)) : x = source :=
  h.plain.resolve_right fun hlink => hlink.elim hplain

/-- No directory stands where the temporary path names. -/
theorem not_isDir : ¬t.IsDir source := by
  intro hdir
  obtain ⟨m, hm⟩ := hdir
  rcases h.plain with rfl | ⟨l, hlink⟩
  · exact Entry.not_isFile_directory m (h.filled.free _ hm)
  · cases hlink.symm.trans hm

/-- The temporary path still names the same place. -/
theorem own_filled (ht : t.Rooted) (hcwd : t.IsDir cwd) : v.destination cwd false temp = .ok (v.standing source) := by
  have hown := destination_frame h.filled.sameWays ht hcwd h.slash h.own
  rwa [place_standing] at hown

end Opened

/-- Moving the temporary file moves the entry that its path names to the place that the target names, which is another
one. -/
theorem Opened.exists_moved (h : Opened t v cwd (temporaryPath pid target) source x mode content) (ht : t.Rooted)
    (hcwd : t.IsDir cwd) (hrename : v.rename cwd (temporaryPath pid target) target = .ok t') :
    ∃ dest, t.destination cwd false target = .ok (t.standing dest) ∧ target.endsInSlash = false ∧ ¬t.IsDir dest ∧
      source ≠ dest ∧ Moved v t' source dest := by
  obtain ⟨d, hfilledTarget, hd, hslash⟩ := exists_destination_of_rename hrename
  have hways := h.filled.sameWays
  have hdirs := hways.sameDirectories
  have htarget := destination_frame hways.symm (hdirs.rooted ht) (hdirs.isDir_iff.2 hcwd) hslash hfilledTarget
  have hfree : ¬t.IsDir d.place := mt hdirs.isDir_iff.2 (not_isDir_of_destination hfilledTarget hd)
  have hne : source ≠ d.place := by
    have hplaces := place_ne_of_destination ht ht hcwd hcwd htarget (standing_ne_directory hfree) h.own
      (standing_ne_directory h.not_isDir)
    rw [place_standing, place_standing] at hplaces
    exact hplaces.symm
  refine ⟨d.place, htarget, hslash, hfree, hne, rename_eq_ok hrename ?_ ?_ hne⟩
  · intro d' hd'
    exact Except.ok.inj (hd'.symm.trans (h.own_filled ht hcwd))
  · intro d' hd'
    cases hfilledTarget.symm.trans hd'
    exact (destination_eq_ok_iff.1 hfilledTarget).2.2.1.eq_standing

end Storage
end DocSplice
