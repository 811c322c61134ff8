import DocSplice.Proofs.Leftover

/-!
# When a write succeeds

A path from the root is taken if it is short enough and no step on its way is refused (`Open`,
`destination_pathTo_iff`). A write to a file goes by two such paths, that of the file and that of the temporary file
beside it. If the file and its directory may be written and nothing stands under the temporary name, the write succeeds
if and only if there is room for both (`replace_succeeds_iff`). The temporary name is longer than the name of the file
(`length_temporaryName`), so that there may be none.
-/
namespace DocSplice

open NativePath

namespace FileTree

variable {t : FileTree} {rule : StepRule} {follow : Bool} {links : ℕ} {cwd dir p : Place} {rest steps : List Step}
  {n : Octets} {d : Destination} {m : Mode} {c : Octets}

/-- No step on the way from the root to the place is refused. -/
inductive Open (rule : StepRule) : Place → Prop where
  | root : Open rule []
  | enter {dir : Place} {n : Octets} (h : Open rule dir) (free : rule dir (.name n) = none) : Open rule (dir ++ [n])

theorem open_concat_iff : Open rule (dir ++ [n]) ↔ Open rule dir ∧ rule dir (.name n) = none := by
  constructor
  · intro h
    generalize hplace : dir ++ [n] = place at h
    cases h with
    | root => simp at hplace
    | enter h free =>
        obtain ⟨rfl, hn⟩ := List.append_inj' hplace rfl
        cases hn
        exact ⟨h, free⟩
  · intro h
    exact .enter h.1 h.2

/-- A directory is entered by its name. -/
theorem walks_enter_iff (hn : t.IsDir (dir ++ [n])) : Walks t rule follow links dir (.name n :: rest) d ↔
    rule dir (.name n) = none ∧ Walks t rule follow links (dir ++ [n]) rest d := by
  obtain ⟨m, hm⟩ := hn
  constructor
  · intro w
    cases w with
    | enter free _ w => exact ⟨free, w⟩
    | vacant _ h => cases h.symm.trans hm
    | file _ h => cases h.symm.trans hm
    | link _ h => cases h.symm.trans hm
    | jump _ h => cases h.symm.trans hm
  · intro h
    exact .enter h.1 hm h.2

/-- From the root, the names of a directory lead to this directory if the way to it is open. -/
theorem walks_names_iff (ht : t.Rooted) (hdir : t.IsDir dir) :
    Walks t rule follow links [] (dir.map Step.name ++ rest) d ↔
      Open rule dir ∧ Walks t rule follow links dir rest d := by
  induction dir using List.reverseRecOn generalizing rest with
  | nil => simp [Open.root]
  | append_singleton dir n ih =>
      have habove : t.IsDir dir := by simpa using ht.dropLast _ hdir
      rw [List.map_append, List.append_assoc, ih habove, open_concat_iff, and_assoc]
      exact and_congr_right fun _ => walks_enter_iff hdir

/-- A name that leads to no link that is followed leads to its place, if it is not refused. -/
theorem walks_name_iff (keep : ∀ target, t.lookup (dir ++ [n]) = some (.link target) → follow = false) :
    Walks t rule follow links dir [.name n] d ↔ rule dir (.name n) = none ∧ d = t.standing (dir ++ [n]) := by
  constructor
  · intro w
    refine ⟨?_, w.eq_of_name keep⟩
    cases w <;> assumption
  · intro h
    obtain ⟨free, rfl⟩ := h
    exact walks_name free keep

theorem checkPath_pathTo_iff (hnames : ∀ k ∈ p, IsName k) :
    checkPath (pathTo p) = .ok () ↔ (pathTo p).length < pathLimit := by
  have hnul : (pathTo p).contains 0 = false := by
    rw [List.contains_eq_mem, decide_eq_false_iff_not, pathTo]
    split
    · decide
    · rw [List.mem_flatMap]
      rintro ⟨k, hk, hmem⟩
      rcases List.mem_cons.1 hmem with hzero | hmem
      · cases hzero
      · exact (hnames k hk).nul_not_mem hmem
  rw [checkPath, hnul, if_neg Bool.false_ne_true]
  split_ifs with hlong
  · simpa using hlong
  · simpa using hlong

/-- The path from the root to the place is taken: it is short enough, and no step on its way is refused. -/
def Taken (t : FileTree) (p : Place) : Prop := (pathTo p).length < pathLimit ∧ Open t.wholeRule p

/-- **Where the path from the root leads**, and when it is taken. -/
theorem destination_pathTo_iff (ht : t.Rooted) (hdir : t.IsDir dir) (hnames : ∀ k ∈ dir ++ [n], IsName k)
    (keep : ∀ target, t.lookup (dir ++ [n]) = some (.link target) → follow = false) :
    t.destination cwd follow (pathTo (dir ++ [n])) = .ok d ↔ t.Taken (dir ++ [n]) ∧ d = t.standing (dir ++ [n]) := by
  have hn : IsName n := hnames n (by simp)
  rw [Taken, destination_eq_ok_iff, checkPath_pathTo_iff hnames, linkStart, if_pos (isAbsolute_pathTo _),
    steps_pathTo hnames, List.map_append, walks_names_iff ht hdir, endsInSlash_pathTo hn, open_concat_iff]
  simp only [List.map_cons, List.map_nil, walks_name_iff keep, ne_eq, pathTo_ne_nil, not_false_eq_true, true_and,
    Bool.false_eq_true, false_implies, and_true, and_assoc]

/-- The last step to a file is not refused. -/
theorem Walks.free_of_file (w : Walks t rule follow links p steps (.found (dir ++ [n]) (.file m c)))
    (ht : t.Rooted) (hp : t.IsDir p) : rule dir (.name n) = none := by
  generalize hd : Destination.found (dir ++ [n]) (.file m c) = d at w
  induction w with
  | arrive h =>
      obtain ⟨_, hmode⟩ := hp
      cases hd
      cases h.symm.trans hmode
  | here _ _ ih => exact ih hp hd
  | parent _ _ ih => exact ih (ht.dropLast _ hp) hd
  | enter _ h _ ih => exact ih ⟨_, h⟩ hd
  | file free h =>
      injection hd with hplace
      obtain ⟨rfl, hn⟩ := List.append_inj' hplace rfl
      cases hn
      exact free
  | jump _ _ _ _ ih => exact ih (ht.isDir_linkStart hp _) hd
  | vacant | link => simp at hd

/-- A name may be added where another one is found. -/
theorem wholeRule_name_of_length {k : Octets} (free : t.wholeRule dir (.name n) = none) :
    t.wholeRule dir (.name k) = none ↔ k.length ≤ nameLimit := by
  simp only [wholeRule] at free ⊢
  split_ifs at free ⊢ <;> simp_all

/-! ## Calls on paths from the root -/

section Calls

variable {k : Octets} (ht : t.Rooted) (hdir : t.IsDir dir) (hnames : ∀ j ∈ dir ++ [n], IsName j)

include ht hdir hnames

/-- A file that may be written is opened for writing. -/
theorem probe_pathTo (htaken : t.Taken (dir ++ [n])) (hfile : t.lookup (dir ++ [n]) = some (.file m c))
    (hwrite : m.grants .write = true) : t.probe cwd (pathTo (dir ++ [n])) = .ok () := by
  have hfind : t.find cwd (pathTo (dir ++ [n])) = .ok (dir ++ [n], .file m c) := by
    rw [find_eq_ok_iff, destination_pathTo_iff ht hdir hnames (by simp [hfile]), standing_of_some hfile]
    exact ⟨htaken, rfl⟩
  rw [probe, hfind]
  exact if_pos hwrite

/-- A file is made at a vacant place in a directory that may be written. -/
theorem create_pathTo (htaken : t.Taken (dir ++ [n])) (hvacant : t.lookup (dir ++ [n]) = none)
    (hwrite : t.denies dir .write = false) :
    t.create cwd (pathTo (dir ++ [n])) = .ok (dir ++ [n], t.insert (dir ++ [n]) (.file .newFile [])) := by
  have hdest : t.destination cwd true (pathTo (dir ++ [n])) = .ok (.vacant (dir ++ [n])) := by
    rw [destination_pathTo_iff ht hdir hnames (by simp [hvacant]), standing_of_none hvacant]
    exact ⟨htaken, rfl⟩
  simp [create, hdest, endsInSlash_pathTo (hnames n (by simp)), hwrite]

/-- A file is moved onto another one in a directory that may be written. -/
theorem exists_rename_pathTo (cwd : Place) (hnames' : ∀ j ∈ dir ++ [k], IsName j) (htaken : t.Taken (dir ++ [n]))
    (htaken' : t.Taken (dir ++ [k])) {m' : Mode} {c' : Octets} (hfile : t.lookup (dir ++ [n]) = some (.file m c))
    (hfile' : t.lookup (dir ++ [k]) = some (.file m' c')) (hwrite : t.denies dir .write = false) :
    ∃ t', t.rename cwd (pathTo (dir ++ [k])) (pathTo (dir ++ [n])) = .ok t' := by
  have hsource : t.destination cwd false (pathTo (dir ++ [k])) = .ok (.found (dir ++ [k]) (.file m' c')) := by
    rw [destination_pathTo_iff ht hdir hnames' (fun _ _ => rfl), standing_of_some hfile']
    exact ⟨htaken', rfl⟩
  have htarget : t.destination cwd false (pathTo (dir ++ [n])) = .ok (.found (dir ++ [n]) (.file m c)) := by
    rw [destination_pathTo_iff ht hdir hnames (fun _ _ => rfl), standing_of_some hfile]
    exact ⟨htaken, rfl⟩
  simp only [rename, hsource, htarget, List.dropLast_concat, hwrite, Bool.or_self, Bool.false_eq_true, if_false]
  split_ifs
  · exact ⟨_, rfl⟩
  · exact ⟨_, rfl⟩

end Calls

theorem Taken.of_sameDirectories {t' : FileTree} (h : t.Taken p) (hdirs : SameDirectories t t') : t'.Taken p := by
  rwa [Taken, hdirs.wholeRule_eq]

end FileTree

namespace Storage

open FileTree

variable {t t' : FileTree} {cwd dir : Place} {n : Octets} {path : PortablePath} {content c : Octets} {m : Mode} {pid : ℕ}

/-! ## Room for the temporary file -/

theorem utf8Size_of_isDigit {a : Char} (h : a.isDigit = true) : a.utf8Size = 1 := by
  simp only [Char.isDigit, Bool.and_eq_true, decide_eq_true_eq] at h
  have hle : a.val ≤ 127 := UInt32.le_trans h.2 (by decide)
  simp [Char.utf8Size, hle]

theorem utf8Length_ofNat (k : ℕ) : (Text.ofNat k).utf8Length = (Text.ofNat k).length := by
  have hdigits : ∀ t : Text, (∀ a ∈ t, a.isDigit = true) → t.utf8Length = t.length := by
    intro t
    induction t with
    | nil => simp
    | cons a t ih =>
        intro ht
        obtain ⟨ha, ht⟩ := List.forall_mem_cons.1 ht
        rw [Text.utf8Length_cons, utf8Size_of_isDigit ha, ih ht, List.length_cons, Nat.add_comm]
  exact hdigits _ fun a ha => mem_of_mem_ofNat ha

/-- The temporary name is as long as the name of the file, read as a text, with the number of the process and six more
characters. -/
theorem length_temporaryName (pid : ℕ) (dir : Place) (hn : IsName n) :
    (temporaryName pid (pathTo (dir ++ [n]))).length =
      (Utf8.decodeLossy n).utf8Length + (Text.ofNat pid).length + 6 := by
  have hdot : ('.' : Char).utf8Size = 1 := by decide
  have htail : Text.utf8Length ".tmp".toList = 4 := by decide
  rw [temporaryName_pathTo pid hn, Utf8.length_encode, temporaryText]
  simp only [Text.utf8Length_append, Text.utf8Length_cons, hdot, htail, utf8Length_ofNat]
  omega

/-- There is room for a write to the file `n` of the directory: the system gives the path from the root to the file, no
step on the way to the directory is refused, the temporary name is not too long, and neither is its path. -/
structure HasRoom (t : FileTree) (cwd : Place) (pid : ℕ) (path : NativePath) (dir : Place) (n : Octets) : Prop where
  real : t.realPath cwd path = .ok (pathTo (dir ++ [n]))
  way : Open t.wholeRule dir
  name : (Utf8.decodeLossy n).utf8Length + (Text.ofNat pid).length + 6 ≤ nameLimit
  length : (pathTo (temporaryPlace pid (dir ++ [n]))).length < pathLimit

/-- There is room exactly if the system gives the path from the root to the file, and the one to the temporary file is
taken. -/
theorem hasRoom_iff {path : NativePath} (hn : IsName n) (hfree : t.wholeRule dir (.name n) = none) :
    HasRoom t cwd pid path dir n ↔
      t.realPath cwd path = .ok (pathTo (dir ++ [n])) ∧ t.Taken (temporaryPlace pid (dir ++ [n])) := by
  have hplace : temporaryPlace pid (dir ++ [n]) = dir ++ [temporaryName pid (pathTo (dir ++ [n]))] := by
    rw [temporaryPlace, List.dropLast_concat]
  have hopen : Open t.wholeRule (temporaryPlace pid (dir ++ [n])) ↔ Open t.wholeRule dir ∧
      (Utf8.decodeLossy n).utf8Length + (Text.ofNat pid).length + 6 ≤ nameLimit := by
    rw [hplace, open_concat_iff, wholeRule_name_of_length hfree, length_temporaryName pid dir hn]
  rw [Taken, hopen]
  constructor
  · intro h
    exact ⟨h.real, h.length, h.way, h.name⟩
  · rintro ⟨hreal, hlength, hway, hname⟩
    exact ⟨hreal, hway, hname, hlength⟩

/-- The system gives only paths that are short enough. -/
theorem length_lt_of_realPath {p : Place} {path : NativePath} (h : t.realPath cwd path = .ok (pathTo p)) :
    (pathTo p).length < pathLimit := by
  rw [realPath] at h
  split_ifs at h
  split at h
  · cases h
  · cases h
  · next q e _ =>
    split_ifs at h with hlong
    rw [Except.ok.injEq] at h
    rw [← h]
    exact Nat.lt_of_not_le hlong

/-- A write that succeeds on a path to a file has been given the path from the root to this file. -/
theorem realPath_of_replace {p : Place} {e : Entry} (hfind : t.find cwd path.native = .ok (p, e))
    (h : (replace pid path content).run cwd t = (.ok (), t')) : t.realPath cwd path.native = .ok (pathTo p) := by
  rcases realPath_eq hfind with hreal | hreal
  · exact hreal
  · have hland : ((landing path.native).run cwd t).1 = .error (.fault path.native (.refused .nameTooLong)) := by
      rw [landing]
      simp only [Action.run_bind, Action.run_realPath, hreal]
      rfl
    rw [run_replace_of_error (Prod.ext hland (run_landing_snd _))] at h
    cases congrArg Prod.fst h

/-- Filling and moving the temporary file succeeds if the paths from the root to it and to the file are taken. -/
theorem exists_run_fillAndMove {k : Octets} (content : Octets) (ht : t.Rooted) (hdir : t.IsDir dir)
    (hnames : ∀ j ∈ dir ++ [n], IsName j) (hnames' : ∀ j ∈ dir ++ [k], IsName j) (hne : dir ++ [k] ≠ dir ++ [n])
    (htaken : t.Taken (dir ++ [n])) (htaken' : t.Taken (dir ++ [k]))
    (hfile : t.lookup (dir ++ [n]) = some (.file m c)) (hvacant : t.lookup (dir ++ [k]) = none)
    (hwrite : t.denies dir .write = false) : ∃ t',
      (fillAndMove (pathTo (dir ++ [k])) (pathTo (dir ++ [n])) content).run.run cwd t = (.ok (), t') := by
  have hcreate : t.create cwd (pathTo (dir ++ [k])) = .ok (dir ++ [k], t.insert (dir ++ [k]) (.file .newFile [])) :=
    create_pathTo ht hdir hnames' htaken' hvacant hwrite
  have hfilled := filled_of_create (pathTo (dir ++ [n])) content hcreate hvacant
  have hdirs := hfilled.sameWays.sameDirectories
  obtain ⟨t', hrename⟩ := exists_rename_pathTo (hdirs.rooted ht) (hdirs.isDir_iff.2 hdir) hnames cwd hnames'
    (htaken.of_sameDirectories hdirs) (htaken'.of_sameDirectories hdirs)
    ((hfilled.lookup_of_ne hne.symm).trans hfile) hfilled.lookup_self ((hdirs.denies_eq dir .write).trans hwrite)
  refine ⟨t', ?_⟩
  rw [run_fillAndMove, hcreate]
  simp only [hrename]

/-- **When a write succeeds.** If the path leads to a file that may be written, in a directory that may be written, and
nothing stands under the temporary name, then the write succeeds if and only if there is room for it, whatever the
content. -/
theorem replace_succeeds_iff (ht : t.WellFormed) (hcwd : t.IsDir cwd) (content : Octets)
    (hfind : t.find cwd path.native = .ok (dir ++ [n], .file m c)) (hgrants : m.grants .write = true)
    (hwrite : t.denies dir .write = false) (hvacant : t.lookup (temporaryPlace pid (dir ++ [n])) = none) :
    ((replace pid path content).run cwd t).1 = .ok () ↔ HasRoom t cwd pid path.native dir n := by
  have hfile := lookup_of_find hfind
  obtain ⟨_, _, k, hplace, htemp, hpath, hne, hdir, hnames, hnames'⟩ := exists_names_of_file ht pid hfile
  obtain ⟨rfl, hsame⟩ := List.append_inj' hplace rfl
  cases hsame
  have hfree : t.wholeRule dir (.name n) = none := by
    obtain ⟨-, -, -, w⟩ := find_file_iff.1 hfind
    exact w.free_of_file ht.rooted (ht.rooted.isDir_linkStart hcwd _)
  rw [hasRoom_iff (hnames n (by simp)) hfree, htemp]
  rw [htemp] at hvacant
  constructor
  · intro hdone
    have hrun : (replace pid path content).run cwd t = (.ok (), ((replace pid path content).run cwd t).2) :=
      Prod.ext hdone rfl
    obtain ⟨-, x, u, hcreate, -⟩ := replace_eq_ok hfind hrun
    rw [hpath] at hcreate
    obtain ⟨hdest, -⟩ := create_eq_ok hcreate
    exact ⟨realPath_of_replace hfind hrun,
      ((destination_pathTo_iff ht.rooted hdir hnames' (by simp [hvacant])).1 hdest).1⟩
  · rintro ⟨hreal, htaken'⟩
    have htaken : t.Taken (dir ++ [n]) :=
      ⟨length_lt_of_realPath hreal, .enter (open_concat_iff.1 htaken'.2).1 hfree⟩
    have hprobe : t.probe cwd (pathTo (dir ++ [n])) = .ok () :=
      probe_pathTo ht.rooted hdir hnames htaken hfile hgrants
    have hland := run_landing_eq_ok_iff.2 (.inl ⟨hreal, hprobe⟩)
    obtain ⟨t', hfill⟩ := exists_run_fillAndMove content ht.rooted hdir hnames hnames' hne htaken htaken' hfile
      hvacant hwrite
    rw [run_replace_of_ok (Prod.ext hland (run_landing_snd _)), hpath, hfill]

/-- A file with a short name can be written. -/
theorem replace_succeeds_short : HasRoom (oneFile 0o644 [0x6F]) [] 1 filePath.native [] [0x66] ∧
    ((replace 1 filePath [0x6E]).run [] (oneFile 0o644 [0x6F])).1 = .ok () := by
  have hroom : HasRoom (oneFile 0o644 [0x6F]) [] 1 filePath.native [] [0x66] :=
    ⟨by decide +kernel, .root, by decide +kernel, by decide +kernel⟩
  have hfind : (oneFile 0o644 [0x6F]).find [] filePath.native = .ok ([] ++ [[0x66]], .file 0o644 [0x6F]) := by
    decide +kernel
  exact ⟨hroom, (replace_succeeds_iff (wellFormed_oneFile _ _) ⟨0o755, by decide⟩ [0x6E] hfind (by decide)
    (by decide) (by decide +kernel)).2 hroom⟩

/-- A name that leaves no room for the temporary name. -/
def longName : Octets := List.replicate 250 0x61

/-- A tree with one file in its root, under the long name. -/
def oneLongFile : FileTree := empty.insert [longName] (.file 0o644 [0x6F])

/-- The path of the file. -/
def longPath : PortablePath := ⟨List.replicate 250 'a'⟩

/-- The file with the long name and its directory may be written, and nothing stands under the temporary name, but a
write to the file fails. -/
theorem replace_long_name :
    oneLongFile.find [] longPath.native = .ok ([longName], .file 0o644 [0x6F]) ∧
      Mode.grants 0o644 .write = true ∧ oneLongFile.denies [] .write = false ∧
      oneLongFile.lookup (temporaryPlace 1 [longName]) = none ∧
      (temporaryName 1 (pathTo [longName])).length = 257 ∧
      ((replace 1 longPath [0x6E]).run [] oneLongFile).1 =
        .error (.fault (temporaryPath 1 (pathTo [longName])) (.refused .nameTooLong)) := by
  decide +kernel

end Storage
end DocSplice
