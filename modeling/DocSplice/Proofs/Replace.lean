import DocSplice.Storage.Document
import DocSplice.Proofs.Change

/-!
# What a replacement leaves behind

A replacement that succeeds has put a file with the new content where the path of the temporary file led, and
has then moved what stands under the temporary name to the end of the links of the given path (`replace_eq_ok`).
The path of the temporary file leads to its own place, unless a link has been left there; then the link says
where the file is put, and it is the link that is moved. `Replaced` says both (`exists_replaced`).
-/
namespace DocSplice

variable {t t' : FileTree} {cwd : Place} {path temp target : NativePath} {content : Octets}

namespace Task

variable {ε α β : Type} {x : Task Place ε α} {f : α → Task Place ε β}

/-- After a task that succeeds, the next one is run. -/
theorem run_bind_of_ok {a : α} (h : x.run.run cwd t = (.ok a, t')) :
    (x >>= f).run.run cwd t = (f a).run.run cwd t' := by
  rw [ExceptT.run_bind, Action.run_bind, h]

/-- After a task that fails, nothing more is run. -/
theorem run_bind_of_error {e : ε} (h : x.run.run cwd t = (.error e, t')) :
    (x >>= f).run.run cwd t = (.error e, t') := by
  rw [ExceptT.run_bind, Action.run_bind, h]
  rfl

theorem run_ofCall (act : Action Place (Except Fault α)) (error : Fault → ε) :
    (ofCall act error).run.run cwd t = ((act.run cwd t).1.mapError error, (act.run cwd t).2) :=
  Action.run_map cwd (Except.mapError error) act t

/-- A call that succeeds hands its answer on. -/
theorem run_ofCall_bind {act : Action Place (Except Fault α)} {error : Fault → ε} {a : α}
    (h : act.run cwd t = (.ok a, t')) : (ofCall act error >>= f).run.run cwd t = (f a).run.run cwd t' := by
  refine run_bind_of_ok ?_
  rw [run_ofCall, h]
  rfl

end Task

/-- The tree with the mode of the target given to the file, if the target has one. -/
def FileTree.passMode (t : FileTree) (cwd : Place) (target : NativePath) (file : Place) : FileTree :=
  match t.modeOf cwd target with
  | .ok mode => t.setMode file mode
  | .error _ => t

/-- A file that is given the mode of the target keeps its content, and its own mode if the target has none. -/
theorem FileTree.Filled.passMode {u : FileTree} {x : Place} {m : Mode} {c : Octets} (h : Filled t u x m c) :
    Filled t (u.passMode cwd target x) x ((u.modeOf cwd target).toOption.getD m) c := by
  rw [FileTree.passMode]
  cases u.modeOf cwd target with
  | ok mode => exact h.setMode mode
  | error f => exact h

namespace Storage

open FileTree

theorem run_passMode (temp target : NativePath) (file : Place) :
    (passMode temp target file).run cwd t = (.ok (), t.passMode cwd target file) := by
  unfold passMode FileTree.passMode
  simp only [Action.run_bind, Action.run_modeOf]
  cases t.modeOf cwd target <;> simp [Except.mapError]

/-- Filling the temporary file and moving it: only opening it and moving it can fail. -/
theorem run_fillAndMove (temp target : NativePath) (content : Octets) :
    (fillAndMove temp target content).run.run cwd t =
      match t.create cwd temp with
      | .error f => (.error (.fault temp f), t)
      | .ok (x, u) =>
        match ((u.passMode cwd target x).append x content).rename cwd temp target with
        | .error f => (.error (.fault target f), (u.passMode cwd target x).append x content)
        | .ok v => (.ok (), v) := by
  simp only [fillAndMove, Task.onPath]
  cases hcreate : t.create cwd temp with
  | error f =>
      refine Task.run_bind_of_error ?_
      rw [Task.run_ofCall, Action.run_create, hcreate]
      rfl
  | ok r =>
      obtain ⟨x, u⟩ := r
      have hopen : (Action.create temp).run cwd t = (.ok x, u) := by
        rw [Action.run_create, hcreate]
        rfl
      have hmode : (ExceptT.mk (passMode temp target x) : Task Place StorageError Unit).run.run cwd u
          = (.ok (), u.passMode cwd target x) := run_passMode temp target x
      rw [Task.run_ofCall_bind hopen, Task.run_ofCall_bind (Action.run_lock cwd x u), Task.run_bind_of_ok hmode,
        Task.run_ofCall_bind (Action.run_write cwd x content _), Task.run_ofCall_bind (Action.run_sync cwd x _),
        Task.run_ofCall_bind (Action.run_unlock cwd x _), Task.run_ofCall, Action.run_rename]
      dsimp only
      cases ((u.passMode cwd target x).append x content).rename cwd temp target <;> rfl

theorem fillAndMove_eq_ok (h : (fillAndMove temp target content).run.run cwd t = (.ok (), t')) :
    ∃ x u, t.create cwd temp = .ok (x, u) ∧
      ((u.passMode cwd target x).append x content).rename cwd temp target = .ok t' := by
  rw [run_fillAndMove] at h
  split at h
  · cases congrArg Prod.fst h
  · next x u hcreate =>
    refine ⟨x, u, hcreate, ?_⟩
    split at h
    · cases congrArg Prod.fst h
    · next v hrename =>
      obtain rfl : v = t' := congrArg Prod.snd h
      exact hrename

/-- A path to a file lands on the path from the root to it, unless a path is too long or the file may not be
written. -/
theorem run_landing_of_find {place : Place} {e : Entry} (hfind : t.find cwd path = .ok (place, e)) :
    (landing path).run cwd t = (.ok (pathTo place), t) ∧ t.probe cwd (pathTo place) = .ok () ∨
      ∃ e, (landing path).run cwd t = (.error e, t) := by
  rw [landing]
  simp only [Action.run_bind, Action.run_realPath]
  rcases realPath_eq hfind with hreal | hreal
  · rw [hreal]
    simp only [Action.run_bind, Action.run_probe]
    cases hprobe : t.probe cwd (pathTo place) with
    | ok u => exact .inl ⟨rfl, rfl⟩
    | error f => exact .inr ⟨_, rfl⟩
  · rw [hreal]
    exact .inr ⟨_, rfl⟩

section Landing

variable {pid : ℕ} {path : PortablePath}

theorem run_replace_of_error {e : StorageError} (h : (landing path.native).run cwd t = (.error e, t)) :
    (replace pid path content).run cwd t = (.error e, t) := by
  rw [replace, Action.run_bind, h]
  rfl

/-- Where a write lands, the temporary file is filled and moved, or removed. -/
theorem run_replace_of_ok (h : (landing path.native).run cwd t = (.ok target, t)) :
    (replace pid path content).run cwd t =
      match (fillAndMove (temporaryPath pid target) target content).run.run cwd t with
      | (.ok (), u) => (.ok (), u)
      | (.error e, u) => (.error e, ((Action.unlink (temporaryPath pid target)).run cwd u).2) := by
  rw [replace, Action.run_bind, h]
  simp only [Action.run_bind]
  rcases (fillAndMove (temporaryPath pid target) target content).run.run cwd t with ⟨e | u, v⟩ <;> rfl

/-- What a replacement does that succeeds on a path to a file: the file may be written, and its path from the
root is the target. -/
theorem replace_eq_ok {place : Place} {e : Entry} (hfind : t.find cwd path.native = .ok (place, e))
    (h : (replace pid path content).run cwd t = (.ok (), t')) :
    t.probe cwd (pathTo place) = .ok () ∧
      ∃ x u, t.create cwd (temporaryPath pid (pathTo place)) = .ok (x, u) ∧
        ((u.passMode cwd (pathTo place) x).append x content).rename cwd
          (temporaryPath pid (pathTo place)) (pathTo place) = .ok t' := by
  rcases run_landing_of_find hfind with ⟨hlanding, hprobe⟩ | ⟨e, hlanding⟩
  · rw [run_replace_of_ok hlanding] at h
    split at h
    · next v hfill =>
      obtain rfl : v = t' := congrArg Prod.snd h
      exact ⟨hprobe, fillAndMove_eq_ok hfill⟩
    · cases congrArg Prod.fst h
  · rw [run_replace_of_error hlanding] at h
    cases congrArg Prod.fst h

end Landing

/-- What a replacement of the file at `dest` does to the tree `t`: a file is put at `x`, which leads to the tree
`u`, and what stands at `source` then is moved to `dest`, which leads to `t'`. -/
structure Replaced (t u t' : FileTree) (source dest x : Place) (mode : Mode) (content : Octets) : Prop where
  filled : Filled t u x mode content
  moved : Moved u t' source dest
  ne : source ≠ dest
  file : ∃ mode content, t.lookup dest = some (.file mode content)
  plain : (∀ target, t.lookup source ≠ some (.link target)) → x = source
  link : ∀ target, t.lookup source = some (.link target) → ∃ links,
    Walks u u.wholeRule true links (linkStart dest.dropLast target) (linkSteps target)
      (.found x (.file mode content))
  readable : x ≠ dest → ∀ m c, t.lookup dest = some (.file m c) → m.grants .read = true →
    mode.grants .read = true

/-- A file that may be written by its path from the root is found by it. -/
theorem find_pathTo_of_probe (ht : t.Rooted) {dir : Place} {n : Octets} (hdir : t.IsDir dir)
    (hnames : ∀ k ∈ dir ++ [n], NativePath.IsName k) {m : Mode} {c : Octets}
    (hfile : t.lookup (dir ++ [n]) = some (.file m c))
    (hprobe : t.probe cwd (pathTo (dir ++ [n])) = .ok ()) :
    t.find cwd (pathTo (dir ++ [n])) = .ok (dir ++ [n], .file m c) := by
  cases hfind : t.find cwd (pathTo (dir ++ [n])) with
  | error f => simp [probe, hfind] at hprobe
  | ok found =>
      obtain ⟨p, e⟩ := found
      have hstanding := destination_pathTo ht hdir hnames (by simp [hfile]) (find_eq_ok_iff.1 hfind)
      rw [standing_of_some hfile] at hstanding
      obtain ⟨rfl, rfl⟩ := Destination.found.inj hstanding
      rfl

/-- The new content stands in a file where the temporary path leads. The file has the mode of the target,
unless it is the target itself. -/
theorem exists_filled (content : Octets) {x dest : Place} {m : Mode} {c : Octets} {u : FileTree} (ht : t.Rooted)
    (hcwd : t.IsDir cwd) (hcreate : t.create cwd temp = .ok (x, u))
    (hfind : t.find cwd target = .ok (dest, .file m c)) :
    ∃ mode, Filled t ((u.passMode cwd target x).append x content) x mode content ∧
      (x ≠ dest → mode = m.written content) := by
  obtain ⟨-, m₀, hfilled⟩ := create_eq_ok hcreate
  refine ⟨_, hfilled.passMode.append content, ?_⟩
  intro hx
  have hkept : u.lookup dest = some (.file m c) := by
    rw [hfilled.lookup_of_ne (Ne.symm hx), lookup_of_find hfind]
  have hmode : u.modeOf cwd target = .ok m := by
    rw [modeOf, find_frame hfilled.sameWays ht hcwd hfind hkept]
  rw [hmode]
  rfl

/-- A file in a tree stands under a name in a directory. -/
theorem exists_dir_of_file (ht : t.WellFormed) {place : Place} {m : Mode} {c : Octets}
    (h : t.lookup place = some (.file m c)) :
    ∃ dir n, place = dir ++ [n] ∧ t.IsDir dir ∧ ∀ k ∈ dir ++ [n], NativePath.IsName k := by
  obtain ⟨dir, n, rfl⟩ := ht.rooted.exists_concat h
  exact ⟨dir, n, rfl, ht.above dir n _ h, ht.isName_of_mem h⟩

/-- A file and the temporary file for it stand under different names in one directory. -/
theorem exists_names_of_file (ht : t.WellFormed) (pid : ℕ) {place : Place} {m : Mode} {c : Octets}
    (h : t.lookup place = some (.file m c)) :
    ∃ dir n k, place = dir ++ [n] ∧ temporaryPlace pid place = dir ++ [k] ∧
      temporaryPath pid (pathTo place) = pathTo (dir ++ [k]) ∧ dir ++ [k] ≠ dir ++ [n] ∧ t.IsDir dir ∧
      (∀ j ∈ dir ++ [n], NativePath.IsName j) ∧ ∀ j ∈ dir ++ [k], NativePath.IsName j := by
  obtain ⟨dir, n, rfl, hdir, hnames⟩ := exists_dir_of_file ht h
  obtain ⟨k, htemp, hk, hkn⟩ := exists_temporaryPlace_eq pid dir (hnames n (by simp))
  have hdirNames : ∀ j ∈ dir, NativePath.IsName j := fun j hj => hnames j (by simp [hj])
  refine ⟨dir, n, k, rfl, htemp, ?_, by simpa using hkn, hdir, hnames, ?_⟩
  · rw [temporaryPath_pathTo pid hdirNames (hnames n (by simp)), htemp]
  · intro j hj
    rcases List.mem_append.1 hj with hj | hj
    · exact hdirNames j hj
    · exact List.mem_singleton.1 hj ▸ hk

/-- **What a replacement leaves behind**, if it succeeds on a path to a file. -/
theorem exists_replaced {pid : ℕ} {path : PortablePath} {place : Place} {m : Mode} {c : Octets}
    (ht : t.WellFormed) (hcwd : t.IsDir cwd) (hfind : t.find cwd path.native = .ok (place, .file m c))
    (h : (replace pid path content).run cwd t = (.ok (), t')) :
    ∃ u x mode, Replaced t u t' (temporaryPlace pid place) place x mode content := by
  have hfile := lookup_of_find hfind
  obtain ⟨dir, n, k, rfl, htemp, hpath, hne, hdir, hnames, htempNames⟩ := exists_names_of_file ht pid hfile
  obtain ⟨hprobe, x, u, hcreate, hrename⟩ := replace_eq_ok hfind h
  rw [hpath] at hcreate hrename
  rw [htemp]
  obtain ⟨hdest, -⟩ := create_eq_ok hcreate
  obtain ⟨mode, hfilled, hmode⟩ := exists_filled content ht.rooted hcwd hcreate
    (find_pathTo_of_probe ht.rooted hdir hnames hfile hprobe)
  have hrooted := hfilled.sameWays.sameDirectories.rooted ht.rooted
  have hdir' := hfilled.sameWays.sameDirectories.isDir_iff.2 hdir
  refine ⟨_, x, mode, hfilled, ?moved, hne, ⟨m, c, hfile⟩, ?plain, ?link, ?readable⟩
  case moved =>
    refine rename_eq_ok hrename ?_ ?_ hne
    · intro d hd
      exact destination_pathTo hrooted hdir' htempNames (fun _ _ => rfl) hd
    · intro d hd
      exact destination_pathTo hrooted hdir' hnames (fun _ _ => rfl) hd
  case plain =>
    intro hplain
    have hself := destination_pathTo ht.rooted hdir htempNames (fun target hl => absurd hl (hplain target))
      hdest
    simpa using congrArg Destination.place hself
  case link =>
    intro target hlink
    obtain ⟨links, w⟩ := walks_of_destination_link ht.rooted hdir htempNames hlink hdest
    have w := w.frame hfilled.sameWays ht.rooted (ht.rooted.isDir_linkStart hdir target)
    rw [place_standing, standing_of_some hfilled.lookup_self] at w
    rw [hfilled.sameWays.sameDirectories.wholeRule_eq, List.dropLast_concat]
    exact ⟨links, w⟩
  case readable =>
    intro hx m' c' hm' hread
    cases hfile.symm.trans hm'
    rw [hmode hx]
    exact Mode.grants_read_written hread content

end Storage
end DocSplice
