import DocSplice.Proofs.LinksKept

/-!
# Writes that are interrupted

An action that is stopped has been stopped in the first of its parts, or this part has come to its end and the action
has been stopped in the rest (`Interrupted.of_bind`). A write that is stopped leaves the tree as it was, or with the
temporary file being filled, or as the whole write does (`interrupted_replace`). While the temporary file is being
filled, a path finds what it found before, if it did so when this file was made (`Filling.find_eq`). So the old document
or the new one is read at every stop, provided that the temporary file is kept apart from the path (`KeptApart`). It is
if the path finds something, or no link spells the name of the temporary file (`keptApart_of_not_mem`); through a link
that leads to nothing but this file, the part that has been written is read.
-/
namespace DocSplice

variable {α β ε : Type} {t u v : FileTree} {cwd x : Place} {temp target : NativePath} {content : Octets}

namespace Action

variable {act : Action Place α} {f : α → Action Place β}

/-- An action can be stopped at its end. -/
theorem Interrupted.at_end (act : Action Place α) (t : FileTree) : Interrupted cwd act t (act.run cwd t).2 := by
  induction act generalizing t with
  | done a => exact .here _ _
  | call c next ih => exact .later (ih _ _)

/-- What stops the first part of a sequence stops the sequence. -/
theorem Interrupted.bind_left (h : Interrupted cwd act t u) (f : α → Action Place β) :
    Interrupted cwd (act >>= f) t u := by
  induction h with
  | here act t => exact .here _ t
  | inside file content n next t => exact .inside file content n (fun answer => next answer >>= f) t
  | later _ ih => exact .later ih

/-- What stops the rest of a sequence stops the sequence. -/
theorem Interrupted.bind_right (h : Interrupted cwd (f (act.run cwd t).1) (act.run cwd t).2 u) :
    Interrupted cwd (act >>= f) t u := by
  induction act generalizing t with
  | done a => exact h
  | call c next ih => exact .later (ih _ h)

theorem Interrupted.of_done {a : α} (h : Interrupted cwd (done a) t u) : u = t := by
  cases h
  rfl

/-- What stops a sequence stops its first part, or the rest of it where the first part has ended. -/
theorem Interrupted.of_bind (h : Interrupted cwd (act >>= f) t u) :
    Interrupted cwd act t u ∨ Interrupted cwd (f (act.run cwd t).1) (act.run cwd t).2 u := by
  induction act generalizing t with
  | done a => exact .inr h
  | call c next ih =>
      rw [call_bind] at h
      cases h with
      | here => exact .inl (.here _ _)
      | inside file content n => exact .inl (.inside file content n next t)
      | later h => exact (ih _ h).imp_left .later

theorem Interrupted.of_map {f : α → β} (h : Interrupted cwd (f <$> act) t u) : Interrupted cwd act t u := by
  rcases Interrupted.of_bind (f := fun a => done (f a)) h with h | h
  · exact h
  · rw [h.of_done]
    exact .at_end act t

/-- A single call that is no write is stopped before it or behind it. -/
theorem Interrupted.of_call {c : Call Place} (h : Interrupted cwd (call c done) t u)
    (hwrite : ∀ file content, c ≠ .write file content) : u = t ∨ u = (c.perform cwd t).2 := by
  cases h with
  | here => exact .inl rfl
  | inside file content n => exact absurd rfl (hwrite file content)
  | later h => exact .inr h.of_done

/-- A write is stopped behind any part of its content. -/
theorem Interrupted.of_write {file : Place} (h : Interrupted cwd (write file content) t u) :
    u = t ∨ ∃ n, u = t.append file (content.take n) := by
  cases h with
  | here => exact .inl rfl
  | inside => exact .inr ⟨_, rfl⟩
  | later h => exact .inr ⟨content.length, by rw [h.of_done, List.take_length]; rfl⟩

end Action

namespace Task

open DocSplice.Action

variable {y : Task Place ε α} {g : α → Task Place ε β}

theorem interrupted_bind (h : Interrupted cwd (y >>= g).run t u) : Interrupted cwd y.run t u ∨
    ∃ a, (y.run.run cwd t).1 = .ok a ∧ Interrupted cwd (g a).run (y.run.run cwd t).2 u := by
  rw [ExceptT.run_bind] at h
  rcases h.of_bind with h | h
  · exact .inl h
  · cases hresult : (y.run.run cwd t).1 with
    | ok a =>
        rw [hresult] at h
        exact .inr ⟨a, rfl, h⟩
    | error e =>
        rw [hresult] at h
        rw [h.of_done]
        exact .inl (.at_end _ _)

theorem interrupted_ofCall_bind {act : Action Place (Except Fault α)} {error : Fault → ε}
    (h : Interrupted cwd (ofCall act error >>= g).run t u) : Interrupted cwd act t u ∨
      ∃ a, (act.run cwd t).1 = .ok a ∧ Interrupted cwd (g a).run (act.run cwd t).2 u := by
  rcases interrupted_bind h with h | ⟨a, ha, h⟩
  · exact .inl h.of_map
  · rw [run_ofCall] at ha h
    cases hanswer : (act.run cwd t).1 with
    | ok b =>
        rw [hanswer] at ha
        cases ha
        exact .inr ⟨a, rfl, h⟩
    | error f =>
        rw [hanswer] at ha
        cases ha

end Task

namespace Storage

open DocSplice.Action FileTree

theorem interrupted_landing {path : NativePath} (h : Interrupted cwd (landing path) t u) : u = t := by
  rcases h.of_bind with h | h
  · rcases h.of_call (by simp) with rfl | rfl <;> rfl
  · rw [run_realPath] at h
    dsimp only at h
    split at h
    · rcases h.of_bind with h | h
      · rcases h.of_call (by simp) with rfl | rfl <;> rfl
      · rw [run_probe] at h
        dsimp only at h
        split at h <;> exact h.of_done
    · exact h.of_done
    · exact h.of_done

/-- The trees while a temporary file is being filled: it has been opened, it has been given the mode of the target, or
some of the content has been written. -/
inductive Filling (v : FileTree) (cwd : Place) (target : NativePath) (x : Place) (content : Octets) :
    FileTree → Prop where
  | opened : Filling v cwd target x content v
  | passed : Filling v cwd target x content (v.passMode cwd target x)
  | written (n : ℕ) : Filling v cwd target x content ((v.passMode cwd target x).append x (content.take n))

/-- Where a temporary file is being filled, the tree is as it was but for this file. -/
theorem Filling.filled {m : Mode} (hmade : Filled t v x m []) (h : Filling v cwd target x content u) :
    ∃ mode c, Filled t u x mode c := by
  cases h with
  | opened => exact ⟨_, _, hmade⟩
  | passed => exact ⟨_, _, hmade.passMode⟩
  | written n => exact ⟨_, _, hmade.passMode.append (content.take n)⟩

theorem interrupted_passMode {temp : NativePath} (h : Interrupted cwd (passMode temp target x) v u) :
    u = v ∨ u = v.passMode cwd target x := by
  rw [passMode] at h
  rcases h.of_bind with h | h
  · rcases h.of_call (by simp) with rfl | rfl <;> exact .inl rfl
  · rw [run_modeOf] at h
    rw [FileTree.passMode]
    dsimp only at h
    cases hmode : v.modeOf cwd target with
    | ok mode =>
        rw [hmode] at h
        exact h.of_map.of_call (by simp)
    | error f =>
        rw [hmode] at h
        exact .inl h.of_done

/-- What is done with the temporary file once it is open. -/
def fillOpened (temp target : NativePath) (content : Octets) (file : Place) : Task Place StorageError Unit := do
  Task.ofCall (lock file) fun _ => .notHeld target
  ExceptT.mk (passMode temp target file)
  Task.onPath temp (write file content)
  Task.onPath temp (sync file)
  Task.ofCall (unlock file) fun _ => .notHeld target
  Task.onPath target (rename temp target)

theorem run_create_of_ok (h : t.create cwd temp = .ok (x, v)) : (create temp).run cwd t = (.ok x, v) := by
  rw [run_create, h]
  rfl

theorem fillAndMove_eq : fillAndMove temp target content =
    (Task.onPath temp (create temp) >>= fillOpened temp target content) := rfl

/-- From the opening of the temporary file to its move, it is being filled. -/
theorem interrupted_fillOpened (h : Interrupted cwd (fillOpened temp target content x).run v u) :
    Filling v cwd target x content u ∨ ((v.passMode cwd target x).append x content).rename cwd temp target = .ok u := by
  have hwritten : Filling v cwd target x content ((v.passMode cwd target x).append x content) := by
    have hall := @Filling.written v cwd target x content content.length
    rwa [List.take_length] at hall
  simp only [fillOpened, Task.onPath] at h
  rcases Task.interrupted_ofCall_bind h with h | ⟨-, -, h⟩
  · rcases h.of_call (by simp) with rfl | rfl <;> exact .inl .opened
  rw [run_lock] at h
  rcases Task.interrupted_bind h with h | ⟨-, -, h⟩
  · rcases interrupted_passMode h with rfl | rfl
    · exact .inl .opened
    · exact .inl .passed
  change Interrupted cwd _ ((passMode temp target x).run cwd v).2 u at h
  rw [run_passMode] at h
  rcases Task.interrupted_ofCall_bind h with h | ⟨-, -, h⟩
  · rcases h.of_write with rfl | ⟨n, rfl⟩
    · exact .inl .passed
    · exact .inl (.written n)
  rw [run_write] at h
  rcases Task.interrupted_ofCall_bind h with h | ⟨-, -, h⟩
  · rcases h.of_call (by simp) with rfl | rfl <;> exact .inl hwritten
  rw [run_sync] at h
  rcases Task.interrupted_ofCall_bind h with h | ⟨-, -, h⟩
  · rcases h.of_call (by simp) with rfl | rfl <;> exact .inl hwritten
  rw [run_unlock] at h
  rcases h.of_map.of_call (by simp) with rfl | hu
  · exact .inl hwritten
  · cases hrename : ((v.passMode cwd target x).append x content).rename cwd temp target with
    | error f =>
        have hstayed : u = (v.passMode cwd target x).append x content := by
          simpa [Call.perform, hrename, Call.settle, Except.map] using hu
        exact .inl (hstayed ▸ hwritten)
    | ok w =>
        have hmoved : u = w := by simpa [Call.perform, hrename, Call.settle, Except.map] using hu
        exact .inr (congrArg Except.ok hmoved.symm)

/-- Filling and moving a temporary file, stopped somewhere: nothing has happened yet, or the file is being filled, or
all is done. -/
theorem interrupted_fillAndMove (h : Interrupted cwd (fillAndMove temp target content).run t u) :
    u = t ∨ (∃ x v, t.create cwd temp = .ok (x, v) ∧ Filling v cwd target x content u) ∨
      (fillAndMove temp target content).run.run cwd t = (.ok (), u) := by
  have hrun : (fillAndMove temp target content).run.run cwd t = _ := run_fillAndMove temp target content
  rw [fillAndMove_eq, Task.onPath] at h
  cases hcreate : t.create cwd temp with
  | error f =>
      rcases Task.interrupted_ofCall_bind h with h | ⟨x, hx, -⟩
      · rcases h.of_call (by simp) with rfl | rfl
        · exact .inl rfl
        · simp [Call.perform, hcreate, Call.settle]
      · simp [hcreate, Call.settle] at hx
  | ok made =>
      obtain ⟨x, v⟩ := made
      have hopen := run_create_of_ok hcreate
      rcases Task.interrupted_ofCall_bind h with h | ⟨x', hx', h⟩
      · rcases h.of_call (by simp) with rfl | hu
        · exact .inl rfl
        · obtain rfl : u = v := hu.trans (congrArg Prod.snd hopen)
          exact .inr (.inl ⟨x, u, rfl, .opened⟩)
      · rw [hopen] at hx' h
        obtain rfl := Except.ok.inj hx'
        rcases interrupted_fillOpened h with hfilling | hrename
        · exact .inr (.inl ⟨x, v, rfl, hfilling⟩)
        · refine .inr (.inr ?_)
          rw [hrun, hcreate]
          simp only [hrename]

/-- **A write that is stopped somewhere** has changed nothing yet, or is filling the temporary file, or has done all. -/
theorem interrupted_replace {pid : ℕ} {path : PortablePath} (h : Interrupted cwd (replace pid path content) t u) :
    u = t ∨ u = ((replace pid path content).run cwd t).2 ∨
      ∃ target x v, ((landing path.native).run cwd t).1 = .ok target ∧
        t.create cwd (temporaryPath pid target) = .ok (x, v) ∧ Filling v cwd target x content u := by
  cases hland : ((landing path.native).run cwd t).1 with
  | error e =>
      rw [replace] at h
      rcases h.of_bind with h | h
      · exact .inl (interrupted_landing h)
      · rw [hland, run_landing_snd] at h
        exact .inl h.of_done
  | ok target =>
      have hrun : (replace pid path content).run cwd t = _ := run_replace_of_ok (Prod.ext hland (run_landing_snd _))
      have hfilling : ∀ {w}, Interrupted cwd (fillAndMove (temporaryPath pid target) target content).run t w → w = t ∨
          w = ((replace pid path content).run cwd t).2 ∨
          ∃ target' x v, (.ok target : Except StorageError NativePath) = .ok target' ∧
            t.create cwd (temporaryPath pid target') = .ok (x, v) ∧ Filling v cwd target' x content w := by
        intro w hw
        rcases interrupted_fillAndMove hw with hw | ⟨x, v, hcreate, hw⟩ | hw
        · exact .inl hw
        · exact .inr (.inr ⟨target, x, v, rfl, hcreate, hw⟩)
        · exact .inr (.inl (by rw [hrun, hw]))
      rw [replace] at h
      rcases h.of_bind with h | h
      · exact .inl (interrupted_landing h)
      rw [hland, run_landing_snd] at h
      rcases h.of_bind with h | h
      · exact hfilling h
      · have hend := hfilling (.at_end _ t)
        generalize hdone : (fillAndMove (temporaryPath pid target) target content).run.run cwd t = r at h hend hrun
        obtain ⟨e | a, w⟩ := r
        · rcases h.of_bind with h | h
          · rcases h.of_call (by simp) with rfl | hu
            · exact hend
            · exact .inr (.inl (by rw [hrun, hu]; rfl))
          · exact .inr (.inl (by rw [hrun, h.of_done]))
        · exact .inr (.inl (by rw [hrun, h.of_done]))

/-- A write can be stopped right behind the opening of its temporary file. -/
theorem interrupted_of_create {pid : ℕ} {path : PortablePath} (hland : ((landing path.native).run cwd t).1 = .ok target)
    (hcreate : t.create cwd (temporaryPath pid target) = .ok (x, v)) :
    Interrupted cwd (replace pid path content) t v := by
  have hopen : Interrupted cwd (create (temporaryPath pid target)) t v := by
    have hend : Interrupted cwd (create (temporaryPath pid target)) t _ := .at_end _ t
    rwa [run_create_of_ok hcreate] at hend
  rw [replace]
  refine .bind_right ?_
  rw [hland, run_landing_snd]
  refine .bind_left ?_ _
  rw [fillAndMove_eq, ExceptT.run_bind]
  exact .bind_left (.bind_left hopen _) _

/-! ## What is read then -/

variable {t' : FileTree} {path : NativePath} {pid : ℕ} {mode : Mode} {place : Place}

/-- What is read depends on what is found only. -/
theorem read_eq_of_find (h : u.find cwd path = t.find cwd path) : u.read cwd path = t.read cwd path := by
  rw [FileTree.read, FileTree.read, h]

/-- Reading says that something is missing only where nothing is found. -/
theorem find_of_read_notFound (h : t.read cwd path = .error (.refused .notFound)) :
    t.find cwd path = .error (.refused .notFound) := by
  rw [FileTree.read] at h
  split at h
  · next f hfind =>
    cases h
    exact hfind
  · split_ifs at h
    cases h
  · split_ifs at h <;> cases h
  · cases h

/-- A write to a path that finds nothing lands on this path. -/
theorem landing_of_notFound (ht : t.WellFormed) (hcwd : t.IsDir cwd) (hland : ((landing path).run cwd t).1 = .ok target)
    (hfind : t.find cwd path = .error (.refused .notFound)) : target = path := by
  rcases run_landing_eq_ok_iff.1 hland with ⟨hreal, hprobe⟩ | ⟨-, htarget⟩
  · obtain ⟨dir, n, m, c, hresolve, -⟩ := find_of_landing ht hcwd hreal hprobe
    rcases find_of_resolveBy hresolve with hfound | ⟨f, hfound, hf⟩
    · cases hfound.symm.trans hfind
    · exact absurd (Except.error.inj (hfound.symm.trans hfind)) hf
  · exact htarget

/-- After the whole write, the path reads what it read before or the content. -/
theorem Written.read_eq (h : Written t t' cwd pid path content place mode) (ht : t.Rooted) (hcwd : t.IsDir cwd) :
    t'.read cwd path = t.read cwd path ∨ t'.read cwd path = .ok content := by
  cases h.lands with
  | missing hmissing => exact .inr (h.reads (.inr hmissing))
  | @resolved e hresolve =>
      have w := walk_eq_ok_iff.1 (resolveBy_eq_ok_iff.1 hresolve).2.1
      have he := w.lookup_of_found
      have hplain : ∀ l, t.lookup place ≠ some (.link l) := by
        intro l hl
        cases he.symm.trans hl
        exact w.ne_link ht (ht.isDir_linkStart hcwd path) l rfl
      have hfound : t.find cwd path ≠ .error (.refused .notFound) := by
        rcases find_of_resolveBy hresolve with hfind | ⟨f, hfind, hf⟩
        · simp [hfind]
        · simpa [hfind] using hf
      have hfind' := h.stored.find_eq hplain ht hcwd hfound
      rcases find_of_resolveBy hresolve with hfind | ⟨f, hfind, -⟩
      · rw [hfind] at hfind'
        cases e with
        | directory m => exact absurd ⟨m, he⟩ h.stored.free
        | link l => exact absurd he (hplain l)
        | file m c =>
            have hfind' : t'.find cwd path = .ok (place, .file mode content) := by simpa [Except.map] using hfind'
            have hgrants := Mode.grants_eq_of_mod (h.keeps m c he) .read
            cases hread : m.grants .read with
            | true => exact .inr (read_eq_ok_iff.2 ⟨place, mode, hfind', hgrants.trans hread⟩)
            | false => exact .inl (by simp [FileTree.read, hfind, hfind', hgrants, hread])
      · rw [hfind] at hfind'
        exact .inl (read_eq_of_find (hfind'.trans hfind.symm))

/-- The temporary file is kept apart from the path: making it does not change what the path finds; or nothing is to be
written, and the path finds this empty file then. -/
def KeptApart (t : FileTree) (cwd : Place) (pid : ℕ) (path : NativePath) (content : Octets) : Prop :=
  ∀ target x v, ((landing path).run cwd t).1 = .ok target → t.create cwd (temporaryPath pid target) = .ok (x, v) →
    v.find cwd path = t.find cwd path ∨ content = [] ∧ v.find cwd path = .ok (x, .file .newFile [])

/-! ### While the temporary file is being filled -/

section Filling

variable (ht : t.Rooted) (hcwd : t.IsDir cwd) (hx : t.lookup x = none)

include ht hcwd hx

/-- A path that finds something, or is refused, does not find the temporary file. -/
theorem find_of_filled (hfilled : Filled t u x mode c) (hfound : t.find cwd path ≠ .error (.refused .notFound)) :
    u.find cwd path = t.find cwd path := by
  rw [hfilled.stored.find_eq (by simp [hx]) ht hcwd hfound]
  cases hfind : t.find cwd path with
  | error f => rfl
  | ok found =>
      have hne : found.1 ≠ x := by
        intro heq
        cases (lookup_of_find hfind).symm.trans (heq ▸ hx)
      simp [Except.map, hne]

variable (hcreate : t.create cwd temp = .ok (x, v))

include hcreate

/-- A path that finds the temporary file found nothing before. -/
theorem find_of_find_made (hown : v.find cwd path = .ok (x, e)) : t.find cwd path = .error (.refused .notFound) := by
  by_contra hfound
  have hsame := find_of_filled ht hcwd hx (made_of_create hcreate hx) hfound
  cases hx.symm.trans (lookup_of_find (hsame.symm.trans hown))

/-- What the path finds does not change while the temporary file is being filled, if making this file did not change
it. -/
theorem Filling.find_eq (h : Filling v cwd target x content u) (hkept : v.find cwd path = t.find cwd path) :
    u.find cwd path = t.find cwd path := by
  have hmade := made_of_create hcreate hx
  obtain ⟨mode, c, hfilled⟩ := h.filled hmade
  by_cases hfound : t.find cwd path = .error (.refused .notFound)
  · have hempty : Filled u v x .newFile [] := hfilled.of_filled hmade
    have hdirs := hfilled.sameWays.sameDirectories
    rw [hfound] at hkept ⊢
    exact hempty.find_notFound (hdirs.rooted ht) (hdirs.isDir_iff.2 hcwd) hkept
  · exact find_of_filled ht hcwd hx hfilled hfound

/-- If the path finds the temporary file and nothing is to be written, it finds an empty file. -/
theorem Filling.find_own (h : Filling v cwd path x [] u) (hown : v.find cwd path = .ok (x, .file .newFile [])) :
    u.find cwd path = .ok (x, .file .newFile []) := by
  have hmade := made_of_create hcreate hx
  have hmode : v.modeOf cwd path = .ok .newFile := by rw [FileTree.modeOf, hown]
  have hpassed : Filled t (v.passMode cwd path x) x .newFile [] := by
    have hfilled : Filled t (v.passMode cwd path x) x _ [] := hmade.passMode
    rwa [hmode] at hfilled
  have hfilled : Filled t u x .newFile [] := by
    cases h with
    | opened => exact hmade
    | passed => exact hpassed
    | written n => simpa [Mode.written] using hpassed.append []
  have hdirs := hmade.sameWays.sameDirectories
  exact find_frame (hmade.sameWays.symm.trans hfilled.sameWays) (hdirs.rooted ht) (hdirs.isDir_iff.2 hcwd) hown
    hfilled.lookup_self

/-- If the path reads what it read before or the content once the temporary file is made, it finds what it found before,
or the temporary file where nothing is to be written. -/
theorem find_of_read_made (h : v.read cwd path = t.read cwd path ∨ v.read cwd path = .ok content) :
    v.find cwd path = t.find cwd path ∨ content = [] ∧ v.find cwd path = .ok (x, .file .newFile []) := by
  have hmade := made_of_create hcreate hx
  by_cases hfound : t.find cwd path = .error (.refused .notFound)
  · have hmissing : t.read cwd path = .error (.refused .notFound) := by rw [FileTree.read, hfound]
    rcases h with h | h
    · exact .inl ((find_of_read_notFound (h.trans hmissing)).trans hfound.symm)
    · obtain ⟨p, m, hfind, -⟩ := read_eq_ok_iff.1 h
      obtain rfl : p = x := by
        by_contra hne
        have hdest := hmade.stored.destination_of_ne (find_eq_ok_iff.1 hfind) hne
        cases hfound.symm.trans (find_eq_ok_iff.2 hdest)
      cases (lookup_of_find hfind).symm.trans hmade.lookup_self
      exact .inr ⟨rfl, hfind⟩
  · exact .inl (find_of_filled ht hcwd hx hmade hfound)

end Filling

theorem isName_temporaryName (pid : ℕ) (hcheck : checkPath path = .ok ()) :
    NativePath.IsName (temporaryName pid path) := by
  rw [temporaryName]
  cases hname : NativePath.fileName? path with
  | none => exact isName_temporaryText pid List.not_mem_nil List.not_mem_nil
  | some n =>
      have hn := NativePath.isName_of_fileName? hname (nul_not_mem_of_checkPath hcheck)
      exact isName_temporaryText pid hn.slash_not_mem hn.nul_not_mem

/-- Behind its parent, a path does not come by the name of its temporary file. -/
theorem exists_steps_behind_parent (pid : ℕ) {n : Octets} (hname : NativePath.fileName? path = some n) :
    ∃ rest, path.steps = (NativePath.parent path).steps ++ rest ∧ .name (temporaryName pid path) ∉ rest := by
  obtain ⟨i, j, hsteps⟩ := NativePath.exists_steps_of_fileName? hname
  have hne : temporaryName pid path ≠ n := by
    rw [temporaryName, hname]
    exact encode_temporaryText_ne pid n
  exact ⟨List.replicate i .here ++ [.name n] ++ List.replicate j .here, by simpa using hsteps, by simp [hne]⟩

/-- A walk along a name that is missing ends there. -/
theorem place_of_walks_name {rule : StepRule} {links : ℕ} {q : Place} {k : Octets}
    (w : Walks t rule false links q [.name k] (.vacant x)) : x = q ++ [k] := by
  cases w with
  | vacant _ _ => rfl
  | enter _ _ w => cases w
  | jump _ _ go _ => exact absurd ⟨rfl, rfl⟩ go

/-- A file at the temporary path changes nothing for a path that leads to nothing, if no link spells its name. -/
theorem find_of_not_mem (ht : t.Rooted) (hcwd : t.IsDir cwd)
    (hlinks : ∀ p l, t.lookup p = some (.link l) → .name (temporaryName pid path) ∉ l.steps)
    (hfilled : Filled t u x mode c) (hx : t.destination cwd false (temporaryPath pid path) = .ok (.vacant x))
    (hfind : t.find cwd path = .error (.refused .notFound)) : u.find cwd path = t.find cwd path := by
  have hways := hfilled.sameWays
  cases hcheck : checkPath path with
  | error f => rw [find_eq_of_checkPath hcheck, find_eq_of_checkPath hcheck]
  | ok _ =>
      by_cases hnil : path = []
      · rw [hnil, find_nil, find_nil]
      have hk := isName_temporaryName pid hcheck
      obtain ⟨-, -, w, -⟩ := destination_eq_ok_iff.1 hx
      have hstart : linkStart cwd (temporaryPath pid path) = linkStart cwd path := by
        rw [linkStart, linkStart, temporaryPath, NativePath.isAbsolute_withFileName hnil hk]
      have hdir := ht.isDir_linkStart hcwd path
      rw [hstart] at w
      rw [find_eq_walk hcheck hnil] at hfind
      rw [find_eq_walk hcheck hnil, find_eq_walk hcheck hnil, hways.sameDirectories.wholeRule_eq]
      cases hname : NativePath.fileName? path with
      | none =>
          -- Without a file name, the temporary path goes on from where the path leads, which is a directory.
          rw [temporaryPath, NativePath.withFileName, hname, NativePath.steps_join path hk] at w
          obtain ⟨q, m, wdir⟩ := w.exists_directory ht hdir (by simp)
          rw [walk_eq_ok_iff.2 wdir] at hfind
          simp [Destination.allowsSlash] at hfind
      | some n =>
          -- Both paths lead to one directory, where the one goes on to the temporary name and the other to its own.
          rw [temporaryPath, NativePath.withFileName, hname, NativePath.steps_join _ hk] at w
          obtain ⟨left, q, hq, wname, hon⟩ := w.exists_split ht hdir (by simp)
          obtain rfl := place_of_walks_name wname
          obtain ⟨rest, hrest, hnot⟩ := exists_steps_behind_parent pid hname
          have hsame : u.walk t.wholeRule true left q rest = t.walk t.wholeRule true left q rest :=
            hfilled.stored.walk_eq_of_not_mem ht hlinks hq hnot
          rw [hrest, hon u hways true rest (fun _ => rfl), hon t (.refl t) true rest (fun _ => rfl), hsame]

/-- A path that leads to something is kept apart from its temporary file, and so is every path if no link spells the
name of this file: only a link that leads to nothing but the temporary file can fail to be. -/
theorem keptApart_of_not_mem (ht : t.WellFormed) (hcwd : t.IsDir cwd)
    (hclear : ∀ target, ((landing path).run cwd t).1 = .ok target → t.Clear cwd (temporaryPath pid target))
    (h : t.find cwd path ≠ .error (.refused .notFound) ∨
      ∀ p l, t.lookup p = some (.link l) → .name (temporaryName pid path) ∉ l.steps) :
    KeptApart t cwd pid path content := by
  intro target x v hland hcreate
  obtain ⟨hdest, hx⟩ := destination_of_create (hclear target hland) hcreate
  have hmade := made_of_create hcreate hx
  by_cases hfound : t.find cwd path = .error (.refused .notFound)
  · obtain rfl := landing_of_notFound ht hcwd hland hfound
    exact .inl (find_of_not_mem ht.rooted hcwd (h.resolve_left (not_not.2 hfound)) hmade hdest hfound)
  · exact .inl (find_of_filled ht.rooted hcwd hx hmade hfound)

/-- After a whole write that fails or not, the path reads what it read before or the content. -/
theorem read_of_replace (ht : t.WellFormed) (hcwd : t.IsDir cwd) {path : PortablePath}
    (hclear : ∀ target, ((landing path.native).run cwd t).1 = .ok target → t.Clear cwd (temporaryPath pid target)) :
    ((replace pid path content).run cwd t).2.read cwd path.native = t.read cwd path.native ∨
      ((replace pid path content).run cwd t).2.read cwd path.native = .ok content := by
  cases hland : ((landing path.native).run cwd t).1 with
  | error e => exact .inl (by rw [run_replace_of_error (Prod.ext hland (run_landing_snd _))])
  | ok target =>
      rcases run_replace_of_clear ht hcwd content hland (hclear target hland) with
        ⟨e, hrun⟩ | ⟨t', place, mode, hrun, hwritten⟩
      · exact .inl (by rw [hrun])
      · rw [hrun]
        exact hwritten.read_eq ht.rooted hcwd

/-- **When a write that is stopped leaves the old document or the new one.** If nothing is found at the path of the
temporary file, then, wherever the write is stopped, the path reads what it read before or the whole content, if and
only if the temporary file is kept apart from the path. -/
theorem interrupted_replace_read_iff (ht : t.WellFormed) (hcwd : t.IsDir cwd) {path : PortablePath}
    (hclear : ∀ target, ((landing path.native).run cwd t).1 = .ok target → t.Clear cwd (temporaryPath pid target)) :
    (∀ u, Interrupted cwd (replace pid path content) t u →
        u.read cwd path.native = t.read cwd path.native ∨ u.read cwd path.native = .ok content) ↔
      KeptApart t cwd pid path.native content := by
  constructor
  · intro h target x v hland hcreate
    obtain ⟨-, hx⟩ := destination_of_create (hclear target hland) hcreate
    exact find_of_read_made ht.rooted hcwd hx hcreate (h v (interrupted_of_create hland hcreate))
  · intro hapart u h
    rcases interrupted_replace h with rfl | rfl | ⟨target, x, v, hland, hcreate, hfilling⟩
    · exact .inl rfl
    · exact read_of_replace ht hcwd hclear
    · obtain ⟨-, hx⟩ := destination_of_create (hclear target hland) hcreate
      rcases hapart target x v hland hcreate with hkept | ⟨rfl, hown⟩
      · exact .inl (read_eq_of_find (hfilling.find_eq ht.rooted hcwd hx hcreate hkept))
      · obtain rfl := landing_of_notFound ht hcwd hland (find_of_find_made ht.rooted hcwd hx hcreate hown)
        exact .inr (read_eq_ok_iff.2 ⟨x, .newFile, hfilling.find_own ht.rooted hcwd hx hcreate hown, by decide⟩)

/-- A write of two octets to the file of a tree, stopped between the two. -/
theorem interrupted_replace_read_file : ∃ u,
    Interrupted [] (replace 1 filePath [0x6E, 0x65]) (oneFile 0o644 [0x6F]) u ∧
      u.read [] (temporaryPath 1 filePath.native) = .ok [0x6E] ∧
      (u.read [] filePath.native = .ok [0x6F] ∨ u.read [] filePath.native = .ok [0x6E, 0x65]) := by
  have hland : ((landing filePath.native).run [] (oneFile 0o644 [0x6F])).1 = .ok (pathTo [[0x66]]) := by decide +kernel
  have hvacant : (oneFile 0o644 [0x6F]).destination [] false (temporaryPath 1 (pathTo [[0x66]])) =
      .ok (.vacant (temporaryPlace 1 [[0x66]])) := by decide +kernel
  have hread : (oneFile 0o644 [0x6F]).read [] filePath.native = .ok [0x6F] := by decide +kernel
  have hclear : ∀ target, ((landing filePath.native).run [] (oneFile 0o644 [0x6F])).1 = .ok target →
      (oneFile 0o644 [0x6F]).Clear [] (temporaryPath 1 target) := by
    intro target htarget
    cases hland.symm.trans htarget
    exact clear_of_vacant hvacant
  have hdir : (oneFile 0o644 [0x6F]).IsDir [] := ⟨0o755, by decide⟩
  have hfound : (oneFile 0o644 [0x6F]).find [] filePath.native ≠ .error (.refused .notFound) := by
    intro hfind
    simp [FileTree.read, hfind] at hread
  have hstop : ∃ u, Interrupted [] (replace 1 filePath [0x6E, 0x65]) (oneFile 0o644 [0x6F]) u ∧
      u.read [] (temporaryPath 1 filePath.native) = .ok [0x6E] := by
    refine ⟨_, .later (.later (.later (.later (.later (.later (.inside _ _ 1 _ _)))))), ?_⟩
    decide +kernel
  obtain ⟨u, hstop, htemp⟩ := hstop
  have hwell := wellFormed_oneFile 0o644 [0x6F]
  have hapart : KeptApart (oneFile 0o644 [0x6F]) [] 1 filePath.native [0x6E, 0x65] :=
    keptApart_of_not_mem hwell hdir hclear (.inl hfound)
  exact ⟨u, hstop, htemp, hread ▸ (interrupted_replace_read_iff hwell hdir hclear).2 hapart u hstop⟩

/-- A write of two octets to a link that leads to nothing but the temporary file, stopped between the two: nothing was
found at the path of the temporary file, and the path of the write reads the first octet alone. -/
theorem interrupted_replace_torn :
    let t := withLink (temporaryPath 1 filePath.native)
    t.WellFormed ∧ t.IsDir [] ∧
      (∀ target, ((landing filePath.native).run [] t).1 = .ok target → t.Clear [] (temporaryPath 1 target)) ∧
      t.read [] filePath.native = .error (.refused .notFound) ∧
      ∃ u, Interrupted [] (replace 1 filePath [0x6E, 0x65]) t u ∧ u.read [] filePath.native = .ok [0x6E] := by
  intro t
  have hland : ((landing filePath.native).run [] t).1 = .ok filePath.native := by decide +kernel
  have hvacant : t.destination [] false (temporaryPath 1 filePath.native) =
      .ok (.vacant (temporaryPlace 1 [[0x66]])) := by decide +kernel
  refine ⟨wellFormed_withLink _, ⟨0o755, by decide⟩, ?_, by decide +kernel, ?_⟩
  · intro target htarget
    cases hland.symm.trans htarget
    exact clear_of_vacant hvacant
  · refine ⟨_, .later (.later (.later (.later (.later (.inside _ _ 1 _ _))))), ?_⟩
    decide +kernel

end Storage
end DocSplice
