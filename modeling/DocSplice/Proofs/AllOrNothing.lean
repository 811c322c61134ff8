import DocSplice.Proofs.Landing
import DocSplice.Proofs.ReadBack

/-!
# All or nothing

A write lands at what its path leads to through all links, or, if that is nothing, at the entry of the path itself
(`Lands`). So long as nothing is found at the path of the temporary file, the write either fails and leaves the tree
as it was, or it has put a file with the content where it lands, and has changed nothing else
(`replace_all_or_nothing`).
-/
namespace DocSplice.Storage

open FileTree NativePath

variable {t t' u : FileTree} {cwd x place p : Place} {path target l : NativePath} {content c : Octets} {mode m : Mode}
  {e : Entry} {d : Destination} {pid : ℕ}

/-- Where a write to the path lands: at what the path leads to through all links, or, if it leads to nothing, at the
entry of the path itself. -/
inductive Lands (t : FileTree) (cwd : Place) (path : NativePath) (place : Place) : Prop where
  | resolved {e : Entry} (h : t.resolveBy t.singleRule cwd true path = .ok (.found place e))
  | missing {d : Destination} (h : t.realPath cwd path = .error (.refused .notFound))
      (own : t.destination cwd false path = .ok d) (hplace : d.place = place)

/-! ## Landing -/

theorem run_landing_snd (path : NativePath) : ((landing path).run cwd t).2 = t := by
  rw [landing]
  simp only [Action.run_bind, Action.run_realPath]
  rcases t.realPath cwd path with (r | _ | _) | real
  · cases r <;> rfl
  · rfl
  · rfl
  · simp only [Action.run_bind, Action.run_probe]
    cases t.probe cwd real <;> rfl

/-- A write lands on the path from the root to what the path leads to, if this is open to writing, or on the path. -/
theorem run_landing_eq_ok_iff : ((landing path).run cwd t).1 = .ok target ↔
    t.realPath cwd path = .ok target ∧ t.probe cwd target = .ok () ∨
      t.realPath cwd path = .error (.refused .notFound) ∧ target = path := by
  rw [landing]
  simp only [Action.run_bind, Action.run_realPath]
  rcases t.realPath cwd path with (r | _ | _) | real
  · cases r <;> simp [eq_comm]
  · simp
  · simp
  · simp only [Action.run_bind, Action.run_probe, Except.ok.injEq, reduceCtorEq, false_and, or_false]
    constructor
    · intro h
      cases hprobe : t.probe cwd real with
      | error f => simp [hprobe] at h
      | ok _ =>
          obtain rfl : real = target := by simpa [hprobe] using h
          exact ⟨rfl, hprobe⟩
    · intro h
      rcases h with ⟨rfl, hprobe⟩
      rw [hprobe]
      rfl

/-! ## A path that leads to something -/

theorem exists_of_realPath (h : t.realPath cwd path = .ok target) :
    ∃ p e, t.resolveBy t.singleRule cwd true path = .ok (.found p e) ∧ target = pathTo p := by
  rw [realPath] at h
  split_ifs at h
  split at h
  · cases h
  · cases h
  · next p e hresolve =>
    split_ifs at h
    cases h
    exact ⟨p, e, hresolve, rfl⟩

/-- What a write lands on through all links is a file, which the path from the root leads to. -/
theorem find_of_landing (ht : t.WellFormed) (hcwd : t.IsDir cwd) (hreal : t.realPath cwd path = .ok target)
    (hprobe : t.probe cwd target = .ok ()) :
    ∃ dir n m c, t.resolveBy t.singleRule cwd true path = .ok (.found (dir ++ [n]) (.file m c)) ∧
      target = pathTo (dir ++ [n]) ∧ t.IsDir dir ∧ (∀ k ∈ dir ++ [n], IsName k) ∧
      t.find cwd target = .ok (dir ++ [n], .file m c) := by
  obtain ⟨p, e, hresolve, rfl⟩ := exists_of_realPath hreal
  obtain ⟨hnil, hwalk, -⟩ := resolveBy_eq_ok_iff.1 hresolve
  have w := walk_eq_ok_iff.1 hwalk
  obtain ⟨q, m, c, hfind⟩ : ∃ q m c, t.find cwd (pathTo p) = .ok (q, .file m c) := by
    rw [probe] at hprobe
    split at hprobe
    · cases hprobe
    · next q m c hfind => exact ⟨q, m, c, hfind⟩
    · cases hprobe
    · cases hprobe
  have he := w.lookup_of_found
  rcases List.eq_nil_or_concat' p with rfl | ⟨dir, n, rfl⟩
  · obtain ⟨-, -, hslash, -⟩ := find_file_iff.1 hfind
    cases hslash
  · have hdir := ht.above dir n e he
    have hnames := ht.isName_of_mem he
    have hplain : ∀ l, t.lookup (dir ++ [n]) = some (.link l) → true = false := by
      intro l hl
      cases he.symm.trans hl
      exact absurd rfl (w.ne_link ht.rooted (ht.rooted.isDir_linkStart hcwd path) l)
    have hstanding := destination_pathTo ht.rooted hdir hnames hplain (find_eq_ok_iff.1 hfind)
    rw [standing_of_some he] at hstanding
    cases hstanding
    exact ⟨dir, n, m, c, hresolve, rfl, hdir, hnames, hfind⟩

/-- A path that leads to a file, asked for name by name, finds this file or is refused, but not because it is
missing. -/
theorem find_of_resolveBy (hresolve : t.resolveBy t.singleRule cwd true path = .ok (.found p e)) :
    t.find cwd path = .ok (p, e) ∨ ∃ f, t.find cwd path = .error f ∧ f ≠ .refused .notFound := by
  obtain ⟨hnil, hwalk, hslash⟩ := resolveBy_eq_ok_iff.1 hresolve
  cases hcheck : checkPath path with
  | error f =>
      refine .inr ⟨f, find_eq_of_checkPath hcheck, ?_⟩
      rw [checkPath] at hcheck
      split_ifs at hcheck <;> cases hcheck <;> simp
  | ok _ =>
      rw [find_eq_walk hcheck hnil]
      rcases (walk_eq_ok_iff.1 hwalk).whole with hwhole | hdenied
      · rw [hwhole]
        dsimp only
        split_ifs with hends
        · exact .inr ⟨_, rfl, by simp⟩
        · exact .inl rfl
      · rw [hdenied]
        exact .inr ⟨_, rfl, by simp⟩

/-! ## A path that leads to nothing -/

/-- A path that is missing finds nothing. -/
theorem find_of_missing (h : t.realPath cwd path = .error (.refused .notFound)) (p : Place) (e : Entry) :
    t.find cwd path ≠ .ok (p, e) := by
  intro hfind
  rcases realPath_eq hfind with hreal | hreal
  · cases h.symm.trans hreal
  · cases h.symm.trans hreal

theorem walk_of_missing (h : t.realPath cwd path = .error (.refused .notFound)) (hnil : path ≠ []) :
    t.walk t.singleRule true linkLimit (linkStart cwd path) path.steps = .error .notFound ∨
      ∃ p, t.walk t.singleRule true linkLimit (linkStart cwd path) path.steps = .ok (.vacant p) := by
  rw [realPath] at h
  split_ifs at h with hnul
  · cases h
  rw [resolveBy_eq _ hnil] at h
  cases hwalk : t.walk t.singleRule true linkLimit (linkStart cwd path) path.steps with
  | error r =>
      rw [hwalk] at h
      exact .inl (by simpa using h)
  | ok d =>
      cases d with
      | vacant p => exact .inr ⟨p, rfl⟩
      | found p e =>
          rw [hwalk] at h
          dsimp only at h
          split_ifs at h with hslash
          · cases h
          · dsimp only at h
            split_ifs at h
            cases h

/-- The entry of a missing path is vacant, or a link. -/
theorem own_of_missing (h : t.realPath cwd path = .error (.refused .notFound))
    (hslash : path.endsInSlash = false) (hown : t.destination cwd false path = .ok d) :
    d = .vacant d.place ∧ t.destination cwd true path = .ok d ∨ ∃ l, d = .found d.place (.link l) := by
  obtain ⟨hcheck, hnil, w, -⟩ := destination_eq_ok_iff.1 hown
  rcases walk_follow t t.wholeRule linkLimit (linkStart cwd path) path.steps with hwalk | ⟨p, l, w', -⟩
  · have hfollow : t.destination cwd true path = .ok d :=
      destination_eq_ok_iff.2 ⟨hcheck, hnil, walk_eq_ok_iff.1 (hwalk.trans (walk_eq_ok_iff.2 w)), by simp [hslash]⟩
    cases d with
    | vacant p => exact .inl ⟨rfl, hfollow⟩
    | found p e => exact absurd (find_eq_ok_iff.2 hfollow) (find_of_missing h p e)
  · cases (walk_eq_ok_iff.2 w).symm.trans (walk_eq_ok_iff.2 w')
    exact .inr ⟨l, rfl⟩

/-- The steps of a link at the end of a missing path lead on nowhere. -/
theorem not_walks_of_missing (ht : t.WellFormed) (h : t.realPath cwd path = .error (.refused .notFound))
    (hown : t.destination cwd false path = .ok (.found place (.link l))) {links : ℕ} {rest : List Step}
    (hrest : rest ≠ []) : ¬ Walks t t.wholeRule false links (linkStart place.dropLast l) (linkSteps l ++ rest) d := by
  intro w
  obtain ⟨hcheck, hnil, wown, -⟩ := destination_eq_ok_iff.1 hown
  have hlink := wown.lookup_of_found
  have hdir : t.IsDir place.dropLast := by
    rcases List.eq_nil_or_concat' place with rfl | ⟨dir, n, rfl⟩
    · exact ht.root
    · rw [List.dropLast_concat]
      exact ht.above dir n _ hlink
  -- Where the steps of the link lead if its own names are asked for one by one.
  obtain ⟨q, mode, wlink⟩ := w.exists_directory ht.rooted (ht.rooted.isDir_linkStart hdir l) hrest
  have hlinkWalk := wlink.single
  have hmissing := walk_of_missing h hnil
  have hownWalk := wown.single
  rcases walk_follow t t.singleRule linkLimit (linkStart cwd path) path.steps with hsame | ⟨p, l', w', hend⟩
  · rw [hsame] at hmissing
    rcases hownWalk with hownWalk | hownWalk <;> simp [hownWalk] at hmissing
  · rw [walk_eq_ok_iff.2 w'] at hownWalk
    obtain ⟨rfl, rfl⟩ : p = place ∧ l' = l := by simpa using hownWalk
    rcases hend with hmany | ⟨fewer, hend⟩
    · simp [hmany] at hmissing
    · rw [hend] at hmissing
      have heq : t.walk t.singleRule true links (linkStart p.dropLast l') (linkSteps l') =
          t.walk t.singleRule true fewer (linkStart p.dropLast l') (linkSteps l') := by
        refine walk_eq_of_links ?_ ?_
        · rcases hlinkWalk with hw | hw <;> simp [hw]
        · rcases hmissing with hw | ⟨v, hw⟩ <;> simp [hw]
      rw [← heq] at hmissing
      rcases hlinkWalk with hw | hw <;> simp [hw] at hmissing

/-! ## What a write leaves behind -/

/-- What a write that succeeds has done: it has put a file with the content where it lands, and changed nothing else.
A file that stood there has passed on its mode, up to the two marks that a change of content can take away. If the
path could be read before, or led to nothing, it reads the content now. Nothing is found at the path of the temporary
file. -/
structure Written (t t' : FileTree) (cwd : Place) (pid : ℕ) (path : NativePath) (content : Octets) (place : Place)
    (mode : Mode) : Prop where
  lands : Lands t cwd path place
  stored : Stored t t' place mode content
  keeps : ∀ m c, t.lookup place = some (.file m c) → mode % 0o2000 = m % 0o2000
  reads : (∃ c, t.read cwd path = .ok c) ∨ t.realPath cwd path = .error (.refused .notFound) →
    t'.read cwd path = .ok content
  clear : ∀ target, ((landing path).run cwd t).1 = .ok target → t'.Clear cwd (temporaryPath pid target)

section Written

variable (ht : t.WellFormed) (hcwd : t.IsDir cwd) (hland : ((landing path).run cwd t).1 = .ok target)
  (hcreate : t.create cwd (temporaryPath pid target) = .ok (x, u)) (hx : t.lookup x = none)

include hcreate hx

/-- For a missing target, the file has the mode of a new one. -/
theorem passedMode_of_missing (hmissing : t.realPath cwd target = .error (.refused .notFound)) :
    passedMode u cwd target = .newFile := by
  have hmade := made_of_create hcreate hx
  rw [passedMode, modeOf]
  cases hfind : u.find cwd target with
  | error f => rfl
  | ok found =>
      obtain ⟨p, e⟩ := found
      by_cases hp : p = x
      · subst hp
        cases (lookup_of_find hfind).symm.trans hmade.lookup_self
        rfl
      · have hdest := hmade.stored.destination_of_ne (find_eq_ok_iff.1 hfind) hp
        exact absurd (find_eq_ok_iff.2 hdest) (find_of_missing hmissing p e)

include ht hcwd

/-- A file that stands where the target leads passes on its mode. -/
theorem passedMode_of_find (hfind : t.find cwd target = .ok (p, .file m c)) : passedMode u cwd target = m := by
  have hmade := made_of_create hcreate hx
  have hfile := lookup_of_find hfind
  have hp : p ≠ x := by
    intro heq
    cases hfile.symm.trans (heq ▸ hx)
  rw [passedMode, modeOf, find_frame hmade.sameWays ht.rooted hcwd hfind ((hmade.lookup_of_ne hp).trans hfile)]

variable (hdest : t.destination cwd false target = .ok d)
  (hstored : Stored t t' d.place ((passedMode u cwd target).written content) content)
  (hclear : t'.Clear cwd (temporaryPath pid target))

include hland hdest hstored hclear

/-- A write to a path that leads to a file. -/
theorem written_of_resolved (hreal : t.realPath cwd path = .ok target) (hprobe : t.probe cwd target = .ok ()) :
    Written t t' cwd pid path content d.place ((passedMode u cwd target).written content) := by
  obtain ⟨dir, n, m, c, hresolve, rfl, hdir, hnames, hfind⟩ := find_of_landing ht hcwd hreal hprobe
  have hfile := lookup_of_find hfind
  have hd := destination_pathTo ht.rooted hdir hnames (fun _ _ => rfl) hdest
  rw [standing_of_some hfile] at hd
  subst hd
  rw [Destination.place] at hstored ⊢
  rw [passedMode_of_find ht hcwd hcreate hx hfind] at hstored ⊢
  refine ⟨.resolved hresolve, hstored, ?keeps, ?reads, ?clear⟩
  case keeps =>
    intro m' c' hfile'
    cases hfile.symm.trans hfile'
    exact Mode.written_mod m content
  case reads =>
    intro hread
    obtain ⟨c', hread⟩ := hread.resolve_right (by simp [hreal])
    obtain ⟨p, m', hfile', hgrants⟩ := read_eq_ok_iff.1 hread
    rcases find_of_resolveBy hresolve with hown | ⟨f, hown, -⟩
    · cases hown.symm.trans hfile'
      have hfound : t.find cwd path ≠ .error (.refused .notFound) := by simp [hown]
      have hfind' := hstored.find_eq (by simp [hfile]) ht.rooted hcwd hfound
      rw [hown] at hfind'
      exact read_eq_ok_iff.2
        ⟨dir ++ [n], _, by simpa [Except.map] using hfind', Mode.grants_read_written hgrants content⟩
    · cases hown.symm.trans hfile'
  case clear =>
    intro target' hland'
    cases hland.symm.trans hland'
    exact hclear

/-- A write to a path that leads to nothing. -/
theorem written_of_missing (hmissing : t.realPath cwd target = .error (.refused .notFound))
    (htarget : target = path) (hslash : target.endsInSlash = false) :
    Written t t' cwd pid path content d.place ((passedMode u cwd target).written content) := by
  subst htarget
  obtain ⟨hcheck, hnil, w, -⟩ := destination_eq_ok_iff.1 hdest
  rw [passedMode_of_missing hcreate hx hmissing] at hstored ⊢
  have hown := own_of_missing hmissing hslash hdest
  refine ⟨.missing hmissing hdest rfl, hstored, ?keeps, ?reads, ?clear⟩
  case keeps =>
    intro m c hfile
    have hstanding := w.eq_standing
    rw [standing_of_some hfile] at hstanding
    rcases hown with ⟨hvacant, -⟩ | ⟨l, hlink⟩
    · cases hvacant.symm.trans hstanding
    · cases hlink.symm.trans hstanding
  case reads =>
    intro _
    have hfind : t'.find cwd target = .ok (d.place, .file (Mode.newFile.written content) content) := by
      rcases hown with ⟨hvacant, hfollow⟩ | ⟨l, hlink⟩
      · have hplain : ∀ l, t.lookup d.place ≠ some (.link l) := by
          intro l hl
          cases hvacant.symm.trans (w.eq_standing.trans (standing_of_some hl))
        exact hstored.find_of_destination hplain ht.rooted hcwd hslash hfollow rfl
      · rw [hlink] at w hdest
        have w' := w.of_replaced_link hstored ht.rooted w.lookup_of_found
          (fun _ _ _ hrest => not_walks_of_missing ht hmissing hdest hrest) (ht.rooted.isDir_linkStart hcwd target)
        rw [← hstored.sameDirectories.wholeRule_eq] at w'
        exact find_eq_ok_iff.2 (destination_eq_ok_iff.2 ⟨hcheck, hnil, w', by simp [hslash]⟩)
    exact read_eq_ok_iff.2 ⟨_, _, hfind, Mode.grants_read_written (by decide) content⟩
  case clear =>
    intro target' hland'
    cases hland.symm.trans hland'
    exact hclear

end Written

/-- A write that lands either fails and leaves the tree as it was, or has done all. -/
theorem run_replace_of_clear (ht : t.WellFormed) (hcwd : t.IsDir cwd) {path : PortablePath} (content : Octets)
    (hland : ((landing path.native).run cwd t).1 = .ok target) (hclear : t.Clear cwd (temporaryPath pid target)) :
    (∃ e, (replace pid path content).run cwd t = (.error e, t)) ∨
      ∃ t' place mode, (replace pid path content).run cwd t = (.ok (), t') ∧
        Written t t' cwd pid path.native content place mode := by
  rw [run_replace_of_ok (Prod.ext hland (run_landing_snd _))]
  rcases run_fillAndMove_of_clear ht.rooted hcwd content hclear with
    ⟨e, v, hrun, hunlink⟩ | ⟨t', x, u, d, hrun, hcreate, hdest, hslash, hstored, hclear'⟩
  · rw [hrun]
    exact .inl ⟨e, Prod.ext rfl hunlink⟩
  · rw [hrun]
    refine .inr ⟨t', d.place, (passedMode u cwd target).written content, rfl, ?_⟩
    obtain ⟨-, hx⟩ := destination_of_create hclear hcreate
    rcases run_landing_eq_ok_iff.1 hland with ⟨hreal, hprobe⟩ | ⟨hmissing, htarget⟩
    · exact written_of_resolved ht hcwd hland hcreate hx hdest hstored hclear' hreal hprobe
    · exact written_of_missing ht hcwd hland hcreate hx hdest hstored hclear' (htarget ▸ hmissing) htarget hslash

/-- **All or nothing.** If nothing is found at the path of the temporary file, a write either fails and leaves the tree
as it was, or it has put a file with the content where it lands, and has changed nothing else. -/
theorem replace_all_or_nothing (ht : t.WellFormed) (hcwd : t.IsDir cwd) (path : PortablePath) (content : Octets)
    (hclear : ∀ target, ((landing path.native).run cwd t).1 = .ok target → t.Clear cwd (temporaryPath pid target)) :
    (∃ e, (replace pid path content).run cwd t = (.error e, t)) ∨
      ∃ t' place mode, (replace pid path content).run cwd t = (.ok (), t') ∧
        Written t t' cwd pid path.native content place mode := by
  cases hland : ((landing path.native).run cwd t).1 with
  | error e => exact .inl ⟨e, run_replace_of_error (Prod.ext hland (run_landing_snd _))⟩
  | ok target => exact run_replace_of_clear ht hcwd content hland (hclear target hland)

/-! ## A tree of one file -/

/-- A tree with one file in its root. -/
def oneFile (mode : Mode) (content : Octets) : FileTree := empty.insert [[0x66]] (.file mode content)

/-- The path of the file. -/
def filePath : PortablePath := ⟨"f".toList⟩

/-- A path that leads to the file, but is too long for a file to be read by it. -/
def overlongPath : PortablePath := ⟨'.' :: List.replicate 4095 '/' ++ ['f']⟩

theorem wellFormed_oneFile (mode : Mode) (content : Octets) : (oneFile mode content).WellFormed := by
  have hname : IsName [0x66] := ⟨by decide, by decide, by decide, by decide, by decide⟩
  have hfree : ¬ empty.IsDir ([] ++ [[0x66]]) := by
    intro hdir
    obtain ⟨m, hm⟩ := hdir
    cases hm
  exact wellFormed_empty.insert wellFormed_empty.root hname hfree (.file mode content)

/-- A write to the file succeeds. -/
theorem replace_all_or_nothing_file : ∃ t' place mode,
    (replace 1 filePath [0x6E]).run [] (oneFile 0o644 [0x6F]) = (.ok (), t') ∧ t'.read [] filePath.native = .ok [0x6E] ∧
      Written (oneFile 0o644 [0x6F]) t' [] 1 filePath.native [0x6E] place mode := by
  have hland : ((landing filePath.native).run [] (oneFile 0o644 [0x6F])).1 = .ok (pathTo [[0x66]]) := by decide +kernel
  have hvacant : (oneFile 0o644 [0x6F]).destination [] false (temporaryPath 1 (pathTo [[0x66]])) =
      .ok (.vacant (temporaryPlace 1 [[0x66]])) := by decide +kernel
  have hclear : ∀ target, ((landing filePath.native).run [] (oneFile 0o644 [0x6F])).1 = .ok target →
      (oneFile 0o644 [0x6F]).Clear [] (temporaryPath 1 target) := by
    intro target htarget
    cases hland.symm.trans htarget
    exact clear_of_vacant hvacant
  have hdone : ((replace 1 filePath [0x6E]).run [] (oneFile 0o644 [0x6F])).1 = .ok () := by decide +kernel
  rcases replace_all_or_nothing (wellFormed_oneFile _ _) ⟨0o755, by decide⟩ filePath [0x6E] hclear with
    ⟨e, hrun⟩ | ⟨t', place, mode, hrun, hwritten⟩
  · rw [hrun] at hdone
    cases hdone
  · exact ⟨t', place, mode, hrun, hwritten.reads (.inl ⟨[0x6F], by decide +kernel⟩), hwritten⟩

/-- A write that succeeds need not be read back: its path can be too long for a file to be read by it, or the file can
be closed to reading. Nor does every mark of a mode stay: a program that runs with the rights of its owner does so no
longer. In none of these cases is anything found at the path of the temporary file. -/
theorem replace_not_read_back :
    ((oneFile 0o644 [0x6F]).Clear [] (temporaryPath 1 (pathTo [[0x66]])) ∧
      ((landing overlongPath.native).run [] (oneFile 0o644 [0x6F])).1 = .ok (pathTo [[0x66]]) ∧
      ((replace 1 overlongPath [0x6E]).run [] (oneFile 0o644 [0x6F])).1 = .ok () ∧
      ((replace 1 overlongPath [0x6E]).run [] (oneFile 0o644 [0x6F])).2.read [] overlongPath.native =
        .error (.refused .nameTooLong)) ∧
    ((oneFile 0o4200 [0x6F]).Clear [] (temporaryPath 1 (pathTo [[0x66]])) ∧
      ((landing filePath.native).run [] (oneFile 0o4200 [0x6F])).1 = .ok (pathTo [[0x66]]) ∧
      ((replace 1 filePath [0x6E]).run [] (oneFile 0o4200 [0x6F])).1 = .ok () ∧
      ((replace 1 filePath [0x6E]).run [] (oneFile 0o4200 [0x6F])).2.read [] filePath.native =
        .error (.refused .accessDenied) ∧
      ((replace 1 filePath [0x6E]).run [] (oneFile 0o4200 [0x6F])).2.modeOf [] filePath.native = .ok 0o200) := by
  have hvacant : ∀ mode ∈ [0o644, 0o4200], (oneFile mode [0x6F]).destination [] false
      (temporaryPath 1 (pathTo [[0x66]])) = .ok (.vacant (temporaryPlace 1 [[0x66]])) := by decide +kernel
  refine ⟨⟨clear_of_vacant (hvacant _ (by simp)), ?_⟩, ⟨clear_of_vacant (hvacant _ (by simp)), ?_⟩⟩
  · decide +kernel
  · decide +kernel

end DocSplice.Storage
