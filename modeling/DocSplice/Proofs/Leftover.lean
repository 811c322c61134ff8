import DocSplice.Proofs.AllOrNothing

/-!
# Writes whatever stands under the temporary name

The temporary file is opened through links, but moved and removed as an entry (`Opened`, `run_replace_cases`). An entry
that has been left under its name is used up and harms nothing, unless it is a link. Then the write fills the file that
the link leads to, and if it succeeds, the link itself takes the place of the file that was to be written
(`replace_harmless_iff`).
-/
namespace DocSplice

open FileTree NativePath

variable {t t' u v : FileTree} {cwd x p source dest : Place} {path temp target l : NativePath} {content c : Octets}
  {mode m : Mode} {e : Entry} {d d' : Destination} {pid : ℕ}

namespace FileTree

/-- A new entry in a directory keeps the shape of the tree. -/
theorem WellFormed.insert_vacant (h : t.WellFormed) {dir : Place} {n : Octets} (hdir : t.IsDir dir) (hn : IsName n)
    (hvacant : t.lookup (dir ++ [n]) = none) (e : Entry) : (t.insert (dir ++ [n]) e).WellFormed := by
  refine h.insert hdir hn ?_ e
  intro hentered
  obtain ⟨m, hm⟩ := hentered
  cases hvacant.symm.trans hm

/-- A new entry in the root keeps the shape of the tree. -/
theorem WellFormed.insert_root (h : t.WellFormed) {n : Octets} (hn : IsName n) (hvacant : t.lookup [n] = none)
    (e : Entry) : (t.insert [n] e).WellFormed :=
  h.insert_vacant h.root hn hvacant e

/-- The entry that the path itself names stands at the place, or would stand there. -/
def Names (t : FileTree) (cwd : Place) (path : NativePath) (p : Place) : Prop :=
  ∃ d, t.destination cwd false path = .ok d ∧ d.place = p

theorem names_iff (h : t.destination cwd false path = .ok d) : t.Names cwd path p ↔ p = d.place := by
  simp [Names, h, eq_comm]

/-- A path that names a link names the place of no file. -/
theorem not_names_of_link (h : t.destination cwd false path = .ok (.found source (.link l)))
    (hfile : t.lookup p = some (.file m c)) : ¬t.Names cwd path p := by
  rw [names_iff h, Destination.place]
  intro heq
  subst heq
  cases (lookup_of_destination h).symm.trans hfile

end FileTree

namespace Storage

/-! ## The temporary file -/

namespace Opened

variable (h : Opened t v cwd temp source x mode content)

include h

theorem names_iff : t.Names cwd temp p ↔ p = source := by
  rw [FileTree.names_iff h.own, place_standing]

/-- The temporary path names a link exactly if one stands at its place. -/
theorem link_iff : t.destination cwd false temp = .ok (.found p (.link l)) ↔
    p = source ∧ t.lookup source = some (.link l) := by
  constructor
  · intro hlink
    have hplace := congrArg Destination.place (Except.ok.inj (h.own.symm.trans hlink))
    rw [place_standing, Destination.place] at hplace
    subst hplace
    exact ⟨rfl, lookup_of_destination hlink⟩
  · intro hlink
    obtain ⟨rfl, hlink⟩ := hlink
    exact standing_of_some hlink ▸ h.own

theorem find_iff : t.find cwd temp = .ok (p, .file m c) ↔ p = x ∧ t.lookup x = some (.file m c) := by
  rw [find_eq_ok_iff, h.leads, Except.ok.injEq]
  constructor
  · intro heq
    have hplace := congrArg Destination.place heq
    rw [place_standing, Destination.place] at hplace
    subst hplace
    exact ⟨rfl, lookup_of_destination (heq ▸ h.leads)⟩
  · intro hfile
    obtain ⟨rfl, hfile⟩ := hfile
    exact standing_of_some hfile

end Opened

/-! ## What a write can do -/

/-- Removing a file can change only the place that its path names. -/
theorem lookup_run_unlink (t : FileTree) (cwd : Place) (path : NativePath) (p : Place) :
    ((Action.unlink path).run cwd t).2.lookup p = t.lookup p ∨ t.Names cwd path p := by
  rw [Action.run_unlink, unlink]
  split
  · exact .inl rfl
  · exact .inl rfl
  · exact .inl rfl
  · next place e _ hdest =>
    split_ifs
    · exact .inl rfl
    · by_cases hp : p = place
      · exact .inr ((names_iff hdest).2 hp)
      · exact .inl (by simp [Call.settle, Except.map, hp])

/-- A write lands at the place that its target names. -/
theorem lands_of_destination (ht : t.WellFormed) (hcwd : t.IsDir cwd)
    (hland : ((landing path).run cwd t).1 = .ok target) (hdest : t.destination cwd false target = .ok d) :
    Lands t cwd path d.place := by
  rcases run_landing_eq_ok_iff.1 hland with ⟨hreal, hprobe⟩ | ⟨hmissing, rfl⟩
  · obtain ⟨dir, n, m, c, hresolve, rfl, hdir, hnames, -⟩ := find_of_landing ht hcwd hreal hprobe
    obtain rfl := destination_pathTo ht.rooted hdir hnames (fun _ _ => rfl) hdest
    rw [place_standing]
    exact .resolved hresolve
  · exact .missing hmissing hdest rfl

/-- A path that leads to something is not missing. -/
theorem realPath_ne_notFound (h : t.resolveBy t.singleRule cwd true path = .ok (.found p e)) :
    t.realPath cwd path ≠ .error (.refused .notFound) := by
  rw [realPath, h]
  dsimp only
  split_ifs <;> simp

/-- A write lands at one place only. -/
theorem Lands.unique (h : Lands t cwd path p) (h' : Lands t cwd path x) : p = x := by
  cases h with
  | resolved h =>
      cases h' with
      | resolved h' =>
          cases h.symm.trans h'
          rfl
      | missing hmissing => exact absurd hmissing (realPath_ne_notFound h)
  | missing hmissing own hplace =>
      cases h' with
      | resolved h' => exact absurd hmissing (realPath_ne_notFound h')
      | missing _ own' hplace' =>
          cases own.symm.trans own'
          exact hplace.symm.trans hplace'

/-- **What a write can do that lands somewhere.** It fails with the temporary file not opened, fails with the temporary
file not moved, or has moved the entry under the temporary name to where it lands. When it has failed, it has removed
at most the entry under the temporary name. -/
theorem run_replace_cases (ht : t.WellFormed) (hcwd : t.IsDir cwd) {path : PortablePath} (content : Octets)
    (hland : ((landing path.native).run cwd t).1 = .ok target) :
    (∃ e t', (replace pid path content).run cwd t = (.error e, t') ∧
        ∀ p, t'.lookup p = t.lookup p ∨ t.Names cwd (temporaryPath pid target) p) ∨
      ∃ v source x mode, Opened t v cwd (temporaryPath pid target) source x mode content ∧
        ((∃ e t', (replace pid path content).run cwd t = (.error e, t') ∧
            ∀ p, t'.lookup p = v.lookup p ∨ p = source) ∨
          ∃ t' dest, (replace pid path content).run cwd t = (.ok (), t') ∧ Lands t cwd path.native dest ∧
            source ≠ dest ∧ Moved v t' source dest) := by
  rw [run_replace_of_ok (Prod.ext hland (run_landing_snd _)), run_fillAndMove]
  cases hcreate : t.create cwd (temporaryPath pid target) with
  | error f => exact .inl ⟨_, _, rfl, lookup_run_unlink t cwd _⟩
  | ok r =>
      obtain ⟨x, u⟩ := r
      obtain ⟨source, mode, hopened⟩ := exists_opened target content hcreate
      refine .inr ⟨_, source, x, mode, hopened, ?_⟩
      dsimp only
      cases hrename : ((u.passMode cwd target x).append x content).rename cwd (temporaryPath pid target) target with
      | error f =>
          refine .inl ⟨_, _, rfl, ?_⟩
          intro p
          refine (lookup_run_unlink _ cwd _ p).imp id ?_
          intro hnames
          rwa [names_iff (hopened.own_filled ht.rooted hcwd), place_standing] at hnames
      | ok t' =>
          obtain ⟨dest, htarget, -, -, hne, hmoved⟩ := hopened.exists_moved ht.rooted hcwd hrename
          have hlands := lands_of_destination ht hcwd hland htarget
          rw [place_standing] at hlands
          exact .inr ⟨t', dest, rfl, hlands, hne, hmoved⟩

/-- A write that succeeds has landed, has filled the temporary file, and has moved the entry under its name to where it
has landed. -/
theorem exists_moved_of_replace (ht : t.WellFormed) (hcwd : t.IsDir cwd) {path : PortablePath}
    (h : (replace pid path content).run cwd t = (.ok (), t')) :
    ∃ target v source x mode dest, ((landing path.native).run cwd t).1 = .ok target ∧
      Opened t v cwd (temporaryPath pid target) source x mode content ∧ Lands t cwd path.native dest ∧
      source ≠ dest ∧ Moved v t' source dest := by
  cases hland : ((landing path.native).run cwd t).1 with
  | error f =>
      rw [run_replace_of_error (Prod.ext hland (run_landing_snd _))] at h
      cases congrArg Prod.fst h
  | ok target =>
      rcases run_replace_cases ht hcwd content hland with
        ⟨f, _, hrun, -⟩ | ⟨v, source, x, mode, hopened, ⟨f, _, hrun, -⟩ | ⟨t', dest, hrun, hlands, hne, hmoved⟩⟩
      · cases congrArg Prod.fst (h.symm.trans hrun)
      · cases congrArg Prod.fst (h.symm.trans hrun)
      · obtain rfl := congrArg Prod.snd (h.symm.trans hrun)
        exact ⟨target, v, source, x, mode, dest, rfl, hopened, hlands, hne, hmoved⟩

/-! ## What a leftover can do -/

/-- A write to the path makes its temporary file at the path `temp`. -/
def TemporaryFor (t : FileTree) (cwd : Place) (pid : ℕ) (path temp : NativePath) : Prop :=
  ∃ target, ((landing path).run cwd t).1 = .ok target ∧ temp = temporaryPath pid target

theorem temporaryFor_iff (hland : ((landing path).run cwd t).1 = .ok target) :
    TemporaryFor t cwd pid path temp ↔ temp = temporaryPath pid target := by
  simp [TemporaryFor, hland]

theorem not_temporaryFor_of_error {f : StorageError} (hland : ((landing path).run cwd t).1 = .error f) :
    ¬TemporaryFor t cwd pid path temp := by
  simp [TemporaryFor, hland]

/-- A write with the given result has done no harm: every file is as it was except where the write lands and under the
temporary name, and if the write has succeeded, a file with the content stands where it lands. -/
structure Harmless (t : FileTree) (cwd : Place) (pid : ℕ) (path : NativePath) (content : Octets)
    (result : Except StorageError Unit) (t' : FileTree) : Prop where
  others : ∀ p m c, t.lookup p = some (.file m c) → ¬Lands t cwd path p →
    (∀ temp, TemporaryFor t cwd pid path temp → ¬t.Names cwd temp p) → t'.lookup p = some (.file m c)
  target : result = .ok () → ∃ place mode, Lands t cwd path place ∧ t'.lookup place = some (.file mode content)

section Harmless

variable {result : Except StorageError Unit}

/-- A write that fails with the temporary file not opened is harmless. -/
theorem harmless_of_unopened (hland : ((landing path).run cwd t).1 = .ok target)
    (hlookup : ∀ p, t'.lookup p = t.lookup p ∨ t.Names cwd (temporaryPath pid target) p) (f : StorageError) :
    Harmless t cwd pid path content (.error f) t' := by
  refine ⟨?_, by simp⟩
  intro p m c hp _ hnames
  exact ((hlookup p).resolve_right (hnames _ ((temporaryFor_iff hland).2 rfl))).trans hp

/-- With the target known, the other files are those at other places than the temporary path names. -/
theorem Opened.harmless_iff (h : Opened t v cwd (temporaryPath pid target) source x mode content)
    (hland : ((landing path).run cwd t).1 = .ok target) :
    Harmless t cwd pid path content result t' ↔
      (∀ p m c, t.lookup p = some (.file m c) → ¬Lands t cwd path p → p ≠ source → t'.lookup p = some (.file m c)) ∧
        (result = .ok () → ∃ place mode, Lands t cwd path place ∧ t'.lookup place = some (.file mode content)) := by
  have hothers : ∀ p, (∀ temp, TemporaryFor t cwd pid path temp → ¬t.Names cwd temp p) ↔ p ≠ source := by
    intro p
    simp [temporaryFor_iff hland, h.names_iff]
  constructor
  · intro hharmless
    exact ⟨fun p m c hp hlands hne => hharmless.others p m c hp hlands ((hothers p).2 hne), hharmless.target⟩
  · intro hboth
    exact ⟨fun p m c hp hlands hne => hboth.1 p m c hp hlands ((hothers p).1 hne), hboth.2⟩

/-- A write that fails with the temporary file filled has changed no file but the one that it filled. -/
theorem Opened.harmless_error_iff (h : Opened t v cwd (temporaryPath pid target) source x mode content)
    (hland : ((landing path).run cwd t).1 = .ok target) (hlookup : ∀ p, t'.lookup p = v.lookup p ∨ p = source)
    (f : StorageError) :
    Harmless t cwd pid path content (.error f) t' ↔ ∀ m c, t.lookup x = some (.file m c) → x ≠ source →
      ¬Lands t cwd path x → t'.lookup x = some (.file m c) := by
  rw [h.harmless_iff hland]
  constructor
  · intro hharmless m c hx hne hlands
    exact hharmless.1 x m c hx hlands hne
  · intro hx
    refine ⟨?_, by simp⟩
    intro p m c hp hlands hne
    by_cases hpx : p = x
    · subst hpx
      exact hx m c hp hne hlands
    · rw [(hlookup p).resolve_right hne, h.filled.lookup_of_ne hpx, hp]

/-- A write that succeeds has put the entry under the temporary name where it lands, and this is to be a file. -/
theorem Opened.harmless_ok_iff (h : Opened t v cwd (temporaryPath pid target) source x mode content)
    (hland : ((landing path).run cwd t).1 = .ok target) (hlands : Lands t cwd path dest)
    (hmoved : Moved v t' source dest) :
    Harmless t cwd pid path content (.ok ()) t' ↔ ∀ l, t.lookup source ≠ some (.link l) := by
  have hdest : t'.lookup dest = v.lookup source := by rw [hmoved, if_pos rfl]
  rw [h.harmless_iff hland]
  constructor
  · intro hharmless l hlink
    obtain ⟨place, mode, hplace, hfile⟩ := hharmless.2 rfl
    obtain rfl := hlands.unique hplace
    rw [hdest, (h.filled.sameWays.link_iff source l).2 hlink] at hfile
    cases hfile
  · intro hplain
    obtain rfl := h.x_eq_source hplain
    refine ⟨?_, fun _ => ⟨dest, mode, hlands, hdest.trans h.filled.lookup_self⟩⟩
    intro p m c hp hnot hne
    have hpd : p ≠ dest := fun heq => hnot (heq ▸ hlands)
    rw [hmoved, if_neg hpd, if_neg hne, h.filled.lookup_of_ne hne, hp]

end Harmless

/-- **When a leftover makes a write do harm.** A write is harmless unless a link has been left under the temporary
name. With a link there it is harmless exactly if it fails and the file that the link leads to, if it is another one
than the write lands on, is as it was. -/
theorem replace_harmless_iff (ht : t.WellFormed) (hcwd : t.IsDir cwd) (pid : ℕ) (path : PortablePath)
    (content : Octets) :
    let answer := (replace pid path content).run cwd t
    Harmless t cwd pid path.native content answer.1 answer.2 ↔
      ∀ temp source l, TemporaryFor t cwd pid path.native temp →
        t.destination cwd false temp = .ok (.found source (.link l)) →
        answer.1 ≠ .ok () ∧ ∀ p m c, t.find cwd temp = .ok (p, .file m c) → ¬Lands t cwd path.native p →
          answer.2.lookup p = some (.file m c) := by
  intro answer
  cases hland : ((landing path.native).run cwd t).1 with
  | error f =>
      have hrun : answer = (.error f, t) := run_replace_of_error (Prod.ext hland (run_landing_snd _))
      rw [hrun]
      constructor
      · intro _ temp source l htemp
        exact absurd htemp (not_temporaryFor_of_error hland)
      · intro _
        exact ⟨fun p m c hp _ _ => hp, by simp⟩
  | ok target =>
      simp only [temporaryFor_iff hland]
      rcases run_replace_cases ht hcwd content hland with
        ⟨f, t', hrun, hlookup⟩ |
          ⟨v, source, x, mode, hopened, ⟨f, t', hrun, hlookup⟩ | ⟨t', dest, hrun, hlands, -, hmoved⟩⟩
      · have hrun : answer = (.error f, t') := hrun
        rw [hrun]
        refine iff_of_true (harmless_of_unopened hland hlookup f) ?_
        rintro temp source l rfl hlink
        refine ⟨by simp, ?_⟩
        intro p m c hfind _
        have hfile := lookup_of_find hfind
        exact ((hlookup p).resolve_right (not_names_of_link hlink hfile)).trans hfile
      · have hrun : answer = (.error f, t') := hrun
        rw [hrun, hopened.harmless_error_iff hland hlookup]
        constructor
        · rintro hx temp source' l rfl hlink
          refine ⟨by simp, ?_⟩
          intro p m c hfind hlands
          obtain ⟨rfl, hfile⟩ := hopened.find_iff.1 hfind
          obtain ⟨rfl, hlink⟩ := hopened.link_iff.1 hlink
          exact hx m c hfile (hopened.x_ne_source hlink) hlands
        · intro hlinks m c hfile hne hlands
          obtain ⟨l, hlink⟩ := hopened.plain.resolve_left hne
          exact (hlinks _ source l rfl (hopened.link_iff.2 ⟨rfl, hlink⟩)).2 x m c (hopened.find_iff.2 ⟨rfl, hfile⟩) hlands
      · have hrun : answer = (.ok (), t') := hrun
        rw [hrun, hopened.harmless_ok_iff hland hlands hmoved]
        constructor
        · rintro hplain temp source' l rfl hlink
          exact absurd (hopened.link_iff.1 hlink).2 (hplain l)
        · intro hlinks l hlink
          exact (hlinks _ source l rfl (hopened.link_iff.2 ⟨rfl, hlink⟩)).1 rfl

/-! ## A tree with a leftover -/

/-- A tree with two files in its root, `f` and `g`, and something left under the temporary name of the first. -/
def withLeftover (e : Entry) : FileTree :=
  ((oneFile 0o644 [0x6F]).insert [[0x67]] (.file 0o644 [0x6B])).insert (temporaryPlace 1 [[0x66]]) e

theorem wellFormed_withLeftover (e : Entry) : (withLeftover e).WellFormed := by
  have hname : IsName [0x66] := ⟨by decide, by decide, by decide, by decide, by decide⟩
  have hother : IsName [0x67] := ⟨by decide, by decide, by decide, by decide, by decide⟩
  obtain ⟨k, hplace, hk, -⟩ := exists_temporaryPlace_eq 1 [] hname
  have hvacant : ((oneFile 0o644 [0x6F]).insert [[0x67]] (.file 0o644 [0x6B])).lookup (temporaryPlace 1 [[0x66]]) =
      none := by decide +kernel
  rw [List.nil_append, List.nil_append] at hplace
  rw [withLeftover]
  rw [hplace] at hvacant ⊢
  exact ((wellFormed_oneFile 0o644 [0x6F]).insert_root hother (by decide) _).insert_root hk hvacant e

/-- A file that has been left under the temporary name does no harm. -/
theorem replace_harmless_file :
    Harmless (withLeftover (.file 0o600 [0x78])) [] 1 filePath.native [0x6E] (.ok ())
      ((replace 1 filePath [0x6E]).run [] (withLeftover (.file 0o600 [0x78]))).2 := by
  have hland : ((landing filePath.native).run [] (withLeftover (.file 0o600 [0x78]))).1 = .ok (pathTo [[0x66]]) := by
    decide +kernel
  have hfound : (withLeftover (.file 0o600 [0x78])).destination [] false (temporaryPath 1 (pathTo [[0x66]])) =
      .ok (.found (temporaryPlace 1 [[0x66]]) (.file 0o600 [0x78])) := by decide +kernel
  have hdone : ((replace 1 filePath [0x6E]).run [] (withLeftover (.file 0o600 [0x78]))).1 = .ok () := by decide +kernel
  rw [← hdone]
  refine (replace_harmless_iff (wellFormed_withLeftover _) ⟨0o755, by decide⟩ 1 filePath [0x6E]).2 ?_
  intro temp source l htemp hlink
  rw [temporaryFor_iff hland] at htemp
  subst htemp
  cases hfound.symm.trans hlink

/-- A link that has been left under the temporary name of `f` and leads to `g`: the write succeeds, the content stands
in `g`, and `f` is a link. -/
theorem replace_through_leftover :
    let answer := (replace 1 filePath [0x6E]).run [] (withLeftover (.link [0x67]))
    answer.1 = .ok () ∧ (withLeftover (.link [0x67])).lookup [[0x67]] = some (.file 0o644 [0x6B]) ∧
      answer.2.lookup [[0x67]] = some (.file 0o644 [0x6E]) ∧ answer.2.lookup [[0x66]] = some (.link [0x67]) ∧
      ¬Harmless (withLeftover (.link [0x67])) [] 1 filePath.native [0x6E] answer.1 answer.2 := by
  intro answer
  have hdone : answer.1 = .ok () := by decide +kernel
  have hdest : answer.2.lookup [[0x66]] = some (.link [0x67]) := by decide +kernel
  have hlands : Lands (withLeftover (.link [0x67])) [] filePath.native [[0x66]] :=
    .resolved (e := .file 0o644 [0x6F]) (by decide +kernel)
  refine ⟨hdone, by decide +kernel, by decide +kernel, hdest, ?_⟩
  intro hharmless
  obtain ⟨place, mode, hplace, hfile⟩ := hharmless.target hdone
  obtain rfl := hlands.unique hplace
  cases hdest.symm.trans hfile

end Storage
end DocSplice
