import DocSplice.Proofs.Leftover

/-!
# Links that stay

A write follows the links of its path first, so that they stay and the file behind them is written. Two links can be
lost all the same: one that has been left under the temporary name, which is moved away, and the one that a path names
that leads to nothing, which the write replaces. If a write has succeeded, all links are kept if and only if it met
neither of them (`replace_keeps_links_iff`).
-/
namespace DocSplice.Storage

open FileTree NativePath

variable {t t' v : FileTree} {cwd p source dest x : Place} {path temp target l : NativePath} {content : Octets}
  {mode : Mode} {e : Entry} {d d' : Destination} {pid : ℕ}

/-- The links of a tree have survived a write of the content to the path: each of them is there with its target, and if
the path names one of them, the content stands in the file that it leads to. -/
structure LinksKept (t : FileTree) (cwd : Place) (path : NativePath) (content : Octets) (t' : FileTree) : Prop where
  kept : ∀ p l, t.lookup p = some (.link l) → t'.lookup p = some (.link l)
  through : ∀ p l, t.resolveBy t.singleRule cwd false path = .ok (.found p (.link l)) →
    ∃ d mode, t.resolveBy t.singleRule cwd true path = .ok d ∧ t'.lookup d.place = some (.file mode content)

/-- A path that is taken both as a whole and name by name leads to one destination. -/
theorem eq_of_resolveBy {follow : Bool} (hresolve : t.resolveBy t.singleRule cwd follow path = .ok d)
    (hdest : t.destination cwd follow path = .ok d') : d = d' := by
  obtain ⟨-, hwalk, -⟩ := resolveBy_eq_ok_iff.1 hresolve
  obtain ⟨-, -, w, -⟩ := destination_eq_ok_iff.1 hdest
  have hwhole := walk_eq_ok_iff.2 w
  rcases (walk_eq_ok_iff.1 hwalk).whole with h | h
  · exact Except.ok.inj (h.symm.trans hwhole)
  · cases h.symm.trans hwhole

/-- What a write lands on through all links is no link. -/
theorem lookup_ne_link_of_resolveBy (ht : t.Rooted) (hcwd : t.IsDir cwd)
    (h : t.resolveBy t.singleRule cwd true path = .ok (.found p e)) (l : NativePath) :
    t.lookup p ≠ some (.link l) := by
  obtain ⟨-, hwalk, -⟩ := resolveBy_eq_ok_iff.1 h
  have w := walk_eq_ok_iff.1 hwalk
  intro hlink
  cases hlink.symm.trans w.lookup_of_found
  exact w.ne_link ht (ht.isDir_linkStart hcwd path) l rfl

/-- With the place known where the write has landed, the path names no link exactly if none stood there, unless the
path leads to something. -/
theorem Lands.lookup_ne_link_iff (ht : t.Rooted) (hcwd : t.IsDir cwd) (h : Lands t cwd path dest) :
    (∀ l, t.lookup dest ≠ some (.link l)) ↔ ∀ p l, t.destination cwd false path = .ok (.found p (.link l)) →
      t.realPath cwd path ≠ .error (.refused .notFound) := by
  cases h with
  | resolved h =>
      refine iff_of_true (lookup_ne_link_of_resolveBy ht hcwd h) ?_
      intro _ _ _
      exact realPath_ne_notFound h
  | missing hmissing own hplace =>
      subst hplace
      constructor
      · intro hplain p l hlink
        cases own.symm.trans hlink
        exact absurd (lookup_of_destination own) (hplain l)
      · intro hnamed l hlink
        rw [(destination_eq_ok_iff.1 own).2.2.1.eq_standing, standing_of_some hlink] at own
        exact hnamed _ l own hmissing

/-- The content stands where a path leads that names a link. -/
theorem Lands.through (h : Lands t cwd path dest) (hdest : t'.lookup dest = some (.file mode content))
    (hplain : ∀ l, t.lookup dest ≠ some (.link l))
    (hlink : t.resolveBy t.singleRule cwd false path = .ok (.found p (.link l))) :
    ∃ d mode, t.resolveBy t.singleRule cwd true path = .ok d ∧ t'.lookup d.place = some (.file mode content) := by
  cases h with
  | resolved h => exact ⟨_, mode, h, hdest⟩
  | missing _ own hplace =>
      obtain rfl := eq_of_resolveBy hlink own
      exact absurd (hplace ▸ lookup_of_destination own) (hplain l)

/-- Filling the temporary file and moving the entry under its name keeps all links exactly if there are none at the two
places of the move. -/
theorem Opened.kept_iff (h : Opened t v cwd temp source x mode content) (hne : source ≠ dest)
    (hmoved : Moved v t' source dest) :
    (∀ p l, t.lookup p = some (.link l) → t'.lookup p = some (.link l)) ↔
      (∀ l, t.lookup source ≠ some (.link l)) ∧ ∀ l, t.lookup dest ≠ some (.link l) := by
  constructor
  · intro hkept
    have hsource : ∀ l, t.lookup source ≠ some (.link l) := by
      intro l hlink
      have hgone : t'.lookup source = none := by rw [hmoved, if_neg hne, if_pos rfl]
      cases hgone.symm.trans (hkept source l hlink)
    refine ⟨hsource, ?_⟩
    intro l hlink
    have hdest : t'.lookup dest = v.lookup source := by rw [hmoved, if_pos rfl]
    exact hsource l ((h.filled.sameWays.link_iff source l).1 (hdest.symm.trans (hkept dest l hlink)))
  · rintro ⟨hsource, hdest⟩ p l hlink
    have hps : p ≠ source := fun heq => hsource l (heq ▸ hlink)
    have hpd : p ≠ dest := fun heq => hdest l (heq ▸ hlink)
    rw [hmoved, if_neg hpd, if_neg hps, h.filled.lookup_of_ne (h.x_eq_source hsource ▸ hps), hlink]

/-- **When the links survive a write.** A write that has succeeded has kept all links, and has written through the link
that its path names, if and only if no link stood under the temporary name and the path did not name a link that led to
nothing. -/
theorem replace_keeps_links_iff (ht : t.WellFormed) (hcwd : t.IsDir cwd) {path : PortablePath}
    (h : (replace pid path content).run cwd t = (.ok (), t')) :
    LinksKept t cwd path.native content t' ↔
      (∀ temp source l, TemporaryFor t cwd pid path.native temp →
        t.destination cwd false temp ≠ .ok (.found source (.link l))) ∧
      ∀ p l, t.destination cwd false path.native = .ok (.found p (.link l)) →
        t.realPath cwd path.native ≠ .error (.refused .notFound) := by
  obtain ⟨target, v, source, x, mode, dest, hland, hopened, hlands, hne, hmoved⟩ := exists_moved_of_replace ht hcwd h
  have hleft : (∀ temp source l, TemporaryFor t cwd pid path.native temp →
      t.destination cwd false temp ≠ .ok (.found source (.link l))) ↔ ∀ l, t.lookup source ≠ some (.link l) := by
    simp only [temporaryFor_iff hland]
    constructor
    · intro hleft l hlink
      exact hleft _ source l rfl (hopened.link_iff.2 ⟨rfl, hlink⟩)
    · rintro hplain temp source' l rfl hlink
      exact hplain l (hopened.link_iff.1 hlink).2
  have hkept := hopened.kept_iff hne hmoved
  rw [hleft, ← hlands.lookup_ne_link_iff ht.rooted hcwd]
  constructor
  · intro hlinks
    exact hkept.1 hlinks.kept
  · intro hplain
    refine ⟨hkept.2 hplain, ?_⟩
    intro p l hlink
    obtain rfl := hopened.x_eq_source hplain.1
    have hdest : t'.lookup dest = some (.file mode content) := by
      rw [hmoved, if_pos rfl, hopened.filled.lookup_self]
    exact hlands.through hdest hplain.2 hlink

/-! ## A tree of one link -/

/-- A tree with a file `g` in its root and a link `f` to the path. -/
def withLink (l : NativePath) : FileTree :=
  (empty.insert [[0x67]] (.file 0o644 [0x6B])).insert [[0x66]] (.link l)

theorem wellFormed_withLink (l : NativePath) : (withLink l).WellFormed := by
  have hname : IsName [0x66] := ⟨by decide, by decide, by decide, by decide, by decide⟩
  have hother : IsName [0x67] := ⟨by decide, by decide, by decide, by decide, by decide⟩
  exact (wellFormed_empty.insert_root hother (by decide) _).insert_root hname (by decide) (.link l)

/-- A write to a link that leads to a file. -/
theorem replace_keeps_links_file :
    LinksKept (withLink [0x67]) [] filePath.native [0x6E] ((replace 1 filePath [0x6E]).run [] (withLink [0x67])).2 := by
  have hdone : ((replace 1 filePath [0x6E]).run [] (withLink [0x67])).1 = .ok () := by decide +kernel
  have hland : ((landing filePath.native).run [] (withLink [0x67])).1 = .ok (pathTo [[0x67]]) := by decide +kernel
  have hvacant : (withLink [0x67]).destination [] false (temporaryPath 1 (pathTo [[0x67]])) =
      .ok (.vacant (temporaryPlace 1 [[0x67]])) := by decide +kernel
  have hreal : (withLink [0x67]).realPath [] filePath.native = .ok (pathTo [[0x67]]) := by decide +kernel
  refine (replace_keeps_links_iff (wellFormed_withLink _) ⟨0o755, by decide⟩ (Prod.ext hdone rfl)).2 ⟨?_, ?_⟩
  · intro temp source l htemp hlink
    rw [temporaryFor_iff hland] at htemp
    subst htemp
    cases hvacant.symm.trans hlink
  · intro p l _
    simp [hreal]

/-- A write to a link that leads to nothing: a file takes the place of the link, and nothing is written to where the
link leads. -/
theorem replace_loses_link :
    let answer := (replace 1 filePath [0x6E]).run [] (withLink [0x68])
    answer.1 = .ok () ∧ (withLink [0x68]).lookup [[0x66]] = some (.link [0x68]) ∧
      answer.2.lookup [[0x66]] = some (.file 0o644 [0x6E]) ∧ answer.2.lookup [[0x68]] = none ∧
      ¬LinksKept (withLink [0x68]) [] filePath.native [0x6E] answer.2 := by
  intro answer
  have hold : (withLink [0x68]).lookup [[0x66]] = some (.link [0x68]) := by decide
  have hnew : answer.2.lookup [[0x66]] = some (.file 0o644 [0x6E]) := by decide +kernel
  refine ⟨by decide +kernel, hold, hnew, by decide +kernel, ?_⟩
  intro hlinks
  cases hnew.symm.trans (hlinks.kept _ _ hold)

end DocSplice.Storage
