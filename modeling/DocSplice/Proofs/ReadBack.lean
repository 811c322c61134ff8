import DocSplice.Proofs.Replace

/-!
# Reading after a replacement

A document is read again as the file that its path leads to then. After a replacement, a path to the replaced
file reads the new content, if it reads a file at all, and every other path reads what it read before or the new
content (`Replaced.content_eq`). Unless a link has been left under the temporary name, both are read again
(`Replaced.find_dest`, `Replaced.find_other`); only what stood at the temporary name itself is lost.
-/
namespace DocSplice.Storage

open FileTree

variable {t u t' : FileTree} {cwd source dest x p q : Place} {mode m m' : Mode} {content c c' : Octets}
  {path : NativePath}

namespace Replaced

/-- Without a link under the temporary name, no directory and no link changes. -/
theorem sameWays (h : Replaced t u t' source dest x mode content)
    (hplain : ∀ target, t.lookup source ≠ some (.link target)) : SameWays t t' := by
  obtain ⟨m, c, hfile⟩ := h.file
  obtain rfl := h.plain hplain
  have hdest : u.lookup dest = some (.file m c) := by
    rw [h.filled.lookup_of_ne (Ne.symm h.ne), hfile]
  exact h.filled.sameWays.trans (h.moved.sameWays h.filled.lookup_self (Entry.isFile_file mode content)
    hdest (Entry.isFile_file m c))

/-- With a link under the temporary name, this link is moved. -/
theorem linkMoved (h : Replaced t u t' source dest x mode content) {target : NativePath}
    (hlink : t.lookup source = some (.link target)) : LinkMoved u t' source dest target := by
  obtain ⟨m, c, hfile⟩ := h.file
  refine ⟨h.moved, (h.filled.sameWays.link_iff _ _).2 hlink, ?_⟩
  by_cases hx : dest = x
  · exact ⟨_, _, hx ▸ h.filled.lookup_self⟩
  · exact ⟨m, c, by rw [h.filled.lookup_of_ne hx, hfile]⟩

theorem x_ne_source (h : Replaced t u t' source dest x mode content) {target : NativePath}
    (hlink : t.lookup source = some (.link target)) : x ≠ source := by
  intro heq
  subst heq
  exact Entry.not_isFile_link target (h.filled.free _ hlink)

theorem lookup_dest (h : Replaced t u t' source dest x mode content) :
    t'.lookup dest = u.lookup source := by
  rw [h.moved, if_pos rfl]

theorem lookup_of_ne (h : Replaced t u t' source dest x mode content) (hdest : p ≠ dest)
    (hsource : p ≠ source) :
    t'.lookup p = if p = x then some (.file mode content) else t.lookup p := by
  rw [h.moved, if_neg hdest, if_neg hsource, h.filled.lookup]

variable (ht : t.Rooted) (hcwd : t.IsDir cwd)

include ht hcwd

/-- A path to the replaced file reads the new content. -/
theorem find_dest (h : Replaced t u t' source dest x mode content)
    (hplain : ∀ target, t.lookup source ≠ some (.link target))
    (hfind : t.find cwd path = .ok (dest, .file m c)) :
    t'.find cwd path = .ok (dest, .file mode content) := by
  apply find_frame (h.sameWays hplain) ht hcwd hfind
  rw [h.lookup_dest, ← h.plain hplain, h.filled.lookup_self]

/-- A path to another file reads what it read before. -/
theorem find_other (h : Replaced t u t' source dest x mode content)
    (hplain : ∀ target, t.lookup source ≠ some (.link target))
    (hfind : t.find cwd path = .ok (p, .file m c)) (hdest : p ≠ dest) (hsource : p ≠ source) :
    t'.find cwd path = .ok (p, .file m c) := by
  apply find_frame (h.sameWays hplain) ht hcwd hfind
  rw [h.lookup_of_ne hdest hsource, h.plain hplain, if_neg hsource, lookup_of_find hfind]

/-- A path to what stood at the temporary name finds nothing. -/
theorem find_source (h : Replaced t u t' source dest x mode content)
    (hplain : ∀ target, t.lookup source ≠ some (.link target))
    (hfind : t.find cwd path = .ok (source, .file m c)) :
    t'.find cwd path = .error (.refused .notFound) := by
  apply find_frame_none (h.sameWays hplain) ht hcwd hfind
  rw [h.moved, if_neg h.ne, if_pos rfl]

/-- **What is read after a replacement.** Whatever stands under the temporary name, a path to the replaced file
reads the new content if it reads a file, and another path reads its own file or the new content. -/
theorem content_eq (h : Replaced t u t' source dest x mode content)
    (hfind : t.find cwd path = .ok (p, .file m c)) (hfind' : t'.find cwd path = .ok (q, .file m' c')) :
    (p = dest → c' = content) ∧ (p ≠ dest → c' = c ∨ c' = content) := by
  by_cases hlink : ∃ target, t.lookup source = some (.link target)
  · obtain ⟨target, hlink⟩ := hlink
    have hm := h.linkMoved hlink
    have hfile' := lookup_of_find hfind'
    have hrooted := h.filled.sameWays.sameDirectories.rooted ht
    have hdir := hrooted.isDir_linkStart (h.filled.sameWays.sameDirectories.isDir_iff.2 hcwd) path
    have hu : ∃ m₁ c₁, u.find cwd path = .ok (p, .file m₁ c₁) := by
      by_cases hx : p = x
      · exact ⟨mode, content, find_frame h.filled.sameWays ht hcwd hfind
          (hx ▸ h.filled.lookup_self)⟩
      · exact ⟨m, c, find_frame h.filled.sameWays ht hcwd hfind
          (by rw [h.filled.lookup_of_ne hx, lookup_of_find hfind])⟩
    obtain ⟨m₁, c₁, hu⟩ := hu
    obtain ⟨-, -, -, w⟩ := find_file_iff.1 hu
    obtain ⟨-, -, -, w'⟩ := find_file_iff.1 hfind'
    obtain ⟨links, hx⟩ := h.link target hlink
    rw [hm.sameDirectories.wholeRule_eq] at w'
    rcases Walks.of_moved hm hrooted ⟨links, mode, content, hx⟩ hdir w' w with
      ⟨hne, rfl⟩ | ⟨rfl, rfl, hne⟩
    · have hsource : q ≠ source := by
        intro heq
        subst heq
        rw [h.moved, if_neg hne, if_pos rfl] at hfile'
        cases hfile'
      rw [h.lookup_of_ne hne hsource, lookup_of_find hfind] at hfile'
      refine ⟨fun hdest => absurd hdest hne, fun _ => ?_⟩
      split_ifs at hfile'
      · cases hfile'
        exact .inr rfl
      · cases hfile'
        exact .inl rfl
    · rw [h.lookup_of_ne hne (h.x_ne_source hlink), if_pos rfl] at hfile'
      cases hfile'
      exact ⟨fun _ => rfl, fun hdest => absurd rfl hdest⟩
  · have hplain : ∀ target, t.lookup source ≠ some (.link target) := not_exists.1 hlink
    by_cases hdest : p = dest
    · subst hdest
      cases (h.find_dest ht hcwd hplain hfind).symm.trans hfind'
      exact ⟨fun _ => rfl, fun hne => absurd rfl hne⟩
    · by_cases hsource : p = source
      · subst hsource
        cases (h.find_source ht hcwd hplain hfind).symm.trans hfind'
      · cases (h.find_other ht hcwd hplain hfind hdest hsource).symm.trans hfind'
        exact ⟨fun h => absurd h hdest, fun _ => .inl rfl⟩

end Replaced

/-! ## Octets -/

/-- What is read are the octets of the file that the path leads to, if it may be read. -/
theorem read_eq_ok_iff : t.read cwd path = .ok c ↔
    ∃ p m, t.find cwd path = .ok (p, .file m c) ∧ m.grants .read = true := by
  rw [FileTree.read]
  split
  · next f hfind => simp [hfind]
  · next p m content hfind =>
    cases hread : m.grants .read with
    | true =>
        simp only [if_true, Except.ok.injEq, hfind, Prod.mk.injEq, Entry.file.injEq]
        constructor
        · intro heq
          subst heq
          exact ⟨p, m, ⟨rfl, rfl, rfl⟩, hread⟩
        · intro h
          rcases h with ⟨-, -, ⟨-, -, hcontent⟩, -⟩
          exact hcontent
    | false =>
        simp only [Bool.false_eq_true, if_false, hfind, Except.ok.injEq, Prod.mk.injEq,
          Entry.file.injEq, reduceCtorEq, false_iff, not_exists, not_and]
        intro _ m' h
        rcases h with ⟨-, rfl, -⟩
        simp [hread]
  · next p m hfind => simp [hfind]
  · next p target hfind => simp [hfind]

/-- The new content is read, unless a link has been left under the temporary name. -/
theorem Replaced.read_dest (ht : t.Rooted) (hcwd : t.IsDir cwd) (h : Replaced t u t' source dest x mode content)
    (hplain : ∀ target, t.lookup source ≠ some (.link target)) (hfind : t.find cwd path = .ok (dest, .file m c))
    (hgrants : m.grants .read = true) : t'.read cwd path = .ok content := by
  have hne : x ≠ dest := h.plain hplain ▸ h.ne
  exact read_eq_ok_iff.2
    ⟨dest, mode, h.find_dest ht hcwd hplain hfind, h.readable hne m c (lookup_of_find hfind) hgrants⟩

/-! ## Documents -/

/-- The document that is read at the path, if one is. -/
def textAt? (t : FileTree) (cwd : Place) (path : PortablePath) : Option Text :=
  ((readText path).run cwd t).1.toOption

/-- Reading changes nothing. -/
theorem run_readText_snd (path : PortablePath) : ((readText path).run cwd t).2 = t := by
  rw [readText]
  simp only [Action.run_bind, Action.run_read]
  cases t.read cwd path.native with
  | error f => rfl
  | ok content => cases hdecode : Utf8.decode? content <;> simp [hdecode]

/-- A document is read exactly if its octets are. -/
theorem textAt?_eq_some_iff_read {path : PortablePath} {text : Text} :
    textAt? t cwd path = some text ↔ t.read cwd path.native = .ok (Utf8.encode text) := by
  unfold textAt? readText
  simp only [Action.run_bind, Action.run_read]
  cases hread : t.read cwd path.native with
  | error f => simp [Except.toOption]
  | ok content =>
      rw [Except.ok.injEq, ← Utf8.decode?_eq_some_iff]
      cases hdecode : Utf8.decode? content <;> simp [hdecode, Except.toOption]

/-- A document is what a file holds that may be read and is text. -/
theorem textAt?_eq_some_iff {path : PortablePath} {text : Text} :
    textAt? t cwd path = some text ↔ ∃ p m c, t.find cwd path.native = .ok (p, .file m c) ∧
      m.grants .read = true ∧ Utf8.decode? c = some text := by
  rw [textAt?_eq_some_iff_read, read_eq_ok_iff]
  constructor
  · intro h
    rcases h with ⟨p, m, hfind, hgrants⟩
    exact ⟨p, m, _, hfind, hgrants, Utf8.decode?_encode text⟩
  · intro h
    rcases h with ⟨p, m, c, hfind, hgrants, hdecode⟩
    rw [Utf8.decode?_eq_some_iff] at hdecode
    exact ⟨p, m, hdecode ▸ hfind, hgrants⟩

/-- A document is read from the file that its path leads to. -/
theorem file_of_textAt? {path : PortablePath} {text : Text} {e : Entry}
    (hfind : t.find cwd path.native = .ok (p, e)) (htext : textAt? t cwd path = some text) :
    ∃ m c, t.find cwd path.native = .ok (p, .file m c) ∧ m.grants .read = true ∧
      Utf8.decode? c = some text := by
  obtain ⟨p', m, c, hfile, hgrants, hdecode⟩ := textAt?_eq_some_iff.1 htext
  cases hfind.symm.trans hfile
  exact ⟨m, c, hfile, hgrants, hdecode⟩

namespace Replaced

variable {path : PortablePath} {new text text' : Text} {e : Entry} (ht : t.Rooted) (hcwd : t.IsDir cwd)

include ht hcwd

/-- The replaced document is read again. -/
theorem textAt?_dest (h : Replaced t u t' source dest x mode (Utf8.encode new))
    (hplain : ∀ target, t.lookup source ≠ some (.link target))
    (hfind : t.find cwd path.native = .ok (dest, e)) (htext : textAt? t cwd path = some text) :
    textAt? t' cwd path = some new := by
  obtain ⟨m, c, hfile, hgrants, -⟩ := file_of_textAt? hfind htext
  exact textAt?_eq_some_iff_read.2 (h.read_dest ht hcwd hplain hfile hgrants)

/-- Another document is read again, unless it stood at the temporary name. -/
theorem textAt?_other (h : Replaced t u t' source dest x mode (Utf8.encode new))
    (hplain : ∀ target, t.lookup source ≠ some (.link target))
    (hfind : t.find cwd path.native = .ok (p, e)) (htext : textAt? t cwd path = some text)
    (hdest : p ≠ dest) : textAt? t' cwd path = some text ↔ p ≠ source := by
  obtain ⟨m, c, hfile, hgrants, hdecode⟩ := file_of_textAt? hfind htext
  constructor
  · intro htext' heq
    subst heq
    obtain ⟨p', m', c', hfile', -, -⟩ := textAt?_eq_some_iff.1 htext'
    cases (h.find_source ht hcwd hplain hfile).symm.trans hfile'
  · intro hsource
    exact textAt?_eq_some_iff.2
      ⟨p, m, c, h.find_other ht hcwd hplain hfile hdest hsource, hgrants, hdecode⟩

/-- What is read after a replacement, if a document is read. -/
theorem textAt?_eq (h : Replaced t u t' source dest x mode (Utf8.encode new))
    (hfind : t.find cwd path.native = .ok (p, e)) (htext : textAt? t cwd path = some text)
    (htext' : textAt? t' cwd path = some text') :
    (p = dest → text' = new) ∧ (p ≠ dest → text' = text ∨ text' = new) := by
  obtain ⟨m, c, hfile, -, hdecode⟩ := file_of_textAt? hfind htext
  obtain ⟨q, m', c', hfile', -, hdecode'⟩ := textAt?_eq_some_iff.1 htext'
  obtain ⟨hdest, hother⟩ := h.content_eq ht hcwd hfile hfile'
  refine ⟨?_, ?_⟩
  · intro hp
    rw [hdest hp, Utf8.decode?_encode] at hdecode'
    exact (Option.some.inj hdecode').symm
  · intro hp
    rcases hother hp with rfl | rfl
    · exact .inl (Option.some.inj (hdecode'.symm.trans hdecode))
    · rw [Utf8.decode?_encode] at hdecode'
      exact .inr (Option.some.inj hdecode').symm

end Replaced

end DocSplice.Storage
