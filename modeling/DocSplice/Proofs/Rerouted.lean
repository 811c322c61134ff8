import DocSplice.Proofs.ReadBack
import DocSplice.Proofs.WalkEnd

/-!
# Paths that go on by a moved link

A link that has been moved onto a file sends every path to this file on to where the link leads. How many links a walk
to a file needs is the same in every tree that keeps the directories and links on its way (`Walks.exists_need`), so that
a path to the file needs those on the way to it, the moved link, and those behind it (`exists_need_of_linked`). If the
link leads back to the file, no number is enough (`walk_of_circle`). Hence a document over which a link from under the
temporary name has been moved is read again exactly if the path would not run into too many links with this link in its
place (`Replaced.read_iff_of_link`).
-/
namespace DocSplice

open FileTree NativePath

variable {t t' u : FileTree} {rule : StepRule} {follow : Bool} {links more : ℕ} {cwd dir p p' q source dest x : Place}
  {steps rest : List Step} {n n' : Octets} {m mode : Mode} {c content : Octets} {d d' : Destination}
  {path l : NativePath}

namespace FileTree

/-- Walks of the same steps that both end lead to one destination. -/
theorem Walks.unique (w : Walks t rule follow links dir steps d) (w' : Walks t rule follow more dir steps d') :
    d = d' := by
  have hwalk := walk_eq_ok_iff.2 w
  have hwalk' := walk_eq_ok_iff.2 w'
  have hends : t.walk rule follow links dir steps ≠ .error .tooManyLinks := by simp [hwalk]
  have hends' : t.walk rule follow more dir steps ≠ .error .tooManyLinks := by simp [hwalk']
  have hsame := walk_eq_of_links hends hends'
  exact Except.ok.inj (hwalk.symm.trans (hsame.trans hwalk'))

/-- Steps to a file do not lead on. -/
theorem Walks.eq_nil_of_append (w : Walks t rule true links dir steps (.found p (.file m c))) (ht : t.Rooted)
    (hdir : t.IsDir dir) (won : Walks t rule true more dir (steps ++ rest) d) : rest = [] := by
  by_contra hrest
  obtain ⟨q, mode, wdir⟩ := won.exists_directory ht hdir hrest
  cases w.unique wdir

/-! ## How many links a walk needs -/

/-- The second tree keeps the directories and links of the first one, but for links that lead no walk with fewer than
the given number of links to the destination. -/
def KeepsWays (t u : FileTree) (rule : StepRule) (links : ℕ) (d : Destination) : Prop :=
  ∀ q e, ¬e.IsFile → t.lookup q = some e → u.lookup q = some e ∨ ∃ l, e = .link l ∧
    ∀ fewer < links, ∀ rest, ¬Walks t rule true fewer (linkStart q.dropLast l) (linkSteps l ++ rest) d

theorem KeepsWays.fewer (h : KeepsWays t u rule (links + 1) d) : KeepsWays t u rule links d := by
  intro q e he hq
  refine (h q e he hq).imp_right ?_
  rintro ⟨l, rfl, havoid⟩
  exact ⟨l, rfl, fun fewer hfewer => havoid fewer (Nat.lt_succ_of_lt hfewer)⟩

/-- **A walk to a file needs some number of links**: in every tree that keeps its ways, a walk of the same steps with
fewer is refused, and one with more comes to the last name with what is left of them. -/
theorem Walks.exists_need (w : Walks t rule true links dir steps (.found (p ++ [n]) (.file m c))) (ht : t.Rooted)
    (hdir : t.IsDir dir) : t.IsDir p ∧ rule p (.name n) = none ∧ ∃ need ≤ links, ∀ u,
      KeepsWays t u rule links (.found (p ++ [n]) (.file m c)) → ∀ more, u.walk rule true more dir steps =
        if more < need then .error .tooManyLinks else u.walk rule true (more - need) p [.name n] := by
  generalize hd : Destination.found (p ++ [n]) (.file m c) = d at w ⊢
  induction w with
  | @arrive links dir e hn =>
      cases hd
      obtain ⟨m, hm⟩ := hdir
      cases hn.symm.trans hm
  | @here links dir rest d free w ih =>
      obtain ⟨hp, hfree, need, hle, hneed⟩ := ih hdir hd
      refine ⟨hp, hfree, need, hle, ?_⟩
      intro u hu more
      rw [walk_here _ _ _ _ _ free, hneed u hu]
  | @parent links dir rest d free w ih =>
      obtain ⟨hp, hfree, need, hle, hneed⟩ := ih (ht.dropLast _ hdir) hd
      refine ⟨hp, hfree, need, hle, ?_⟩
      intro u hu more
      rw [walk_parent _ _ _ _ _ free, hneed u hu]
  | vacant free hn => cases hd
  | @enter links dir k rest d mode free hn w ih =>
      obtain ⟨hp, hfree, need, hle, hneed⟩ := ih ⟨_, hn⟩ hd
      refine ⟨hp, hfree, need, hle, ?_⟩
      intro u hu more
      have hkept : u.lookup (dir ++ [k]) = some (.directory mode) := by
        rcases hu _ _ (Entry.not_isFile_directory mode) hn with hkept | ⟨l, hl, -⟩
        · exact hkept
        · cases hl
      rw [walk_name_directory _ _ _ _ _ free hkept, hneed u hu]
  | @file links dir k mode content free hn =>
      obtain ⟨hplace, -⟩ := Destination.found.inj hd
      obtain ⟨rfl, hk⟩ := List.append_inj' hplace rfl
      obtain rfl := List.cons.inj hk |>.1
      exact ⟨hdir, free, 0, Nat.zero_le _, fun u _ more => by simp⟩
  | link free hn keep => cases keep
  | @jump links dir k rest d target free hn go w ih =>
      obtain ⟨hp, hfree, need, hle, hneed⟩ := ih (ht.isDir_linkStart hdir target) hd
      refine ⟨hp, hfree, need + 1, Nat.succ_le_succ hle, ?_⟩
      intro u hu more
      rcases hu _ _ (Entry.not_isFile_link target) hn with hkept | ⟨l, hl, havoid⟩
      · rw [walk_name_link _ _ _ _ _ free hkept, if_neg go]
        cases more with
        | zero => simp
        | succ more => simp [hneed u hu.fewer more]
      · cases hl
        rw [List.dropLast_concat] at havoid
        exact absurd w (havoid links (Nat.lt_succ_self links) rest)

/-- Of the walks that lead somewhere, one has the fewest links. -/
theorem Walks.exists_least (w : Walks t rule follow links dir steps d) :
    ∃ least, Walks t rule follow least dir steps d ∧ ∀ fewer < least, ¬Walks t rule follow fewer dir steps d := by
  classical
  have hex : ∃ links, Walks t rule follow links dir steps d := ⟨links, w⟩
  exact ⟨Nat.find hex, Nat.find_spec hex, fun fewer hfewer => Nat.find_min hex hfewer⟩

/-! ## A link in place of a file -/

/-- A link that takes the place of a file leaves all other ways. -/
theorem keepsWays_insert (hways : SameWays t u) (hfile : u.lookup dest = some (.file m c)) :
    KeepsWays u (t.insert dest (.link l)) rule links d := by
  intro q e he hq
  have hne : q ≠ dest := by
    rintro rfl
    cases hfile.symm.trans hq
    exact he (Entry.isFile_file m c)
  exact .inl (by rw [lookup_insert, if_neg hne, (hways q e he).1 hq])

/-- A link that is moved onto a file is missing in its old place only. -/
theorem LinkMoved.keepsWays (h : LinkMoved t t' source dest l)
    (havoid : ∀ fewer < links, ∀ rest, ¬Walks t rule true fewer (linkStart source.dropLast l) (linkSteps l ++ rest) d) :
    KeepsWays t t' rule links d := by
  intro q e he hq
  by_cases hsource : q = source
  · subst hsource
    cases h.link.symm.trans hq
    exact .inr ⟨l, rfl, havoid⟩
  · have hne : q ≠ dest := by
      rintro rfl
      obtain ⟨m, c, hfile⟩ := h.file
      cases hfile.symm.trans hq
      exact he (Entry.isFile_file m c)
    exact .inl (by rw [h.lookup_of_ne hne hsource, hq])

section Linked

variable (ht : t.Rooted) (hdir : t.IsDir dir)
  (w : Walks t rule true links dir steps (.found (p ++ [n]) (.file m c)))

include ht hdir w

/-- If a file is replaced by a link that leads back to it, every path to the file runs into too many links. -/
theorem walk_of_circle (wlink : Walks t rule true more (linkStart p l) (linkSteps l) (.found (p ++ [n]) (.file m c)))
    (hkeeps : ∀ links, KeepsWays t u rule links (.found (p ++ [n]) (.file m c)))
    (hlink : u.lookup (p ++ [n]) = some (.link l)) (limit : ℕ) :
    u.walk rule true limit dir steps = .error .tooManyLinks := by
  obtain ⟨hp, hfree, need, -, hneed⟩ := w.exists_need ht hdir
  obtain ⟨-, -, round, -, hround⟩ := wlink.exists_need ht (ht.isDir_linkStart hp l)
  have hcircle : ∀ left, u.walk rule true left p [.name n] = .error .tooManyLinks := by
    intro left
    induction left using Nat.strong_induction_on with
    | _ left ih =>
        rw [walk_name_link _ _ _ _ _ hfree hlink, if_neg (by simp)]
        cases left with
        | zero => rfl
        | succ left =>
            dsimp only
            rw [List.append_nil, hround u (hkeeps _), ih (left - round) (by omega), ite_self]
  rw [hneed u (hkeeps _), hcircle, ite_self]

/-- If a file is replaced by a link that leads to another one, every path to the file leads there, or runs into too many
links; the number that it needs is the same in every such tree. -/
theorem exists_need_of_linked {m' : Mode} {c' : Octets}
    (wlink : Walks t rule true more (linkStart p l) (linkSteps l) (.found (p' ++ [n']) (.file m' c'))) :
    ∃ need, ∀ u, KeepsWays t u rule links (.found (p ++ [n]) (.file m c)) →
      KeepsWays t u rule more (.found (p' ++ [n']) (.file m' c')) → u.lookup (p ++ [n]) = some (.link l) →
      (∀ k, u.lookup (p' ++ [n']) ≠ some (.link k)) → ∀ limit, u.walk rule true limit dir steps =
        if limit < need then .error .tooManyLinks else .ok (u.standing (p' ++ [n'])) := by
  obtain ⟨hp, hfree, need, -, hneed⟩ := w.exists_need ht hdir
  obtain ⟨-, hfree', behind, -, hbehind⟩ := wlink.exists_need ht (ht.isDir_linkStart hp l)
  refine ⟨need + 1 + behind, ?_⟩
  intro u hkeeps hkeeps' hlink hplain limit
  rw [hneed u hkeeps]
  by_cases hfew : limit < need
  · rw [if_pos hfew, if_pos (by omega)]
  rw [if_neg hfew, walk_name_link _ _ _ _ _ hfree hlink, if_neg (by simp)]
  obtain ⟨left, rfl⟩ := Nat.exists_eq_add_of_le (Nat.le_of_not_lt hfew)
  rw [Nat.add_sub_cancel_left]
  cases left with
  | zero => rw [if_pos (by omega)]
  | succ left =>
      have hend : u.walk rule true (left - behind) p' [.name n'] = .ok (u.standing (p' ++ [n'])) :=
        walk_eq_ok_iff.2 (walks_name hfree' fun k hk => absurd hk (hplain k))
      dsimp only
      rw [List.append_nil, hbehind u hkeeps', hend]
      by_cases hleft : left < behind
      · rw [if_pos hleft, if_pos (by omega)]
      · rw [if_neg hleft, if_neg (by omega)]

end Linked

/-- **Two trees in which a link has taken the place of a file.** Where the link leads to another file, every path to the
replaced file leads there or runs into too many links, and does so in both trees alike, whether the link stays in its
old place too or is moved. -/
theorem LinkMoved.exists_need {m' : Mode} {c' : Octets} (hm : LinkMoved u t' source (p ++ [n]) l) (hu : u.Rooted)
    (hways : SameWays t u) (hbeside : source.dropLast = p) (hdir : u.IsDir dir)
    (w : Walks u rule true links dir steps (.found (p ++ [n]) (.file m c)))
    (wlink : Walks u rule true more (linkStart p l) (linkSteps l) (.found x (.file m' c'))) (hx : x ≠ p ++ [n]) :
    ∃ need, ∀ limit,
      t'.walk rule true limit dir steps =
          (if limit < need then .error .tooManyLinks else .ok (.found x (.file m' c'))) ∧
        (t.insert (p ++ [n]) (.link l)).walk rule true limit dir steps =
          if limit < need then .error .tooManyLinks else .ok ((t.insert (p ++ [n]) (.link l)).standing x) := by
  obtain ⟨hp, -⟩ := w.exists_need hu hdir
  have hstart := hu.isDir_linkStart hp l
  have hxfile := wlink.lookup_of_found
  have hsource : x ≠ source := by
    rintro rfl
    cases hm.link.symm.trans hxfile
  obtain ⟨p', n', rfl⟩ := hu.exists_concat hxfile
  obtain ⟨least, wleast, hleast⟩ := wlink.exists_least
  -- Behind the moved link, the way to the replaced file does not begin anew, nor does a shorter one to the other file.
  have hway : ∀ fewer rest, ¬Walks u rule true fewer (linkStart source.dropLast l) (linkSteps l ++ rest)
      (.found (p ++ [n]) (.file m c)) := by
    intro fewer rest won
    rw [hbeside] at won
    obtain rfl := wlink.eq_nil_of_append hu hstart won
    rw [List.append_nil] at won
    exact hx (Destination.found.inj (wlink.unique won)).1
  have hshort : ∀ fewer < least, ∀ rest, ¬Walks u rule true fewer (linkStart source.dropLast l) (linkSteps l ++ rest)
      (.found (p' ++ [n']) (.file m' c')) := by
    intro fewer hfewer rest won
    rw [hbeside] at won
    obtain rfl := wlink.eq_nil_of_append hu hstart won
    rw [List.append_nil] at won
    exact hleast fewer hfewer won
  obtain ⟨m₁, c₁, hdest⟩ := hm.file
  have hmoved : t'.lookup (p' ++ [n']) = some (.file m' c') := by rw [hm.lookup_of_ne hx hsource, hxfile]
  have hput : ∀ k, (t.insert (p ++ [n]) (.link l)).lookup (p' ++ [n']) ≠ some (.link k) := by
    intro k hk
    rw [lookup_insert, if_neg hx, ← hways.link_iff, hxfile] at hk
    cases hk
  obtain ⟨need, hneed⟩ := exists_need_of_linked hu hdir w wleast
  refine ⟨need, fun limit => ⟨?_, ?_⟩⟩
  · rw [hneed t' (hm.keepsWays fun fewer _ => hway fewer) (hm.keepsWays hshort) (by rw [hm.lookup, if_pos rfl])
      (by simp [hmoved]), standing_of_some hmoved]
  · exact hneed _ (keepsWays_insert hways hdest) (keepsWays_insert hways hdest) (by rw [lookup_insert, if_pos rfl]) hput
      limit

/-- A link that takes the place of a file is no directory. -/
theorem sameDirectories_insert (hfile : t.lookup dest = some (.file m c)) :
    SameDirectories t (t.insert dest (.link l)) := by
  intro q mode
  rw [lookup_insert]
  by_cases hq : q = dest
  · simp [hq, hfile]
  · rw [if_neg hq]

end FileTree

namespace Storage

variable (ht : t.Rooted) (hcwd : t.IsDir cwd)
  (h : Replaced t u t' source dest x mode content) (hlink : t.lookup source = some (.link l))
  (hbeside : source.dropLast = dest.dropLast) (hfind : t.find cwd path = .ok (dest, .file m c))

include ht hcwd h hlink hbeside hfind

/-- **What is read behind a link that has been moved onto the document.** The new content is read, unless the path runs
into too many links with this link in the place of the document. -/
theorem Replaced.read_iff_of_link (hgrants : m.grants .read = true) : t'.read cwd path = .ok content ↔
    (t.insert dest (.link l)).find cwd path ≠ .error (.refused .tooManyLinks) := by
  obtain ⟨hcheck, hnil, hslash, -⟩ := find_file_iff.1 hfind
  have hfile := lookup_of_find hfind
  have hm := h.linkMoved hlink
  have hways := h.filled.sameWays
  have hu := hways.sameDirectories.rooted ht
  have hdir := hu.isDir_linkStart (hways.sameDirectories.isDir_iff.2 hcwd) path
  -- In the tree where the temporary file is filled, the path still leads to the document, and the link to this file.
  obtain ⟨m₁, c₁, hdest⟩ := hm.file
  obtain ⟨-, -, -, w⟩ := find_file_iff.1 (find_frame hways ht hcwd hfind hdest)
  obtain ⟨links, wlink⟩ := h.link l hlink
  obtain ⟨p, n, rfl⟩ := ht.exists_concat hfile
  rw [List.dropLast_concat] at hbeside wlink
  have hwhole := hm.sameDirectories.wholeRule_eq
  have hwhole' : (t.insert (p ++ [n]) (.link l)).wholeRule = u.wholeRule := by
    rw [(sameDirectories_insert hfile).wholeRule_eq, hways.sameDirectories.wholeRule_eq]
  by_cases hx : x = p ++ [n]
  · subst hx
    cases hdest.symm.trans wlink.lookup_of_found
    have hlinked : (t.insert (p ++ [n]) (.link l)).lookup (p ++ [n]) = some (.link l) := by
      rw [lookup_insert, if_pos rfl]
    have hcircle := walk_of_circle hu hdir w wlink (fun _ => keepsWays_insert hways hdest) hlinked linkLimit
    have hput : (t.insert (p ++ [n]) (.link l)).find cwd path = .error (.refused .tooManyLinks) := by
      rw [find_eq_walk hcheck hnil, hwhole', hcircle]
    simp only [hput, ne_eq, not_true_eq_false, iff_false]
    intro hread
    obtain ⟨q, m', hfind', -⟩ := read_eq_ok_iff.1 hread
    obtain ⟨-, -, -, w'⟩ := find_file_iff.1 hfind'
    rw [hwhole] at w'
    rcases Walks.of_moved hm hu ⟨links, mode, content, by rwa [List.dropLast_concat]⟩ hdir w' w with
      ⟨hne, -⟩ | ⟨-, -, hne⟩
    · exact hne rfl
    · exact hne rfl
  · obtain ⟨need, hneed⟩ := hm.exists_need hu hways hbeside hdir w wlink hx
    obtain ⟨hmoved, hput⟩ := hneed linkLimit
    rw [FileTree.read, find_eq_walk hcheck hnil, hwhole, hmoved, find_eq_walk hcheck hnil, hwhole', hput, hslash]
    by_cases hfew : linkLimit < need
    · simp [hfew]
    · have hreadable := h.readable hx m c hfile hgrants
      cases hstanding : (t.insert (p ++ [n]) (.link l)).standing x <;> simp [hfew, hreadable]

end Storage
end DocSplice
