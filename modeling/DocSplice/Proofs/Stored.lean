import DocSplice.Proofs.Change
import DocSplice.Proofs.WalkEnd

/-!
# Trees with a file put at a place

A file put where no directory stood changes neither the directories nor what stands anywhere else (`Stored`). Walks
that end elsewhere in the new tree end there in the old one too (`Walks.of_stored`). Where no link was replaced, what a
path finds changes at this place only, unless the path found nothing before (`Stored.find_eq`). Where a link was
replaced that leads nowhere, the path of the link itself finds the file (`Walks.of_replaced_link`).
-/
namespace DocSplice.FileTree

open NativePath

variable {t t' : FileTree} {rule : StepRule} {follow : Bool} {links : ℕ} {cwd dir place p : Place}
  {steps rest : List Step} {d : Destination} {path target : NativePath} {mode : Mode} {content : Octets} {e : Entry}

/-- The second tree is the first one with the given file at the place, where no directory stood. -/
structure Stored (t t' : FileTree) (place : Place) (mode : Mode) (content : Octets) : Prop where
  free : ¬ t.IsDir place
  lookup : ∀ p, t'.lookup p = if p = place then some (.file mode content) else t.lookup p

theorem Filled.stored (h : Filled t t' place mode content) : Stored t t' place mode content := by
  refine ⟨?_, h.lookup⟩
  intro hdir
  obtain ⟨m, hm⟩ := hdir
  exact Entry.not_isFile_directory m (h.free _ hm)

namespace Stored

theorem lookup_self (h : Stored t t' place mode content) : t'.lookup place = some (.file mode content) := by
  rw [h.lookup, if_pos rfl]

theorem lookup_of_ne (h : Stored t t' place mode content) (hp : p ≠ place) : t'.lookup p = t.lookup p := by
  rw [h.lookup, if_neg hp]

/-- What is no file of the new tree stood there before. -/
theorem lookup_of_not_isFile (h : Stored t t' place mode content) (he : t'.lookup p = some e) (hfile : ¬ e.IsFile) :
    t.lookup p = some e := by
  by_cases hp : p = place
  · subst hp
    rw [h.lookup_self] at he
    cases he
    exact absurd (Entry.isFile_file mode content) hfile
  · rwa [h.lookup_of_ne hp] at he

theorem sameDirectories (h : Stored t t' place mode content) : SameDirectories t t' := by
  intro p m
  constructor
  · intro hm
    exact h.lookup_of_not_isFile hm (Entry.not_isFile_directory m)
  · intro hm
    have hp : p ≠ place := by
      intro heq
      subst heq
      exact h.free ⟨m, hm⟩
    rwa [h.lookup_of_ne hp]

/-- A file is a file in the new tree. -/
theorem exists_file (h : Stored t t' place mode content) {m : Mode} {c : Octets}
    (hp : t.lookup p = some (.file m c)) : ∃ m' c', t'.lookup p = some (.file m' c') := by
  by_cases heq : p = place
  · exact ⟨mode, content, heq ▸ h.lookup_self⟩
  · exact ⟨m, c, by rw [h.lookup_of_ne heq, hp]⟩

end Stored

/-- A walk that does not end at the new file was possible before. -/
theorem Walks.of_stored (h : Stored t t' place mode content) (w : Walks t' rule follow links dir steps d)
    (hne : d.place ≠ place) : Walks t rule follow links dir steps d := by
  induction w with
  | @arrive links dir e hn => exact .arrive ((h.lookup_of_ne hne).symm.trans hn)
  | here free w ih => exact .here free (ih hne)
  | parent free w ih => exact .parent free (ih hne)
  | vacant free hn => exact .vacant free ((h.lookup_of_ne hne).symm.trans hn)
  | enter free hn w ih => exact .enter free (h.lookup_of_not_isFile hn (Entry.not_isFile_directory _)) (ih hne)
  | file free hn => exact .file free ((h.lookup_of_ne hne).symm.trans hn)
  | link free hn keep => exact .link free ((h.lookup_of_ne hne).symm.trans hn) keep
  | jump free hn go w ih => exact .jump free (h.lookup_of_not_isFile hn (Entry.not_isFile_link _)) go (ih hne)

/-- A path that does not lead to the new file led there before. -/
theorem Stored.destination_of_ne (h : Stored t t' place mode content) (hd : t'.destination cwd follow path = .ok d)
    (hne : d.place ≠ place) : t.destination cwd follow path = .ok d := by
  obtain ⟨hcheck, hnil, w, hslash⟩ := destination_eq_ok_iff.1 hd
  rw [h.sameDirectories.wholeRule_eq] at w
  exact destination_eq_ok_iff.2 ⟨hcheck, hnil, w.of_stored h hne, hslash⟩

/-! ## Where no link was replaced -/

section Plain

variable (h : Stored t t' place mode content) (hplain : ∀ target, t.lookup place ≠ some (.link target))

include h hplain

theorem Stored.sameWays : SameWays t t' := by
  intro p e he
  constructor
  · intro hp
    exact h.lookup_of_not_isFile hp he
  · intro hp
    have hne : p ≠ place := by
      intro heq
      subst heq
      cases e with
      | file m c => exact he (Entry.isFile_file m c)
      | directory m => exact h.free ⟨m, hp⟩
      | link target => exact hplain target hp
    rwa [h.lookup_of_ne hne]

/-- A walk ends as it did, if it did not find that something was missing. -/
theorem Stored.walk_eq (ht : t.Rooted) (hdir : t.IsDir dir)
    (hfound : t.walk rule follow links dir steps ≠ .error .notFound) :
    t'.walk rule follow links dir steps =
      (t.walk rule follow links dir steps).map fun d => t'.standing d.place := by
  induction links, dir, steps using walk_induction t rule with
  | nil links dir =>
      obtain ⟨m, hm⟩ := hdir
      have hm' := (h.sameDirectories dir m).2 hm
      simp [walk_nil, hm, hm', Except.map, Destination.place, standing]
  | refused links dir step rest r hrule =>
      rw [walk_refused _ _ _ _ _ hrule, walk_refused _ _ _ _ _ hrule]
      rfl
  | here links dir rest free ih =>
      rw [walk_here _ _ _ _ _ free] at hfound ⊢
      rw [walk_here _ _ _ _ _ free]
      exact ih hdir hfound
  | parent links dir rest free ih =>
      rw [walk_parent _ _ _ _ _ free] at hfound ⊢
      rw [walk_parent _ _ _ _ _ free]
      exact ih (ht.dropLast _ hdir) hfound
  | vacant links dir n rest free hn =>
      have hrest : rest = [] := by
        by_contra hrest
        exact hfound (by rw [walk_name_none _ _ _ _ _ free hn, if_neg hrest])
      subst hrest
      have keep : ∀ target, t'.lookup (dir ++ [n]) = some (.link target) → follow = false := by
        intro target hlink
        cases hn.symm.trans (h.lookup_of_not_isFile hlink (Entry.not_isFile_link target))
      rw [walk_name_none _ _ _ _ _ free hn, if_pos rfl]
      exact walk_eq_ok_iff.2 (walks_name free keep)
  | enter links dir n rest m free hn ih =>
      rw [walk_name_directory _ _ _ _ _ free hn] at hfound ⊢
      rw [walk_name_directory _ _ _ _ _ free ((h.sameDirectories _ _).2 hn)]
      exact ih ⟨m, hn⟩ hfound
  | file links dir n rest m c free hn =>
      obtain ⟨m', c', hn'⟩ := h.exists_file hn
      rw [walk_name_file _ _ _ _ _ free hn, walk_name_file _ _ _ _ _ free hn']
      split_ifs with hrest
      · simp [Except.map, Destination.place, standing, hn']
      · rfl
  | link links dir n rest target free hn ih =>
      have hn' := ((h.sameWays hplain).link_iff _ _).2 hn
      rw [walk_name_link _ _ _ _ _ free hn] at hfound ⊢
      rw [walk_name_link _ _ _ _ _ free hn']
      split_ifs at hfound ⊢ with hlast
      · simp [Except.map, Destination.place, standing, hn']
      · cases links with
        | zero => rfl
        | succ fewer => exact ih fewer rfl (ht.isDir_linkStart hdir target) hfound

/-- What stands at a place changes at the place of the file only, and there from one file to another. -/
theorem Stored.standing_eq (hp : t.lookup p = some e) :
    t'.standing p = .found p (if p = place then .file mode content else e) ∧
      (Destination.found p (if p = place then .file mode content else e)).allowsSlash =
        (Destination.found p e).allowsSlash := by
  by_cases heq : p = place
  · subst heq
    rw [standing_of_some h.lookup_self, if_pos rfl]
    refine ⟨rfl, ?_⟩
    cases e with
    | file m c => rfl
    | directory m => exact absurd ⟨m, hp⟩ h.free
    | link target => exact absurd hp (hplain target)
  · rw [if_neg heq, standing_of_some ((h.lookup_of_ne heq).trans hp)]
    exact ⟨rfl, rfl⟩

/-- What a path finds changes at the place of the file only, unless the path found nothing. -/
theorem Stored.find_eq (ht : t.Rooted) (hcwd : t.IsDir cwd)
    (hfound : t.find cwd path ≠ .error (.refused .notFound)) :
    t'.find cwd path = (t.find cwd path).map fun found =>
      (found.1, if found.1 = place then .file mode content else found.2) := by
  cases hcheck : checkPath path with
  | error f => rw [find_eq_of_checkPath hcheck, find_eq_of_checkPath hcheck]; rfl
  | ok u =>
      have hnil : path ≠ [] := by
        intro hnil
        exact hfound (hnil ▸ find_nil t cwd)
      rw [find_eq_walk hcheck hnil] at hfound
      rw [find_eq_walk hcheck hnil, find_eq_walk hcheck hnil, h.sameDirectories.wholeRule_eq]
      have hwalk : t.walk t.wholeRule true linkLimit (linkStart cwd path) path.steps ≠ .error .notFound :=
        fun hmissing => hfound (by rw [hmissing])
      rw [h.walk_eq hplain ht (ht.isDir_linkStart hcwd path) hwalk]
      cases hend : t.walk t.wholeRule true linkLimit (linkStart cwd path) path.steps with
      | error r => rfl
      | ok d =>
          rw [hend] at hfound
          cases d with
          | vacant p => exact absurd rfl hfound
          | found p e =>
              obtain ⟨hnew, hslash⟩ := h.standing_eq hplain (walk_eq_ok_iff.1 hend).lookup_of_found
              simp only [Except.map, Destination.place, hnew, hslash]
              cases path.endsInSlash && !(Destination.found p e).allowsSlash <;> rfl

/-- A path that leads to a place finds there what stands there now. -/
theorem Stored.find_of_destination (ht : t.Rooted) (hcwd : t.IsDir cwd) (hslash : path.endsInSlash = false)
    (hd : t.destination cwd true path = .ok d) (hplace : d.place = place) :
    t'.find cwd path = .ok (place, .file mode content) := by
  have hd' := destination_frame (h.sameWays hplain) ht hcwd hslash hd
  rwa [hplace, standing_of_some h.lookup_self, ← find_eq_ok_iff] at hd'

end Plain

/-- Two trees that put files in the same place of one tree differ in this file only. -/
theorem Filled.of_filled {u v : FileTree} {m : Mode} {c : Octets} (hu : Filled t u place mode content)
    (hv : Filled t v place m c) : Filled u v place m c := by
  refine ⟨?_, ?_⟩
  · intro e he
    cases hu.lookup_self.symm.trans he
    exact Entry.isFile_file mode content
  · intro p
    by_cases hp : p = place
    · rw [hp, if_pos rfl, hv.lookup_self]
    · rw [if_neg hp, hv.lookup_of_ne hp, hu.lookup_of_ne hp]

/-- A path that finds nothing in a tree with the file found nothing before. -/
theorem Filled.find_notFound (h : Filled t t' place mode content) (ht : t.Rooted) (hcwd : t.IsDir cwd)
    (hfind : t'.find cwd path = .error (.refused .notFound)) : t.find cwd path = .error (.refused .notFound) := by
  by_contra hfound
  have hplain : ∀ target, t.lookup place ≠ some (.link target) :=
    fun target htarget => Entry.not_isFile_link target (h.free _ htarget)
  have hsame := h.stored.find_eq hplain ht hcwd hfound
  rw [hfind] at hsame
  cases hbefore : t.find cwd path with
  | error f =>
      rw [hbefore] at hsame
      exact hfound (hbefore.trans hsame.symm)
  | ok found =>
      rw [hbefore] at hsame
      cases hsame

/-! ## Where no link spells the name of the file -/

theorem not_mem_linkSteps {k : Octets} (h : .name k ∉ target.steps) : .name k ∉ linkSteps target := by
  rw [linkSteps, List.mem_append, not_or]
  refine ⟨h, ?_⟩
  split <;> simp

/-- A walk that does not come by the name of the new file ends as it did, be it at an entry or not. -/
theorem Stored.walk_eq_of_not_mem {q : Place} {k : Octets} (h : Stored t t' (q ++ [k]) mode content) (ht : t.Rooted)
    (hlinks : ∀ p l, t.lookup p = some (.link l) → .name k ∉ l.steps) (hdir : t.IsDir dir) (hsteps : .name k ∉ steps) :
    t'.walk rule follow links dir steps = t.walk rule follow links dir steps := by
  have hlookup : ∀ {dir : Place} {n : Octets} {rest : List Step}, Step.name k ∉ Step.name n :: rest →
      t'.lookup (dir ++ [n]) = t.lookup (dir ++ [n]) := by
    intro dir n rest hnot
    refine h.lookup_of_ne fun heq => hnot ?_
    obtain ⟨-, hn⟩ := List.append_inj' heq rfl
    simp [List.cons_eq_cons.1 hn]
  induction links, dir, steps using walk_induction t rule with
  | nil links dir =>
      obtain ⟨m, hm⟩ := hdir
      rw [walk_nil, walk_nil, hm, (h.sameDirectories dir m).2 hm]
  | refused links dir step rest r hrule => rw [walk_refused _ _ _ _ _ hrule, walk_refused _ _ _ _ _ hrule]
  | here links dir rest free ih =>
      rw [walk_here _ _ _ _ _ free, walk_here _ _ _ _ _ free]
      exact ih hdir (List.not_mem_of_not_mem_cons hsteps)
  | parent links dir rest free ih =>
      rw [walk_parent _ _ _ _ _ free, walk_parent _ _ _ _ _ free]
      exact ih (ht.dropLast _ hdir) (List.not_mem_of_not_mem_cons hsteps)
  | vacant links dir n rest free hn =>
      rw [walk_name_none _ _ _ _ _ free hn, walk_name_none _ _ _ _ _ free ((hlookup hsteps).trans hn)]
  | enter links dir n rest m free hn ih =>
      rw [walk_name_directory _ _ _ _ _ free hn, walk_name_directory _ _ _ _ _ free ((hlookup hsteps).trans hn)]
      exact ih ⟨m, hn⟩ (List.not_mem_of_not_mem_cons hsteps)
  | file links dir n rest m c free hn =>
      rw [walk_name_file _ _ _ _ _ free hn, walk_name_file _ _ _ _ _ free ((hlookup hsteps).trans hn)]
  | link links dir n rest target free hn ih =>
      rw [walk_name_link _ _ _ _ _ free hn, walk_name_link _ _ _ _ _ free ((hlookup hsteps).trans hn)]
      split_ifs
      · rfl
      · cases links with
        | zero => rfl
        | succ fewer =>
            refine ih fewer rfl (ht.isDir_linkStart hdir target) ?_
            rw [List.mem_append, not_or]
            exact ⟨not_mem_linkSteps (hlinks _ _ hn), List.not_mem_of_not_mem_cons hsteps⟩

/-! ## Where a link was replaced -/

/-- If the steps of a link that a file has replaced never lead on, the path of the link leads to the file. -/
theorem Walks.of_replaced_link (h : Stored t t' place mode content) (ht : t.Rooted)
    (hlink : t.lookup place = some (.link target))
    (hstop : ∀ links rest d, rest ≠ [] →
      ¬ Walks t rule false links (linkStart place.dropLast target) (linkSteps target ++ rest) d)
    (hdir : t.IsDir dir) (w : Walks t rule false links dir steps (.found place (.link target))) :
    Walks t' rule true links dir steps (.found place (.file mode content)) := by
  generalize hd : Destination.found place (.link target) = d at w
  induction w with
  | @arrive links dir e hn =>
      cases hd
      obtain ⟨m, hm⟩ := hdir
      cases hlink.symm.trans hm
  | here free w ih => exact .here free (ih hdir hd)
  | parent free w ih => exact .parent free (ih (ht.dropLast _ hdir) hd)
  | enter free hn w ih => exact .enter free ((h.sameDirectories _ _).2 hn) (ih ⟨_, hn⟩ hd)
  | link free hn keep =>
      cases hd
      exact .file free h.lookup_self
  | @jump links dir n rest d target' free hn go w ih =>
      have hrest : rest ≠ [] := fun hnil => go ⟨hnil, rfl⟩
      have hne : dir ++ [n] ≠ place := by
        intro heq
        subst heq
        cases hlink.symm.trans hn
        rw [List.dropLast_concat] at hstop
        exact hstop _ _ _ hrest w
      exact .jump free ((h.lookup_of_ne hne).trans hn) (by simp [hrest]) (ih (ht.isDir_linkStart hdir target') hd)
  | vacant free hn | file free hn => cases hd

end DocSplice.FileTree
