import DocSplice.Proofs.Walk

/-!
# Walks in a tree that has changed

A walk depends on the directories and the links of a tree only. Trees that agree on these lead every walk to the
same place (`Walks.frame`), whatever files stand in them. If a link is moved onto a file, walks to other files
end where they did, and a walk to this file goes on as the link says (`Walks.of_moved`).
-/
namespace DocSplice

/-- The entry is a file. -/
def Entry.IsFile (e : Entry) : Prop := ∃ mode content, e = .file mode content

theorem Entry.isFile_file (mode : Mode) (content : Octets) : (Entry.file mode content).IsFile :=
  ⟨mode, content, rfl⟩

theorem Entry.not_isFile_directory (mode : Mode) : ¬ (Entry.directory mode).IsFile := by
  intro h'
  rcases h' with ⟨m, c, h⟩
  cases h

theorem Entry.not_isFile_link (target : NativePath) : ¬ (Entry.link target).IsFile := by
  intro h'
  rcases h' with ⟨m, c, h⟩
  cases h

namespace FileTree

open NativePath

variable {t t' : FileTree} {rule : StepRule} {follow : Bool} {links : ℕ} {dir p q : Place}
  {steps : List Step} {d : Destination}

/-! ## Trees with the same directories -/

/-- The two trees have the same directories. -/
def SameDirectories (t t' : FileTree) : Prop :=
  ∀ p mode, t'.lookup p = some (.directory mode) ↔ t.lookup p = some (.directory mode)

/-- The two trees have the same directories and links. -/
def SameWays (t t' : FileTree) : Prop :=
  ∀ p e, ¬ e.IsFile → (t'.lookup p = some e ↔ t.lookup p = some e)

theorem SameWays.refl (t : FileTree) : SameWays t t := fun _ _ _ => Iff.rfl

theorem SameWays.symm (h : SameWays t t') : SameWays t' t := fun p e he => (h p e he).symm

theorem SameWays.trans {u : FileTree} (h : SameWays t u) (h' : SameWays u t') : SameWays t t' :=
  fun p e he => (h' p e he).trans (h p e he)

theorem SameWays.sameDirectories (h : SameWays t t') : SameDirectories t t' :=
  fun p mode => h p _ (Entry.not_isFile_directory mode)

theorem SameWays.link_iff (h : SameWays t t') (p : Place) (target : NativePath) :
    t'.lookup p = some (.link target) ↔ t.lookup p = some (.link target) :=
  h p _ (Entry.not_isFile_link target)

theorem SameDirectories.isDir_iff (h : SameDirectories t t') : t'.IsDir p ↔ t.IsDir p := by
  simp only [IsDir, h p]

theorem SameDirectories.rooted (h : SameDirectories t t') (ht : t.Rooted) : t'.Rooted := by
  refine ⟨h.isDir_iff.2 ht.root, ?_⟩
  intro p hp
  exact h.isDir_iff.2 (ht.dropLast p (h.isDir_iff.1 hp))

/-- Trees with the same directories withhold the same rights. -/
theorem SameDirectories.denies_eq (h : SameDirectories t t') (p : Place) (right : Right) :
    t'.denies p right = t.denies p right := by
  by_cases hp : t.IsDir p
  · obtain ⟨mode, hmode⟩ := hp
    simp [denies, hmode, (h p mode).2 hmode]
  · have hp' : ¬ t'.IsDir p := mt h.isDir_iff.1 hp
    unfold denies
    split
    · next mode hmode => exact absurd ⟨mode, hmode⟩ hp'
    split
    · next mode hmode => exact absurd ⟨mode, hmode⟩ hp
    · rfl

/-- Trees with the same directories refuse the same steps. -/
theorem SameDirectories.wholeRule_eq (h : SameDirectories t t') : t'.wholeRule = t.wholeRule := by
  funext dir step
  simp only [wholeRule, h.denies_eq]

/-- **Files do not steer a walk.** In a tree with the same directories and links it ends at the same place. -/
theorem Walks.frame (h : SameWays t t') (ht : t.Rooted) (hdir : t.IsDir dir)
    (w : Walks t rule follow links dir steps d) :
    Walks t' rule follow links dir steps (t'.standing d.place) := by
  have hplain : ∀ p, (∀ target, t.lookup p ≠ some (.link target)) →
      ∀ target, t'.lookup p = some (.link target) → follow = false := by
    intro p hp target htarget
    exact absurd ((h.link_iff p target).1 htarget) (hp target)
  induction w with
  | arrive hdest =>
      obtain ⟨mode, hmode⟩ := h.sameDirectories.isDir_iff.2 hdir
      exact standing_of_some hmode ▸ .arrive hmode
  | here free w ih => exact .here free (ih hdir)
  | parent free w ih => exact .parent free (ih (ht.dropLast _ hdir))
  | vacant free hn => exact walks_name free (hplain _ (by simp [hn]))
  | enter free hn w ih => exact .enter free ((h.sameDirectories _ _).2 hn) (ih ⟨_, hn⟩)
  | file free hn => exact walks_name free (hplain _ (by simp [hn]))
  | link free hn keep => exact walks_name free fun _ _ => keep
  | jump free hn go w ih =>
      exact .jump free ((h.link_iff _ _).2 hn) go (ih (ht.isDir_linkStart hdir _))

/-! ## A link moved onto a file -/

/-- The second tree is the first one with what stood at one place moved to another. -/
def Moved (t t' : FileTree) (source dest : Place) : Prop :=
  ∀ p, t'.lookup p = if p = dest then t.lookup source else if p = source then none else t.lookup p

/-- A link was moved onto a file. -/
structure LinkMoved (t t' : FileTree) (source dest : Place) (target : NativePath) : Prop where
  moved : Moved t t' source dest
  link : t.lookup source = some (.link target)
  file : ∃ mode content, t.lookup dest = some (.file mode content)

/-- A file moved onto a file leaves the directories and links as they are. -/
theorem Moved.sameWays {source dest : Place} (h : Moved t t' source dest) {e e' : Entry}
    (hsource : t.lookup source = some e) (he : e.IsFile) (hdest : t.lookup dest = some e')
    (he' : e'.IsFile) : SameWays t t' := by
  intro p k hk
  have hne : k ≠ e := fun heq => hk (heq ▸ he)
  have hne' : k ≠ e' := fun heq => hk (heq ▸ he')
  rw [h p]
  by_cases hp : p = dest
  · simp [hp, hsource, hdest, Ne.symm hne, Ne.symm hne']
  by_cases hp' : p = source
  · rw [if_neg hp, if_pos hp', hp', hsource]
    simp [Ne.symm hne]
  · rw [if_neg hp, if_neg hp']

namespace LinkMoved

variable {source dest : Place} {target : NativePath}

theorem lookup (h : LinkMoved t t' source dest target) (p : Place) : t'.lookup p =
    if p = dest then some (.link target) else if p = source then none else t.lookup p := by
  rw [h.moved p, h.link]

theorem lookup_of_ne (h : LinkMoved t t' source dest target) (hdest : p ≠ dest) (hsource : p ≠ source) :
    t'.lookup p = t.lookup p := by
  rw [h.lookup, if_neg hdest, if_neg hsource]

theorem source_ne (h : LinkMoved t t' source dest target) : source ≠ dest := by
  intro heq
  obtain ⟨mode, content, hfile⟩ := h.file
  rw [← heq, h.link] at hfile
  cases hfile

theorem sameDirectories (h : LinkMoved t t' source dest target) : SameDirectories t t' := by
  intro p mode
  obtain ⟨m, c, hfile⟩ := h.file
  by_cases hdest : p = dest
  · simp [h.lookup, hdest, hfile]
  by_cases hsource : p = source
  · simp [hsource, h.lookup, h.link, h.source_ne]
  · rw [h.lookup_of_ne hdest hsource]

end LinkMoved

/-- **Walks to files, after a link was moved onto a file.** If a path leads to a file in both trees, it leads to
the same file, unless it led to the file that the link replaced; then it leads where the link does. -/
theorem Walks.of_moved {source dest x : Place} {target : NativePath}
    (hm : LinkMoved t t' source dest target) (ht : t.Rooted)
    (hx : ∃ links mode content, Walks t rule true links (linkStart dest.dropLast target) (linkSteps target)
      (.found x (.file mode content)))
    (hdir : t.IsDir dir) {q' : Place} {mode mode' : Mode} {content content' : Octets} {links' : ℕ}
    (w' : Walks t' rule true links' dir steps (.found q' (.file mode' content')))
    (w : Walks t rule true links dir steps (.found q (.file mode content))) :
    q ≠ dest ∧ q' = q ∨ q = dest ∧ q' = x ∧ x ≠ dest := by
  generalize hd' : Destination.found q' (.file mode' content') = d' at w'
  induction w' generalizing links q mode content with
  | @arrive links' dir e h =>
      cases hd'
      obtain ⟨m, hmode⟩ := hm.sameDirectories.isDir_iff.2 hdir
      cases h.symm.trans hmode
  | here free w' ih =>
      cases w with
      | here _ w => exact ih hdir w hd'
  | parent free w' ih =>
      cases w with
      | parent _ w => exact ih (ht.dropLast _ hdir) w hd'
  | vacant free h => cases hd'
  | link free h keep => cases hd'
  | enter free h w' ih =>
      have h := (hm.sameDirectories _ _).1 h
      cases w with
      | enter _ _ w => exact ih ⟨_, h⟩ w hd'
      | file _ hfile => cases h.symm.trans hfile
      | jump _ hlink => cases h.symm.trans hlink
  | @file links' dir n m' c' free h =>
      cases hd'
      have hdest : dir ++ [n] ≠ dest := by
        intro heq
        simp [hm.lookup, heq] at h
      have hsource : dir ++ [n] ≠ source := by
        intro heq
        simp [hm.lookup, heq, hm.source_ne] at h
      rw [hm.lookup_of_ne hdest hsource] at h
      cases w with
      | enter _ hmode => cases h.symm.trans hmode
      | file _ hfile => exact .inl ⟨hdest, rfl⟩
      | jump _ hlink => cases h.symm.trans hlink
  | @jump links' dir n rest d' target' free h go w' ih =>
      by_cases hdest : dir ++ [n] = dest
      · -- The walk in the first tree ends here, at the file; this one goes on as the moved link says.
        obtain ⟨m, c, hfile⟩ := hm.file
        obtain rfl : dir = dest.dropLast := by rw [← hdest, List.dropLast_concat]
        obtain rfl : target = target' := by simpa [hm.lookup, hdest] using h
        obtain ⟨xlinks, xmode, xcontent, hx⟩ := hx
        cases w with
        | enter _ hmode => rw [hdest, hfile] at hmode; cases hmode
        | jump _ hlink => rw [hdest, hfile] at hlink; cases hlink
        | file _ _ =>
            rw [List.append_nil] at ih
            rcases ih (ht.isDir_linkStart hdir _) hx hd' with ⟨hne, rfl⟩ | ⟨rfl, -, hne⟩
            · exact .inr ⟨hdest, rfl, hne⟩
            · exact absurd rfl hne
      · have hsource : dir ++ [n] ≠ source := by
          intro heq
          simp [hm.lookup, heq, hm.source_ne] at h
        rw [hm.lookup_of_ne hdest hsource] at h
        cases w with
        | enter _ hmode => cases h.symm.trans hmode
        | file _ hfile => cases h.symm.trans hfile
        | jump _ hlink _ w =>
            cases h.symm.trans hlink
            exact ih (ht.isDir_linkStart hdir _) w hd'

end FileTree
end DocSplice
