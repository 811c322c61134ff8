import DocSplice.Proofs.WalkFrame

/-!
# How walks end

A walk is taken apart by its next step (`walk_induction`). If more links may be followed, only a refusal for too many
of them can change (`walk_links`). Whether the last link is followed makes a difference only where a walk ends at a
link (`walk_follow`), and a walk that ends at no directory ends under the name that is its last step
(`Walks.exists_name`).
-/
namespace DocSplice.FileTree

open NativePath

variable {t : FileTree} {rule : StepRule} {follow : Bool} {links : ℕ} {dir p : Place} {steps rest : List Step}
  {n : Octets} {d : Destination}

/-- Walks are taken apart by their next step: what holds of every walk holds of the walk on, and behind a link of the
walk with one link fewer to follow. -/
theorem walk_induction (t : FileTree) (rule : StepRule) {motive : ℕ → Place → List Step → Prop}
    (nil : ∀ links dir, motive links dir [])
    (refused : ∀ links dir step rest r, rule dir step = some r → motive links dir (step :: rest))
    (here : ∀ links dir rest, rule dir .here = none → motive links dir rest → motive links dir (.here :: rest))
    (parent : ∀ links dir rest, rule dir .parent = none → motive links dir.dropLast rest →
      motive links dir (.parent :: rest))
    (vacant : ∀ links dir n rest, rule dir (.name n) = none → t.lookup (dir ++ [n]) = none →
      motive links dir (.name n :: rest))
    (enter : ∀ links dir n rest mode, rule dir (.name n) = none → t.lookup (dir ++ [n]) = some (.directory mode) →
      motive links (dir ++ [n]) rest → motive links dir (.name n :: rest))
    (file : ∀ links dir n rest mode content, rule dir (.name n) = none →
      t.lookup (dir ++ [n]) = some (.file mode content) → motive links dir (.name n :: rest))
    (link : ∀ links dir n rest target, rule dir (.name n) = none → t.lookup (dir ++ [n]) = some (.link target) →
      (∀ fewer, links = fewer + 1 → motive fewer (linkStart dir target) (linkSteps target ++ rest)) →
      motive links dir (.name n :: rest))
    (links : ℕ) (dir : Place) (steps : List Step) : motive links dir steps := by
  induction links using Nat.strong_induction_on generalizing dir steps with
  | _ links ih =>
      induction steps generalizing dir with
      | nil => exact nil links dir
      | cons step rest ihSteps =>
          cases hrule : rule dir step with
          | some r => exact refused links dir step rest r hrule
          | none =>
              cases step with
              | here => exact here links dir rest hrule (ihSteps dir)
              | parent => exact parent links dir rest hrule (ihSteps dir.dropLast)
              | name n =>
                  cases hn : t.lookup (dir ++ [n]) with
                  | none => exact vacant links dir n rest hrule hn
                  | some e =>
                      cases e with
                      | directory mode => exact enter links dir n rest mode hrule hn (ihSteps (dir ++ [n]))
                      | file mode content => exact file links dir n rest mode content hrule hn
                      | link target =>
                          refine link links dir n rest target hrule hn ?_
                          intro fewer hfewer
                          exact ih fewer (by omega) _ _

/-- A walk that may follow more links ends as it did, unless it was refused for too many of them. -/
theorem walk_links {more : ℕ} (h : links ≤ more) :
    t.walk rule follow links dir steps = .error .tooManyLinks ∨
      t.walk rule follow links dir steps = t.walk rule follow more dir steps := by
  induction links, dir, steps using walk_induction t rule generalizing more with
  | nil links dir => exact .inr (by rw [walk_nil, walk_nil])
  | refused links dir step rest r hrule =>
      exact .inr (by rw [walk_refused _ _ _ _ _ hrule, walk_refused _ _ _ _ _ hrule])
  | here links dir rest free ih => rw [walk_here _ _ _ _ _ free, walk_here _ _ _ _ _ free]; exact ih h
  | parent links dir rest free ih => rw [walk_parent _ _ _ _ _ free, walk_parent _ _ _ _ _ free]; exact ih h
  | vacant links dir n rest free hn =>
      exact .inr (by rw [walk_name_none _ _ _ _ _ free hn, walk_name_none _ _ _ _ _ free hn])
  | enter links dir n rest mode free hn ih =>
      rw [walk_name_directory _ _ _ _ _ free hn, walk_name_directory _ _ _ _ _ free hn]
      exact ih h
  | file links dir n rest mode content free hn =>
      exact .inr (by rw [walk_name_file _ _ _ _ _ free hn, walk_name_file _ _ _ _ _ free hn])
  | link links dir n rest target free hn ih =>
      rw [walk_name_link _ _ _ _ _ free hn, walk_name_link _ _ _ _ _ free hn]
      split_ifs with hlast
      · exact .inr rfl
      · cases links with
        | zero => exact .inl rfl
        | succ fewer =>
            obtain ⟨more, rfl⟩ : ∃ m, more = m + 1 := ⟨more - 1, by omega⟩
            exact ih fewer rfl (by omega)

/-- Two walks of the same steps that are both not refused for too many links end alike. -/
theorem walk_eq_of_links {more : ℕ} (h : t.walk rule follow links dir steps ≠ .error .tooManyLinks)
    (h' : t.walk rule follow more dir steps ≠ .error .tooManyLinks) :
    t.walk rule follow links dir steps = t.walk rule follow more dir steps := by
  rcases Nat.le_total links more with hle | hle
  · exact (walk_links hle).resolve_left h
  · exact ((walk_links hle).resolve_left h').symm

/-- A walk that follows the last link too ends as the one that does not, unless this one ends at a link; then it goes
on as the link says. -/
theorem walk_follow (t : FileTree) (rule : StepRule) (links : ℕ) (dir : Place) (steps : List Step) :
    t.walk rule true links dir steps = t.walk rule false links dir steps ∨
      ∃ p target, Walks t rule false links dir steps (.found p (.link target)) ∧
        (t.walk rule true links dir steps = .error .tooManyLinks ∨ ∃ fewer, t.walk rule true links dir steps =
          t.walk rule true fewer (linkStart p.dropLast target) (linkSteps target)) := by
  induction links, dir, steps using walk_induction t rule with
  | nil links dir => exact .inl (by rw [walk_nil, walk_nil])
  | refused links dir step rest r hrule =>
      exact .inl (by rw [walk_refused _ _ _ _ _ hrule, walk_refused _ _ _ _ _ hrule])
  | here links dir rest free ih =>
      rw [walk_here _ _ _ _ _ free, walk_here _ _ _ _ _ free]
      refine ih.imp_right ?_
      intro h
      rcases h with ⟨p, target, w, hend⟩
      exact ⟨p, target, .here free w, hend⟩
  | parent links dir rest free ih =>
      rw [walk_parent _ _ _ _ _ free, walk_parent _ _ _ _ _ free]
      refine ih.imp_right ?_
      intro h
      rcases h with ⟨p, target, w, hend⟩
      exact ⟨p, target, .parent free w, hend⟩
  | vacant links dir n rest free hn =>
      exact .inl (by rw [walk_name_none _ _ _ _ _ free hn, walk_name_none _ _ _ _ _ free hn])
  | enter links dir n rest mode free hn ih =>
      rw [walk_name_directory _ _ _ _ _ free hn, walk_name_directory _ _ _ _ _ free hn]
      refine ih.imp_right ?_
      intro h
      rcases h with ⟨p, target, w, hend⟩
      exact ⟨p, target, .enter free hn w, hend⟩
  | file links dir n rest mode content free hn =>
      exact .inl (by rw [walk_name_file _ _ _ _ _ free hn, walk_name_file _ _ _ _ _ free hn])
  | link links dir n rest target free hn ih =>
      by_cases hrest : rest = []
      · subst hrest
        refine .inr ⟨dir ++ [n], target, .link free hn rfl, ?_⟩
        rw [walk_name_link _ _ _ _ _ free hn, List.dropLast_concat]
        cases links with
        | zero => exact .inl (by simp)
        | succ fewer => exact .inr ⟨fewer, by simp⟩
      · rw [walk_name_link _ _ _ _ _ free hn, walk_name_link _ _ _ _ _ free hn]
        cases links with
        | zero => exact .inl (by simp [hrest])
        | succ fewer =>
            simp only [hrest, false_and, if_false]
            refine (ih fewer rfl).imp_right ?_
            intro h
            rcases h with ⟨p, target', w, hend⟩
            exact ⟨p, target', .jump free hn (by simp [hrest]) w, hend⟩

/-- A walk that follows every link ends at none. -/
theorem Walks.ne_link (w : Walks t rule true links dir steps d) (ht : t.Rooted) (hdir : t.IsDir dir)
    (target : NativePath) : d ≠ .found p (.link target) := by
  induction w with
  | @arrive links dir e h =>
      obtain ⟨mode, hmode⟩ := hdir
      cases h.symm.trans hmode
      simp
  | here free w ih => exact ih hdir
  | parent free w ih => exact ih (ht.dropLast _ hdir)
  | vacant free h => simp
  | enter free h w ih => exact ih ⟨_, h⟩
  | file free h => simp
  | link free h keep => cases keep
  | jump free h go w ih => exact ih (ht.isDir_linkStart hdir _)

/-- A walk that ends at no directory ends under the name that is its last step. -/
theorem Walks.exists_name (w : Walks t rule false links dir steps d) (ht : t.Rooted) (hdir : t.IsDir dir)
    (hplain : ∀ p mode, d ≠ .found p (.directory mode)) :
    ∃ n, steps.getLast? = some (.name n) ∧ d.place.getLast? = some n := by
  have hcons : ∀ (s : Step) {l : List Step} {n : Octets}, l.getLast? = some (.name n) →
      (s :: l).getLast? = some (.name n) := by
    intro s l n h
    rw [List.getLast?_cons, h]
    rfl
  have hnamed : ∀ (dir : Place) (n : Octets), ∃ m, [Step.name n].getLast? = some (.name m) ∧
      (dir ++ [n]).getLast? = some m := fun dir n => ⟨n, rfl, List.getLast?_concat⟩
  induction w with
  | @arrive links dir e h =>
      obtain ⟨mode, hmode⟩ := hdir
      cases h.symm.trans hmode
      exact absurd rfl (hplain dir mode)
  | here free w ih =>
      obtain ⟨n, hlast, hplace⟩ := ih hdir hplain
      exact ⟨n, hcons _ hlast, hplace⟩
  | parent free w ih =>
      obtain ⟨n, hlast, hplace⟩ := ih (ht.dropLast _ hdir) hplain
      exact ⟨n, hcons _ hlast, hplace⟩
  | vacant free h => exact hnamed _ _
  | enter free h w ih =>
      obtain ⟨n, hlast, hplace⟩ := ih ⟨_, h⟩ hplain
      exact ⟨n, hcons _ hlast, hplace⟩
  | file free h => exact hnamed _ _
  | link free h keep => exact hnamed _ _
  | @jump links dir n rest d target free h go w ih =>
      have hrest : rest ≠ [] := fun hnil => go ⟨hnil, rfl⟩
      obtain ⟨m, hlast, hplace⟩ := ih (ht.isDir_linkStart hdir target) hplain
      rw [List.getLast?_append_of_ne_nil _ hrest] at hlast
      exact ⟨m, hcons _ hlast, hplace⟩

/-- Steps that lead on lead to a directory on the way. There every walk of the same steps goes on, be it in another
tree with the same directories and links. -/
theorem Walks.exists_split {a : List Step} (w : Walks t rule follow links dir (a ++ rest) d) (ht : t.Rooted)
    (hdir : t.IsDir dir) (hrest : rest ≠ []) :
    ∃ left q, t.IsDir q ∧ Walks t rule follow left q rest d ∧
      ∀ u, SameWays t u → ∀ follow' rest', (rest' = [] → follow' = true) →
        u.walk rule follow' links dir (a ++ rest') = u.walk rule follow' left q rest' := by
  generalize hsteps : a ++ rest = steps at w
  induction w generalizing a with
  | arrive h => exact absurd (List.append_eq_nil_iff.1 hsteps).2 hrest
  | here free w ih =>
      rcases List.append_eq_cons_iff.1 hsteps with ⟨rfl, rfl⟩ | ⟨a, rfl, rfl⟩
      · exact ⟨_, _, hdir, .here free w, fun _ _ _ _ _ => rfl⟩
      · obtain ⟨left, q, hq, w', hon⟩ := ih hdir rfl
        refine ⟨left, q, hq, w', ?_⟩
        intro u hu follow' rest' hlast
        rw [List.cons_append, walk_here _ _ _ _ _ free, hon u hu follow' rest' hlast]
  | parent free w ih =>
      rcases List.append_eq_cons_iff.1 hsteps with ⟨rfl, rfl⟩ | ⟨a, rfl, rfl⟩
      · exact ⟨_, _, hdir, .parent free w, fun _ _ _ _ _ => rfl⟩
      · obtain ⟨left, q, hq, w', hon⟩ := ih (ht.dropLast _ hdir) rfl
        refine ⟨left, q, hq, w', ?_⟩
        intro u hu follow' rest' hlast
        rw [List.cons_append, walk_parent _ _ _ _ _ free, hon u hu follow' rest' hlast]
  | enter free h w ih =>
      rcases List.append_eq_cons_iff.1 hsteps with ⟨rfl, rfl⟩ | ⟨a, rfl, rfl⟩
      · exact ⟨_, _, hdir, .enter free h w, fun _ _ _ _ _ => rfl⟩
      · obtain ⟨left, q, hq, w', hon⟩ := ih ⟨_, h⟩ rfl
        refine ⟨left, q, hq, w', ?_⟩
        intro u hu follow' rest' hlast
        rw [List.cons_append, walk_name_directory _ _ _ _ _ free ((hu.sameDirectories _ _).2 h),
          hon u hu follow' rest' hlast]
  | @jump links dir n rest₀ d target free h go w ih =>
      rcases List.append_eq_cons_iff.1 hsteps with ⟨rfl, rfl⟩ | ⟨a, rfl, rfl⟩
      · exact ⟨_, _, hdir, .jump free h go w, fun _ _ _ _ _ => rfl⟩
      · obtain ⟨left, q, hq, w', hon⟩ := ih (ht.isDir_linkStart hdir target) (List.append_assoc _ _ _)
        refine ⟨left, q, hq, w', ?_⟩
        intro u hu follow' rest' hlast
        have hgo : ¬ (a ++ rest' = [] ∧ follow' = false) := by
          intro hend
          rw [hlast (List.append_eq_nil_iff.1 hend.1).2] at hend
          cases hend.2
        rw [List.cons_append, walk_name_link _ _ _ _ _ free ((hu.link_iff _ _).2 h), if_neg hgo, ← List.append_assoc]
        exact hon u hu follow' rest' hlast
  | vacant free h =>
      rcases List.append_eq_cons_iff.1 hsteps with ⟨rfl, rfl⟩ | ⟨a, rfl, hnil⟩
      · exact ⟨_, _, hdir, .vacant free h, fun _ _ _ _ _ => rfl⟩
      · exact absurd (List.append_eq_nil_iff.1 hnil.symm).2 hrest
  | file free h =>
      rcases List.append_eq_cons_iff.1 hsteps with ⟨rfl, rfl⟩ | ⟨a, rfl, hnil⟩
      · exact ⟨_, _, hdir, .file free h, fun _ _ _ _ _ => rfl⟩
      · exact absurd (List.append_eq_nil_iff.1 hnil.symm).2 hrest
  | link free h keep =>
      rcases List.append_eq_cons_iff.1 hsteps with ⟨rfl, rfl⟩ | ⟨a, rfl, hnil⟩
      · exact ⟨_, _, hdir, .link free h keep, fun _ _ _ _ _ => rfl⟩
      · exact absurd (List.append_eq_nil_iff.1 hnil.symm).2 hrest

/-- Steps that lead on lead to a directory. -/
theorem Walks.exists_directory {a : List Step} (w : Walks t rule follow links dir (a ++ rest) d) (ht : t.Rooted)
    (hdir : t.IsDir dir) (hrest : rest ≠ []) :
    ∃ p mode, Walks t rule true links dir a (.found p (.directory mode)) := by
  obtain ⟨left, q, ⟨mode, hmode⟩, -, hon⟩ := w.exists_split ht hdir hrest
  refine ⟨q, mode, walk_eq_ok_iff.1 ?_⟩
  have hwalk := hon t (.refl t) true [] (fun _ => rfl)
  rw [List.append_nil] at hwalk
  rw [hwalk, walk_nil, hmode]

theorem wholeRule_name (free : t.singleRule dir (.name n) = none) : t.wholeRule dir (.name n) = none := by
  rw [singleRule] at free
  split_ifs at free
  exact free

/-- A step to nowhere or to the parent is refused only from a directory that may not be searched. -/
theorem wholeRule_of_ne_name (t : FileTree) (dir : Place) (step : Step) (hstep : ∀ n, step ≠ .name n) :
    t.wholeRule dir step = none ∨ t.wholeRule dir step = some .accessDenied := by
  cases step with
  | name n => exact absurd rfl (hstep n)
  | here | parent =>
      simp only [wholeRule]
      split
      · exact .inr rfl
      · exact .inl rfl

/-- A walk whose names are asked for one by one goes where the whole walk does, unless this one is refused at a
directory that may not be searched. -/
theorem Walks.whole (w : Walks t t.singleRule follow links dir steps d) :
    t.walk t.wholeRule follow links dir steps = .ok d ∨
      t.walk t.wholeRule follow links dir steps = .error .accessDenied := by
  induction w with
  | arrive h => exact .inl (walk_eq_ok_iff.2 (.arrive h))
  | @here links dir rest d free w ih =>
      rcases wholeRule_of_ne_name t dir .here (by simp) with hfree | hdenied
      · rwa [walk_here _ _ _ _ _ hfree]
      · exact .inr (walk_refused _ _ _ _ _ hdenied)
  | @parent links dir rest d free w ih =>
      rcases wholeRule_of_ne_name t dir .parent (by simp) with hfree | hdenied
      · rwa [walk_parent _ _ _ _ _ hfree]
      · exact .inr (walk_refused _ _ _ _ _ hdenied)
  | vacant free h => exact .inl (walk_eq_ok_iff.2 (.vacant (wholeRule_name free) h))
  | enter free h w ih => rwa [walk_name_directory _ _ _ _ _ (wholeRule_name free) h]
  | file free h => exact .inl (walk_eq_ok_iff.2 (.file (wholeRule_name free) h))
  | link free h keep => exact .inl (walk_eq_ok_iff.2 (.link (wholeRule_name free) h keep))
  | jump free h go w ih =>
      rw [walk_name_link _ _ _ _ _ (wholeRule_name free) h, if_neg go]
      exact ih

end DocSplice.FileTree
