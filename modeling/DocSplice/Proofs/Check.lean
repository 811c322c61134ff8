import DocSplice.CommandLine.Session
import DocSplice.Proofs.FixedPoint
import DocSplice.Proofs.Update

/-!
# Updates and checks

A check passes exactly if both documents are read, the markers are found, and the update would change nothing
(`check_exit_eq_zero_iff`). A check right after an update reads what the update has left; so it passes unless the
examples hold the head of a closing, which the second update would take for the end of its body, or unless the
temporary file of the update got in the way of one of the two documents (`check_after_update_iff`).
-/
namespace DocSplice.CommandLine

open FileTree Storage Marker Update

variable {t : FileTree} {p p' : Process} {colour colour' : Bool} {args args' : List Text}
  {a a' : Arguments}

/-! ## Commands -/

theorem run_perform (pid : ℕ) (cwd : Place) (colour : Bool) (a : Arguments) :
    (perform pid colour a).run cwd t = (runCommand pid colour a).run cwd t := by
  rw [perform]
  cases a.verbose <;> simp

/-- A run that does what its arguments ask for leaves the tree that this leads to. -/
theorem runOn_snd (ha : Arguments.parse args = .ok a) :
    (runOn p colour args t).2 = ((runCommand p.pid colour a).run p.cwd t).2 := by
  simp only [runOn, ha, run_perform]

/-- The exit code is 0 exactly if the command has ended without an error. -/
theorem exit_eq_zero_iff (ha : Arguments.parse args = .ok a) :
    (runOn p colour args t).1.exit = 0 ↔
      ((runCommand p.pid colour a).run p.cwd t).1.error = none := by
  simp only [runOn, ha, run_perform, Outcome.output]
  cases ((runCommand p.pid colour a).run p.cwd t).1.error <;> simp

theorem runCommand_of_update {pid : ℕ} (h : a.check = false ∧ a.dryRun = false) :
    runCommand (H := Place) pid colour a = runUpdate pid colour a.json a.config := by
  simp [runCommand, h.1, h.2]

/-- An update that ends without an error has run. -/
theorem run_runUpdate_eq_none {pid : ℕ} {cwd : Place} {json : Bool} {c : Config}
    (h : ((runUpdate pid colour json c).run cwd t).1.error = none) :
    ∃ r, (Update.run pid c).run cwd t = (.ok r, ((runUpdate pid colour json c).run cwd t).2) := by
  unfold runUpdate at h ⊢
  simp only [Action.run_bind] at h ⊢
  rcases hrun : (Update.run pid c).run cwd t with ⟨e | r, u⟩
  · simp [hrun, Outcome.failure] at h
  · exact ⟨r, by simp⟩

theorem checkOutcome_error_eq_none_iff {json : Bool} {r : Report} :
    (checkOutcome colour json r).error = none ↔ r.matched = true ∧ r.changed = false := by
  rw [checkOutcome]
  cases r.matched <;> cases r.changed <;> simp [Outcome.success]

/-- How a check ends without an error. -/
theorem run_runCheck_eq_none_iff {cwd : Place} {json : Bool} {c : Config} :
    ((runCheck colour json c).run cwd t).1.error = none ↔ c.policy.isStable = true ∧
      ∃ document examples, Reads t cwd c document examples ∧
        (Plan.make c.policy document examples).matched = true ∧
        (Plan.make c.policy document examples).isStale = false := by
  rw [runCheck]
  cases hstable : c.policy.isStable with
  | false => simp [Outcome.failure]
  | true =>
      simp only [if_true, Action.run_bind, true_and]
      cases hpreview : ((Update.preview c).run cwd t).1 with
      | error e =>
          simp only [Action.pure_eq_done, Action.run_done, Outcome.failure, reduceCtorEq, false_iff]
          intro h
          rcases h with ⟨document, examples, hreads, -, -⟩
          have hplan := run_plan_eq_ok_iff.2 ⟨document, examples, hreads, rfl⟩
          have hok := run_preview_eq_ok_iff.2 ⟨hplan, rfl⟩
          rw [hpreview] at hok
          cases hok
      | ok pr =>
          obtain ⟨plan, r⟩ := pr
          obtain ⟨hplan, rfl⟩ := run_preview_eq_ok_iff.1 hpreview
          obtain ⟨document, examples, hreads, rfl⟩ := run_plan_eq_ok_iff.1 hplan
          simp only [Action.pure_eq_done, Action.run_done, checkOutcome_error_eq_none_iff]
          constructor
          · intro h
            exact ⟨document, examples, hreads, h⟩
          · intro h'
            rcases h' with ⟨document', examples', hreads', h⟩
            obtain ⟨rfl, rfl⟩ := hreads.unique hreads'
            exact h

/-- A check passes exactly if both documents are read, the markers are found and nothing would change. -/
theorem check_exit_eq_zero_iff (ha : Arguments.parse args = .ok a) (hcheck : a.check = true) :
    (runOn p colour args t).1.exit = 0 ↔ a.policy.isStable = true ∧
      ∃ document examples, Reads t p.cwd a.config document examples ∧
        (Plan.make a.policy document examples).matched = true ∧
        (Plan.make a.policy document examples).isStale = false := by
  rw [exit_eq_zero_iff ha, runCommand, if_pos hcheck]
  exact run_runCheck_eq_none_iff

/-- What an update does that exits with 0. -/
theorem update_exit_eq_zero (ha : Arguments.parse args = .ok a)
    (hupdate : a.check = false ∧ a.dryRun = false) (h : (runOn p colour args t).1.exit = 0) :
    ∃ document examples, Reads t p.cwd a.config document examples ∧
      (replace p.pid a.config.readme
          (Utf8.encode (Plan.make a.policy document examples).updated)).run p.cwd t
        = (.ok (), (runOn p colour args t).2) := by
  rw [exit_eq_zero_iff ha, runCommand_of_update hupdate] at h
  obtain ⟨r, hrun⟩ := run_runUpdate_eq_none h
  rw [runOn_snd ha, runCommand_of_update hupdate]
  obtain ⟨document, examples, hreads, -, hreplace⟩ := Update.run_eq_ok hrun
  exact ⟨document, examples, hreads, hreplace⟩

/-! ## A check after an update -/

/-- **When a check passes right after an update.** For any tree, it does exactly if the examples do not hold the
head of a closing and both documents are read again as the update wrote and read them. They are read again unless
the examples stood at the place of the temporary file; only where a link has been left at this place, it takes
more, since the link is then moved onto the document. -/
theorem check_after_update_iff {dest other : Place} {e e' : Entry} {document examples : Text}
    (ht : t.WellFormed) (hcwd : t.IsDir p.cwd) (hp : p'.cwd = p.cwd)
    (ha : Arguments.parse args = .ok a) (hupdate : a.check = false ∧ a.dryRun = false)
    (ha' : Arguments.parse args' = .ok a') (hcheck : a'.check = true) (hsame : a'.config = a.config)
    (hpolicy : a.policy = .replacing)
    (hreadme : t.find p.cwd a.config.readme.native = .ok (dest, e))
    (hexamples : t.find p.cwd a.config.examples.native = .ok (other, e')) (hne : other ≠ dest)
    (hreads : Reads t p.cwd a.config document examples)
    (hmatched : (Plan.make .replacing document examples).matched = true)
    (hexit : (runOn p colour args t).1.exit = 0) :
    ((runOn p' colour' args' (runOn p colour args t).2).1.exit = 0 ↔
      ¬ closingHead <:+: examples ∧
        Reads (runOn p colour args t).2 p.cwd a.config
          (Plan.make .replacing document examples).updated examples) ∧
    ((∀ target, t.lookup (temporaryPlace p.pid dest) ≠ some (.link target)) →
      (Reads (runOn p colour args t).2 p.cwd a.config
          (Plan.make .replacing document examples).updated examples ↔
        other ≠ temporaryPlace p.pid dest)) := by
  obtain ⟨document', examples', hreads', hreplace⟩ := update_exit_eq_zero ha hupdate hexit
  obtain ⟨rfl, rfl⟩ := hreads.unique hreads'
  rw [hpolicy] at hreplace
  obtain ⟨m, c, hfile, -, -⟩ := file_of_textAt? hreadme hreads.readme
  obtain ⟨u, x, mode, hreplaced⟩ := exists_replaced ht hcwd hfile hreplace
  refine ⟨?_, ?_⟩
  · have hpolicy' : a'.policy = .replacing := (congrArg Config.policy hsame).trans hpolicy
    rw [check_exit_eq_zero_iff ha' hcheck, hsame, hp, hpolicy']
    constructor
    · intro h
      rcases h with ⟨-, document₁, examples₁, hreads₁, hmatched₁, hfresh⟩
      have hupdated := (hreplaced.textAt?_eq ht.rooted hcwd hreadme hreads.readme hreads₁.readme).1 rfl
      subst hupdated
      have hkept : examples₁ = examples' := by
        rcases (hreplaced.textAt?_eq ht.rooted hcwd hexamples hreads.examples hreads₁.examples).2 hne with
          hkept | hnew
        · exact hkept
        · -- The examples would be the updated document, which holds a closing.
          have hstale := Plan.isStale_of_closing hmatched₁ (hnew ▸ Plan.closing_infix_updated hmatched)
          exact absurd (hstale.symm.trans hfresh) (by simp)
      subst hkept
      refine ⟨?_, hreads₁⟩
      intro hclosing
      have hstale := (Plan.isStale_updated_iff hmatched).2 hclosing
      exact absurd (hstale.symm.trans hfresh) (by simp)
    · intro h
      rcases h with ⟨hclosing, hreads₁⟩
      refine ⟨rfl, _, _, hreads₁, Plan.matched_updated hmatched _, ?_⟩
      exact Bool.eq_false_iff.2 (mt (Plan.isStale_updated_iff hmatched).1 hclosing)
  · intro hplain
    rw [← hreplaced.textAt?_other ht.rooted hcwd hplain hexamples hreads.examples hne]
    constructor
    · intro h
      exact h.examples
    · intro hother
      exact ⟨hreplaced.textAt?_dest ht.rooted hcwd hplain hreadme hreads.readme, hother⟩

/-! ## A sample -/

/-- A directory with a document and examples under their standard names. -/
def sampleTree (document examples : Text) : FileTree :=
  (FileTree.empty.insert ([] ++ [Utf8.encode Config.standardReadme])
      (.file 0o644 (Utf8.encode document))).insert
    ([] ++ [Utf8.encode Config.standardExamples]) (.file 0o644 (Utf8.encode examples))

/-- A document whose body is no block. -/
def sampleDocument : Text := "<!-- BEGIN EXAMPLES -->\nold\n<!-- END EXAMPLES -->\n".toList

/-- Examples that hold the head of a closing. -/
def sampleClosing : Text := "<!-- END EXAMPLES\n".toList

/-- What a run without arguments works with. -/
def sampleArguments : Arguments :=
  ⟨Config.standardReadme, Config.standardExamples, .replacing, false, false, false, false⟩

theorem wellFormed_sampleTree (document examples : Text) : (sampleTree document examples).WellFormed := by
  have hreadme : NativePath.IsName (Utf8.encode Config.standardReadme) := by
    constructor <;> decide
  have hexamples : NativePath.IsName (Utf8.encode Config.standardExamples) := by
    constructor <;> decide
  have hne : Utf8.encode Config.standardExamples ≠ Utf8.encode Config.standardReadme := by decide
  have hempty : ∀ n, ¬ FileTree.empty.IsDir [n] := by
    intro n h
    rcases h with ⟨mode, hmode⟩
    cases hmode
  refine (wellFormed_empty.insert wellFormed_empty.root hreadme (hempty _) _).insert ?_ hexamples ?_ _
  · exact ⟨0o755, rfl⟩
  · intro h
    rcases h with ⟨mode, hmode⟩
    rw [lookup_insert, if_neg (by simpa using hne)] at hmode
    exact hempty _ ⟨mode, hmode⟩

/-- An update of the sample with a closing in its examples succeeds, and the check after it fails. -/
theorem check_fails_after_update :
    (runOn ⟨1, []⟩ false [] (sampleTree sampleDocument sampleClosing)).1.exit = 0 ∧
      (runOn ⟨2, []⟩ false ["--check".toList]
        (runOn ⟨1, []⟩ false [] (sampleTree sampleDocument sampleClosing)).2).1.exit ≠ 0 := by
  have hexit : (runOn ⟨1, []⟩ false [] (sampleTree sampleDocument sampleClosing)).1.exit = 0 := by
    decide +kernel
  have hdir : (sampleTree sampleDocument sampleClosing).IsDir [] := ⟨0o755, by decide +kernel⟩
  have ha : Arguments.parse [] = .ok sampleArguments := by rfl
  have ha' : Arguments.parse ["--check".toList] = .ok { sampleArguments with check := true } := by rfl
  have hreadme : (sampleTree sampleDocument sampleClosing).find [] sampleArguments.config.readme.native
      = .ok ([Utf8.encode Config.standardReadme], .file 0o644 (Utf8.encode sampleDocument)) := by
    decide +kernel
  have hexamples : (sampleTree sampleDocument sampleClosing).find [] sampleArguments.config.examples.native
      = .ok ([Utf8.encode Config.standardExamples], .file 0o644 (Utf8.encode sampleClosing)) := by
    decide +kernel
  have hne : [Utf8.encode Config.standardExamples] ≠ [Utf8.encode Config.standardReadme] := by decide
  have hreads : Reads (sampleTree sampleDocument sampleClosing) [] sampleArguments.config sampleDocument
      sampleClosing := ⟨by decide +kernel, by decide +kernel⟩
  have hmatched : (Plan.make .replacing sampleDocument sampleClosing).matched = true := by
    decide +kernel
  obtain ⟨hcheck, -⟩ := @check_after_update_iff _ ⟨1, []⟩ ⟨2, []⟩ false false [] ["--check".toList] _ _ _ _ _
    _ _ _ (wellFormed_sampleTree _ _) hdir rfl ha ⟨rfl, rfl⟩ ha' rfl rfl rfl hreadme hexamples hne hreads
    hmatched hexit
  refine ⟨hexit, ?_⟩
  intro hpass
  exact (hcheck.1 hpass).1 ⟨[], ['\n'], by decide⟩

example : (runOn ⟨2, []⟩ false ["--check".toList]
    (runOn ⟨1, []⟩ false [] (sampleTree sampleDocument "new\n".toList)).2).1.exit = 0 := by decide +kernel

end DocSplice.CommandLine
