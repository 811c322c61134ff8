import DocSplice.Proofs.Arguments
import DocSplice.Proofs.Check
import DocSplice.Proofs.Unobstructed

/-!
# What a run does to the tree

An update writes at most its document, and only if it succeeds (`Update.run_of_unobstructed`); a check and a trial
run write nothing. Hence a run leaves the tree as it was unless its arguments ask for an update that succeeds, and
then the document holds the updated text and everything else is as it was (`runOn_effect`). All this is under the
condition that nothing stands at the place of the temporary file (`Update.Unobstructed`).
-/
namespace DocSplice

open FileTree Storage

variable {t : FileTree} {c : Config}

namespace Update

/-- The second tree is the first one with the document overwritten by the updated text. -/
def Updated (t : FileTree) (cwd : Place) (c : Config) (t' : FileTree) : Prop :=
  ∃ document examples place m old, Reads t cwd c document examples ∧
    t.find cwd c.readme.native = .ok (place, .file m old) ∧
    Overwritten t t' place m (Utf8.encode (Plan.make c.policy document examples).updated)

/-- Nothing stands at the place of the temporary file for the document. -/
def Unobstructed (t : FileTree) (pid : ℕ) (cwd : Place) (c : Config) : Prop :=
  ∀ place e, t.find cwd c.readme.native = .ok (place, e) → t.lookup (temporaryPlace pid place) = none

/-- An update with nothing at the place of its temporary file either fails and changes nothing, or updates the
document and changes nothing else. -/
theorem run_of_unobstructed {pid : ℕ} {cwd : Place} (ht : t.WellFormed) (hcwd : t.IsDir cwd)
    (hfree : Unobstructed t pid cwd c) :
    (∃ e, (run pid c).run cwd t = (.error e, t)) ∨
      ∃ r t', (run pid c).run cwd t = (.ok r, t') ∧ Updated t cwd c t' := by
  rw [run_eq]
  cases hplan : ((plan c).run cwd t).1 with
  | error e => exact .inl ⟨e, rfl⟩
  | ok p =>
      obtain ⟨document, examples, hreads, rfl⟩ := run_plan_eq_ok_iff.1 hplan
      obtain ⟨place, m, old, hfind, -, -⟩ := textAt?_eq_some_iff.1 hreads.readme
      rcases run_replace_of_free ht hcwd hfind (hfree _ _ hfind)
          (Utf8.encode (Plan.make c.policy document examples).updated) with ⟨e, hfail⟩ | ⟨t', hok, hover⟩
      · refine .inl ⟨.storage e, ?_⟩
        simp only [hfail]
      · refine .inr ⟨Report.ofPlan c (Plan.make c.policy document examples) true, t', ?_, ?_⟩
        · simp only [hok]
        · exact ⟨document, examples, place, m, old, hreads, hfind, hover⟩

end Update

namespace CommandLine

open Update

variable {p : Process} {colour : Bool} {args : List Text}

/-- A trial run writes nothing. -/
theorem run_runDryRun_snd {cwd : Place} {json : Bool} : ((runDryRun colour json c).run cwd t).2 = t := by
  rw [runDryRun, Action.run_bind]
  cases ((preview c).run cwd t).1 <;> exact run_preview_snd

/-- A check writes nothing. -/
theorem run_runCheck_snd {cwd : Place} {json : Bool} : ((runCheck colour json c).run cwd t).2 = t := by
  rw [runCheck]
  cases c.policy.isStable with
  | false => rfl
  | true =>
      rw [if_pos rfl, Action.run_bind]
      cases ((preview c).run cwd t).1 <;> exact run_preview_snd

/-- A command that is no update writes nothing. -/
theorem run_runCommand_snd {pid : ℕ} {cwd : Place} {a : Arguments} (h : ¬ (a.check = false ∧ a.dryRun = false)) :
    ((runCommand pid colour a).run cwd t).2 = t := by
  rw [runCommand]
  split_ifs with hcheck hdryRun
  · exact run_runCheck_snd
  · exact run_runDryRun_snd
  · exact absurd ⟨Bool.eq_false_iff.2 hcheck, Bool.eq_false_iff.2 hdryRun⟩ h

/-- An update either fails and writes nothing, or succeeds and writes the document. -/
theorem run_runUpdate_of_unobstructed {pid : ℕ} {cwd : Place} {json : Bool} (ht : t.WellFormed)
    (hcwd : t.IsDir cwd) (hfree : Unobstructed t pid cwd c) :
    (((runUpdate pid colour json c).run cwd t).1.error ≠ none ∧
        ((runUpdate pid colour json c).run cwd t).2 = t) ∨
      (((runUpdate pid colour json c).run cwd t).1.error = none ∧
        Updated t cwd c ((runUpdate pid colour json c).run cwd t).2) := by
  rw [runUpdate, Action.run_bind]
  rcases run_of_unobstructed ht hcwd hfree with ⟨e, hrun⟩ | ⟨r, t', hrun, hupdated⟩
  · refine .inl ⟨?_, ?_⟩ <;> simp [hrun, Outcome.failure]
  · refine .inr ⟨?_, ?_⟩
    · simp [hrun, Outcome.success]
    · simpa [hrun] using hupdated

/-- **What a run does to the tree.** For any tree, any arguments and either way of printing, if nothing stands at
the place of the temporary file, a run leaves the tree as it was unless the arguments are accepted, ask neither for
a check nor for a trial run, and the run exits with 0. In this case it updates the document and nothing else. -/
theorem runOn_effect (p : Process) (colour : Bool) (args : List Text) (ht : t.WellFormed) (hcwd : t.IsDir p.cwd)
    (hfree : ∀ a, Arguments.parse args = .ok a → Unobstructed t p.pid p.cwd a.config) :
    ((¬ ∃ a, Arguments.parse args = .ok a ∧ Switch.check.flag ∉ args ∧ Switch.dryRun.flag ∉ args ∧
        (runOn p colour args t).1.exit = 0) → (runOn p colour args t).2 = t) ∧
    (∀ a, Arguments.parse args = .ok a → Switch.check.flag ∉ args → Switch.dryRun.flag ∉ args →
      (runOn p colour args t).1.exit = 0 → Updated t p.cwd a.config (runOn p colour args t).2) := by
  cases ha : Arguments.parse args with
  | error h => simp [runOn, ha]
  | ok a =>
      rw [exit_eq_zero_iff ha, runOn_snd ha, ← Arguments.check_iff_mem ha, ← Arguments.dryRun_iff_mem ha]
      simp only [Except.ok.injEq]
      by_cases hupdate : a.check = false ∧ a.dryRun = false
      · rw [runCommand_of_update hupdate]
        rcases run_runUpdate_of_unobstructed ht hcwd (hfree a ha) with ⟨hfailed, hsame⟩ | ⟨hdone, hupdated⟩
        · refine ⟨fun _ => hsame, ?_⟩
          intro a' _ _ _ hexit
          exact absurd hexit hfailed
        · refine ⟨?_, ?_⟩
          · intro hnot
            exact absurd ⟨a, rfl, by simp [hupdate.1], by simp [hupdate.2], hdone⟩ hnot
          · intro a' ha' _ _ _
            rw [← ha']
            exact hupdated
      · refine ⟨fun _ => run_runCommand_snd hupdate, ?_⟩
        intro a' _ hcheck hdryRun _
        exact absurd ⟨by simpa using hcheck, by simpa using hdryRun⟩ hupdate

/-- An update of the sample writes the document and nothing else. -/
theorem runOn_effect_sample :
    (runOn ⟨1, []⟩ false [] (sampleTree sampleDocument "new\n".toList)).1.exit = 0 ∧
      Updated (sampleTree sampleDocument "new\n".toList) [] sampleArguments.config
        (runOn ⟨1, []⟩ false [] (sampleTree sampleDocument "new\n".toList)).2 := by
  have hexit : (runOn ⟨1, []⟩ false [] (sampleTree sampleDocument "new\n".toList)).1.exit = 0 := by
    decide +kernel
  have hdir : (sampleTree sampleDocument "new\n".toList).IsDir [] := ⟨0o755, by decide +kernel⟩
  have ha : Arguments.parse [] = .ok sampleArguments := by rfl
  have hreadme : (sampleTree sampleDocument "new\n".toList).find [] sampleArguments.config.readme.native
      = .ok ([Utf8.encode Config.standardReadme], .file 0o644 (Utf8.encode sampleDocument)) := by
    decide +kernel
  have hfree : ∀ a, Arguments.parse [] = .ok a →
      Unobstructed (sampleTree sampleDocument "new\n".toList) 1 [] a.config := by
    intro a ha' place e hfind
    cases ha.symm.trans ha'
    cases hreadme.symm.trans hfind
    decide +kernel
  obtain ⟨-, hupdates⟩ := runOn_effect ⟨1, []⟩ false [] (wellFormed_sampleTree _ _) hdir hfree
  exact ⟨hexit, hupdates _ ha (by simp) (by simp) hexit⟩

end CommandLine
end DocSplice
