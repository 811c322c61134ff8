import DocSplice.Update.Run
import DocSplice.Proofs.ReadBack

/-!
# What an update reads and writes

A plan is made of the two documents as they are read (`Reads`, `run_plan_eq_ok_iff`), and reading changes nothing
(`run_plan_snd`). An update that succeeds is one replacement of the document by the updated one (`run_eq_ok`).
-/
namespace DocSplice.Update

open Storage

variable {t t' : FileTree} {cwd : Place} {c : Config} {p : Plan} {pid : ℕ}

/-- The two documents of an update, as they are read from a tree. -/
structure Reads (t : FileTree) (cwd : Place) (c : Config) (document examples : Text) : Prop where
  readme : textAt? t cwd c.readme = some document
  examples : textAt? t cwd c.examples = some examples

theorem Reads.unique {document document' examples examples' : Text} (h : Reads t cwd c document examples)
    (h' : Reads t cwd c document' examples') : document' = document ∧ examples' = examples :=
  ⟨Option.some.inj (h'.readme.symm.trans h.readme), Option.some.inj (h'.examples.symm.trans h.examples)⟩

theorem run_readInput_snd (cwd : Place) (t : FileTree) (role : Role) (path : PortablePath) :
    ((readInput role path).run cwd t).2 = t := by
  rw [readInput, Action.run_map, run_readText_snd]

/-- An input is read where a document is read. -/
theorem run_readInput_eq_ok_iff (role : Role) (path : PortablePath) {text : Text} :
    ((readInput role path).run cwd t).1 = .ok text ↔ textAt? t cwd path = some text := by
  rw [readInput, Action.run_map, textAt?]
  cases ((readText path).run cwd t).1 <;> simp [Except.mapError, Except.toOption]

/-- Making a plan changes nothing. -/
theorem run_plan_snd : ((plan c).run cwd t).2 = t := by
  rw [plan, Action.run_bind]
  have hreadme := run_readInput_snd cwd t .readme c.readme
  cases ((readInput .readme c.readme).run cwd t).1 with
  | error f => exact hreadme
  | ok document =>
      simp only [Action.run_bind, hreadme]
      have hexamples := run_readInput_snd cwd t .examples c.examples
      cases ((readInput .examples c.examples).run cwd t).1 with
      | error f => exact hexamples
      | ok examples => simpa using hexamples

/-- A plan puts the examples that are read into the document that is read. -/
theorem run_plan_eq_ok_iff :
    ((plan c).run cwd t).1 = .ok p ↔
      ∃ document examples, Reads t cwd c document examples ∧ p = Plan.make c.policy document examples := by
  have hreads : ∀ document examples, Reads t cwd c document examples ↔
      ((readInput .readme c.readme).run cwd t).1 = .ok document ∧
        ((readInput .examples c.examples).run cwd t).1 = .ok examples := by
    intro document examples
    rw [run_readInput_eq_ok_iff, run_readInput_eq_ok_iff]
    exact ⟨fun h => ⟨h.readme, h.examples⟩, fun h => ⟨h.1, h.2⟩⟩
  simp only [hreads]
  rw [plan, Action.run_bind]
  have hreadme := run_readInput_snd cwd t .readme c.readme
  cases ((readInput .readme c.readme).run cwd t).1 with
  | error f => simp
  | ok document =>
      simp only [Action.run_bind, hreadme]
      cases ((readInput .examples c.examples).run cwd t).1 with
      | error f => simp
      | ok examples => simp [eq_comm]

/-- What a preview gives. -/
theorem run_preview_eq_ok_iff {r : Report} :
    ((preview c).run cwd t).1 = .ok (p, r) ↔
      ((plan c).run cwd t).1 = .ok p ∧ r = Report.ofPlan c p false := by
  rw [preview, Action.run_map]
  cases ((plan c).run cwd t).1 with
  | error f => simp [Except.map]
  | ok q =>
      simp only [Except.map, Except.ok.injEq, Prod.mk.injEq]
      constructor
      · intro h
        rcases h with ⟨rfl, rfl⟩
        exact ⟨rfl, rfl⟩
      · intro h
        rcases h with ⟨rfl, rfl⟩
        exact ⟨rfl, rfl⟩

/-- A preview changes nothing. -/
theorem run_preview_snd : ((preview c).run cwd t).2 = t := by
  rw [preview, Action.run_map, run_plan_snd]

theorem run_warnUnlessMatched : ((warnUnlessMatched c p).run cwd t).2 = t := by
  rw [warnUnlessMatched]
  split <;> rfl

/-- Writing a document is replacing the file by its octets. -/
theorem run_writeText (path : PortablePath) (text : Text) :
    (writeText pid path text).run cwd t = (replace pid path (Utf8.encode text)).run cwd t := by
  rw [writeText]
  simp only [Action.run_bind]
  rcases (replace pid path (Utf8.encode text)).run cwd t with ⟨e | u, v⟩ <;> rfl

/-- An update makes a plan and then replaces the document. -/
theorem run_eq (pid : ℕ) (c : Config) : (run pid c).run cwd t =
    match ((plan c).run cwd t).1 with
    | .error e => (.error e, t)
    | .ok p =>
      match (replace pid c.readme (Utf8.encode p.updated)).run cwd t with
      | (.error e, u) => (.error (.storage e), u)
      | (.ok (), u) => (.ok (Report.ofPlan c p true), u) := by
  rw [run, Action.run_bind, run_plan_snd]
  cases ((plan c).run cwd t).1 with
  | error e => rfl
  | ok p =>
      simp only [Action.run_bind, run_warnUnlessMatched, apply, Action.run_map, run_writeText]
      rcases (replace pid c.readme (Utf8.encode p.updated)).run cwd t with ⟨e | u, v⟩ <;> rfl

/-- What an update does that succeeds. -/
theorem run_eq_ok {r : Report} (h : (run pid c).run cwd t = (.ok r, t')) :
    ∃ document examples, Reads t cwd c document examples ∧
      r = Report.ofPlan c (Plan.make c.policy document examples) true ∧
      (replace pid c.readme (Utf8.encode (Plan.make c.policy document examples).updated)).run cwd t
        = (.ok (), t') := by
  rw [run_eq] at h
  split at h
  · cases congrArg Prod.fst h
  · next p hplan =>
    obtain ⟨document, examples, hreads, rfl⟩ := run_plan_eq_ok_iff.1 hplan
    refine ⟨document, examples, hreads, ?_⟩
    split at h
    · cases congrArg Prod.fst h
    · next u hreplace =>
      cases h
      exact ⟨rfl, hreplace⟩

end DocSplice.Update
