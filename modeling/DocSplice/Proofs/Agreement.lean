import DocSplice.Proofs.Check
import DocSplice.Proofs.Rerouted

/-!
# Updates, previews and checks

An update, a preview and a check work with the same plan. The report of an update that succeeds is that of the preview
but for the file that is written, and says whether the octets of the document have changed (`Update.foreseen`). Behind
the update, whatever is read as the document is what the preview has planned. It is read, and all of them agree, unless
a link that has been left at the place of the temporary file sends the path of the document round in circles once it has
been moved there (`Update.agrees_iff`). A check passes exactly if the text between the markers is the block of the
examples (`check_exit_eq_zero_iff_body?`).
-/
namespace DocSplice

open FileTree Storage

variable {t t' : FileTree} {cwd : Place} {pid : ℕ}

namespace Storage

variable {path : PortablePath} {content before after : Octets}

/-- Whatever is read at the path of a file that has been replaced is the new content. -/
theorem eq_content_of_read (ht : t.WellFormed) (hcwd : t.IsDir cwd)
    (hreplace : (replace pid path content).run cwd t = (.ok (), t')) (hbefore : t.read cwd path.native = .ok before)
    (hafter : t'.read cwd path.native = .ok after) : after = content := by
  obtain ⟨dest, m, hfind, -⟩ := read_eq_ok_iff.1 hbefore
  obtain ⟨q, m', hfind', -⟩ := read_eq_ok_iff.1 hafter
  obtain ⟨u, x, mode, hreplaced⟩ := exists_replaced ht hcwd hfind hreplace
  exact (hreplaced.content_eq ht.rooted hcwd hfind hfind').1 rfl

/-- No link has been left at the place of the temporary file for the file that the path leads to. -/
def NoLinkLeft (t : FileTree) (cwd : Place) (pid : ℕ) (path : PortablePath) : Prop :=
  ∀ place e target, t.find cwd path.native = .ok (place, e) → t.lookup (temporaryPlace pid place) ≠ some (.link target)

/-- A link has been left at the place of the temporary file, and with this link in place of the file that the path
leads to, the path would run into too many links. -/
def Entangled (t : FileTree) (cwd : Place) (pid : ℕ) (path : PortablePath) : Prop :=
  ∃ place e target, t.find cwd path.native = .ok (place, e) ∧
    t.lookup (temporaryPlace pid place) = some (.link target) ∧
    (t.insert place (.link target)).find cwd path.native = .error (.refused .tooManyLinks)

theorem NoLinkLeft.not_entangled (h : NoLinkLeft t cwd pid path) : ¬Entangled t cwd pid path := by
  intro hentangled
  obtain ⟨place, e, target, hfind, hlink, -⟩ := hentangled
  exact h place e target hfind hlink

/-- The new content is read at the path of a file that has been replaced, unless a link has been left that entangles
the path. -/
theorem read_of_replace_iff (ht : t.WellFormed) (hcwd : t.IsDir cwd)
    (hreplace : (replace pid path content).run cwd t = (.ok (), t')) (hbefore : t.read cwd path.native = .ok before) :
    t'.read cwd path.native = .ok content ↔ ¬Entangled t cwd pid path := by
  obtain ⟨dest, m, hfind, hgrants⟩ := read_eq_ok_iff.1 hbefore
  obtain ⟨u, x, mode, hreplaced⟩ := exists_replaced ht hcwd hfind hreplace
  by_cases hleft : ∃ target, t.lookup (temporaryPlace pid dest) = some (.link target)
  · obtain ⟨target, hlink⟩ := hleft
    have hbeside : (temporaryPlace pid dest).dropLast = dest.dropLast := by
      rw [temporaryPlace, List.dropLast_concat]
    rw [hreplaced.read_iff_of_link ht.rooted hcwd hlink hbeside hfind hgrants, ne_eq, not_iff_not]
    constructor
    · intro hput
      exact ⟨dest, _, target, hfind, hlink, hput⟩
    · intro h
      obtain ⟨place, e, target', hfind', hlink', hput⟩ := h
      cases hfind.symm.trans hfind'
      cases hlink.symm.trans hlink'
      exact hput
  · have hplain : NoLinkLeft t cwd pid path := by
      intro place e target hfind' hlink
      cases hfind.symm.trans hfind'
      exact hleft ⟨target, hlink⟩
    refine iff_of_true ?_ hplain.not_entangled
    exact hreplaced.read_dest ht.rooted hcwd (fun target => hplain dest _ target hfind) hfind hgrants

end Storage

namespace Update

variable {c : Config} {r : Report} {plan : Plan}

/-- What a preview foresees of the update on the same tree, be the document readable behind it or not. -/
structure Foreseen (t t' : FileTree) (cwd : Place) (c : Config) (r : Report) (plan : Plan) : Prop where
  preview : (preview c).run cwd t = (.ok (plan, { r with written := false }), t)
  eq_updated : ∀ after, t'.read cwd c.readme.native = .ok after → after = Utf8.encode plan.updated
  changed : ∀ before, t.read cwd c.readme.native = .ok before → (r.changed = true ↔ before ≠ Utf8.encode plan.updated)

/-- An update agrees with the preview on the same tree: their reports are the same but for the file that is written, the
document reads as planned, and the report says whether its octets have changed. -/
structure Agrees (t t' : FileTree) (cwd : Place) (c : Config) (r : Report) (plan : Plan) : Prop where
  preview : (preview c).run cwd t = (.ok (plan, { r with written := false }), t)
  reads : t'.read cwd c.readme.native = .ok (Utf8.encode plan.updated)
  changed : r.changed = true ↔ t'.read cwd c.readme.native ≠ t.read cwd c.readme.native

/-- A plan is out of date exactly if the octets of the document would change. -/
theorem isStale_iff_encode_ne : plan.isStale = true ↔ Utf8.encode plan.document ≠ Utf8.encode plan.updated := by
  rw [Plan.isStale, bne_iff_ne, ne_eq, ne_eq, Utf8.encode_injective.eq_iff]

/-- Every update that succeeds is foreseen, and its plan is what has been put in place of the document. -/
theorem foreseen (ht : t.WellFormed) (hcwd : t.IsDir cwd) (h : (run pid c).run cwd t = (.ok r, t')) :
    ∃ plan before, t.read cwd c.readme.native = .ok before ∧
      (replace pid c.readme (Utf8.encode plan.updated)).run cwd t = (.ok (), t') ∧ Foreseen t t' cwd c r plan := by
  obtain ⟨document, examples, hreads, rfl, hreplace⟩ := run_eq_ok h
  have hplan := run_plan_eq_ok_iff.2 ⟨document, examples, hreads, rfl⟩
  have hbefore := textAt?_eq_some_iff_read.1 hreads.readme
  refine ⟨_, _, hbefore, hreplace, Prod.ext (run_preview_eq_ok_iff.2 ⟨hplan, rfl⟩) run_preview_snd,
    fun _ hafter => eq_content_of_read ht hcwd hreplace hbefore hafter, ?_⟩
  intro before hread
  obtain rfl := Except.ok.inj (hbefore.symm.trans hread)
  exact isStale_iff_encode_ne

/-- An update that succeeds agrees with the preview of it, unless a link has been left that entangles the path of the
document. -/
theorem agrees_iff (ht : t.WellFormed) (hcwd : t.IsDir cwd) (h : (run pid c).run cwd t = (.ok r, t')) :
    (∃ plan, Agrees t t' cwd c r plan) ↔ ¬Entangled t cwd pid c.readme := by
  obtain ⟨plan, before, hbefore, hreplace, hforeseen⟩ := foreseen ht hcwd h
  rw [← read_of_replace_iff ht hcwd hreplace hbefore]
  constructor
  · intro hagrees
    obtain ⟨plan', hagrees⟩ := hagrees
    rw [hagrees.reads, hforeseen.eq_updated _ hagrees.reads]
  · intro hreads
    refine ⟨plan, hforeseen.preview, hreads, ?_⟩
    rw [hforeseen.changed before hbefore, hreads, hbefore, ne_comm, ne_eq, ne_eq, Except.ok.injEq]

end Update

namespace CommandLine

open Update

variable {p : Process} {colour : Bool} {args : List Text} {a : Arguments}

/-- A check under the replacing policy passes exactly if both documents are read, and the text between the markers of
the one is the block of the other. -/
theorem check_exit_eq_zero_iff_body? (ha : Arguments.parse args = .ok a) (hcheck : a.check = true)
    (hpolicy : a.policy = .replacing) : (runOn p colour args t).1.exit = 0 ↔
      ∃ document examples, t.read p.cwd a.config.readme.native = .ok (Utf8.encode document) ∧
        t.read p.cwd a.config.examples.native = .ok (Utf8.encode examples) ∧
        Policy.replacing.body? document = some (Block.render examples) := by
  rw [check_exit_eq_zero_iff ha hcheck, hpolicy]
  simp only [Plan.fresh_iff, ← textAt?_eq_some_iff_read]
  constructor
  · intro h
    rcases h with ⟨-, document, examples, hreads, hbody⟩
    exact ⟨document, examples, hreads.readme, hreads.examples, hbody⟩
  · intro h
    rcases h with ⟨document, examples, hreadme, hexamples, hbody⟩
    exact ⟨rfl, document, examples, ⟨hreadme, hexamples⟩, hbody⟩

/-- **When updates, previews and checks agree.** An update that succeeds is foreseen by the preview, and agrees with it
exactly if no link has been left that entangles the path of the document. A check passes exactly if both documents are
read, and the text between the markers of the one is the block of the other. -/
theorem update_preview_check_agree_iff (ht : t.WellFormed) (hcwd : t.IsDir p.cwd) :
    (∀ c r t', (run p.pid c).run p.cwd t = (.ok r, t') → (∃ plan, Foreseen t t' p.cwd c r plan) ∧
        ((∃ plan, Agrees t t' p.cwd c r plan) ↔ ¬Entangled t p.cwd p.pid c.readme)) ∧
      ∀ args a, Arguments.parse args = .ok a → a.check = true → a.policy = .replacing →
        ((runOn p colour args t).1.exit = 0 ↔
          ∃ document examples, t.read p.cwd a.config.readme.native = .ok (Utf8.encode document) ∧
            t.read p.cwd a.config.examples.native = .ok (Utf8.encode examples) ∧
            Policy.replacing.body? document = some (Block.render examples)) := by
  refine ⟨?_, fun _ _ ha hcheck hpolicy => check_exit_eq_zero_iff_body? ha hcheck hpolicy⟩
  intro c r t' h
  obtain ⟨plan, -, -, -, hforeseen⟩ := foreseen ht hcwd h
  exact ⟨⟨plan, hforeseen⟩, agrees_iff ht hcwd h⟩

/-- Examples that hold no closing. -/
def sampleExamples : Text := "new\n".toList

/-- The report of an update of the sample. -/
def sampleReport : Report :=
  Report.ofPlan sampleArguments.config (Plan.make .replacing sampleDocument sampleExamples) true

/-- An update of the sample agrees with its preview, and the check of the updated sample passes. -/
theorem update_preview_check_agree_sample :
    (∃ t' plan, (run 1 sampleArguments.config).run [] (sampleTree sampleDocument sampleExamples) =
        (.ok sampleReport, t') ∧
      Agrees (sampleTree sampleDocument sampleExamples) t' [] sampleArguments.config sampleReport plan) ∧
    (runOn ⟨2, []⟩ false ["--check".toList]
      (sampleTree (Plan.make .replacing sampleDocument sampleExamples).updated sampleExamples)).1.exit = 0 := by
  refine ⟨?_, ?_⟩
  · have hdir : (sampleTree sampleDocument sampleExamples).IsDir [] := ⟨0o755, by decide +kernel⟩
    have hdone : ((run 1 sampleArguments.config).run [] (sampleTree sampleDocument sampleExamples)).1 =
        .ok sampleReport := by decide +kernel
    obtain ⟨t', hrun⟩ : ∃ t', (run 1 sampleArguments.config).run [] (sampleTree sampleDocument sampleExamples) =
        (.ok sampleReport, t') := by
      generalize (run 1 sampleArguments.config).run [] (sampleTree sampleDocument sampleExamples) = answer at hdone ⊢
      exact ⟨answer.2, Prod.ext hdone rfl⟩
    have hfind : (sampleTree sampleDocument sampleExamples).find [] sampleArguments.config.readme.native
        = .ok ([Utf8.encode Config.standardReadme], .file 0o644 (Utf8.encode sampleDocument)) := by
      decide +kernel
    have hvacant : (sampleTree sampleDocument sampleExamples).lookup
        (temporaryPlace 1 [Utf8.encode Config.standardReadme]) = none := by decide +kernel
    have hleft : NoLinkLeft (sampleTree sampleDocument sampleExamples) [] 1 sampleArguments.config.readme := by
      intro place e target hfind' hlink
      cases hfind.symm.trans hfind'
      cases hvacant.symm.trans hlink
    obtain ⟨hupdates, -⟩ := @update_preview_check_agree_iff _ ⟨1, []⟩ false (wellFormed_sampleTree _ _) hdir
    obtain ⟨-, hagrees⟩ := hupdates _ _ t' hrun
    obtain ⟨plan, hplan⟩ := hagrees.2 hleft.not_entangled
    exact ⟨t', plan, hrun, hplan⟩
  · have hdir : (sampleTree (Plan.make .replacing sampleDocument sampleExamples).updated sampleExamples).IsDir [] :=
      ⟨0o755, by decide +kernel⟩
    have ha : Arguments.parse ["--check".toList] = .ok { sampleArguments with check := true } := by rfl
    obtain ⟨-, hcheck⟩ := @update_preview_check_agree_iff _ ⟨2, []⟩ false (wellFormed_sampleTree _ _) hdir
    refine (hcheck _ _ ha rfl rfl).2 ⟨(Plan.make .replacing sampleDocument sampleExamples).updated, sampleExamples, ?_⟩
    decide +kernel

/-- The sample with a link at the place of the temporary file that leads back to the document. -/
def sampleEntangled : FileTree :=
  (sampleTree sampleDocument sampleExamples).insert (temporaryPlace 1 [Utf8.encode Config.standardReadme])
    (.link (Utf8.encode Config.standardReadme))

theorem wellFormed_sampleEntangled : sampleEntangled.WellFormed := by
  have hname : NativePath.IsName (Utf8.encode Config.standardReadme) := by
    constructor <;> decide
  have hvacant : (sampleTree sampleDocument sampleExamples).lookup
      (temporaryPlace 1 [Utf8.encode Config.standardReadme]) = none := by decide +kernel
  obtain ⟨k, hplace, hk, -⟩ := exists_temporaryPlace_eq 1 [] hname
  rw [List.nil_append] at hplace
  rw [sampleEntangled]
  rw [hplace] at hvacant ⊢
  refine (wellFormed_sampleTree _ _).insert (wellFormed_sampleTree _ _).root hk ?_ _
  intro hdir
  obtain ⟨m, hm⟩ := hdir
  cases hvacant.symm.trans hm

/-- An update of the sample with such a link succeeds. Behind it the document is a link to itself, which cannot be read,
and no plan agrees with this. -/
theorem update_entangled : sampleEntangled.WellFormed ∧ sampleEntangled.IsDir [] ∧
    ∃ t', (run 1 sampleArguments.config).run [] sampleEntangled = (.ok sampleReport, t') ∧
      t'.read [] sampleArguments.config.readme.native = .error (.refused .tooManyLinks) ∧
      ∀ plan, ¬Agrees sampleEntangled t' [] sampleArguments.config sampleReport plan := by
  have hdone : ((run 1 sampleArguments.config).run [] sampleEntangled).1 = .ok sampleReport := by decide +kernel
  have hread : ((run 1 sampleArguments.config).run [] sampleEntangled).2.read []
      sampleArguments.config.readme.native = .error (.refused .tooManyLinks) := by decide +kernel
  refine ⟨wellFormed_sampleEntangled, ⟨0o755, by decide +kernel⟩, ?_⟩
  generalize (run 1 sampleArguments.config).run [] sampleEntangled = answer at hdone hread ⊢
  refine ⟨answer.2, Prod.ext hdone rfl, hread, ?_⟩
  intro plan hagrees
  cases hread.symm.trans hagrees.reads

end CommandLine
end DocSplice
