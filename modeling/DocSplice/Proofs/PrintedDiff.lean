import DocSplice.Proofs.Arguments
import DocSplice.Proofs.Check
import DocSplice.Proofs.Rows
import DocSplice.Proofs.WrittenLines

/-!
# What a trial run prints

A trial run prints the difference line by line, and ends each line by a line feed (`relined`). A text that is printed
in this way comes out as it is exactly if it ends its last line and holds no carriage return in front of a line feed
(`relined_eq_iff`). So without colours a trial run prints the difference itself, but for such carriage returns and for
a last line that a lone carriage return ends (`dryRun_prints_diff_iff`).
-/
namespace DocSplice

namespace Text

/-! ## Lines that are ended anew -/

/-- The terminator that a text takes apart into lines as if it were a line feed. -/
def returnFeed : Text := ['\r', '\n']

/-- The lines of a text, each ended by a line feed. -/
def relined (t : Text) : Text := t.lines.flatMap (· ++ ['\n'])

/-- A line feed stands nowhere behind a carriage return. -/
theorem not_returnFeed_infix_iff {t : Text} :
    ¬ returnFeed <:+: t ↔ t.IsChain fun a b => ¬ (a = '\r' ∧ b = '\n') := by
  rw [List.isChain_iff_forall_rel_of_append_cons_cons]
  constructor
  · intro h a b u v ht hpair
    rcases hpair with ⟨rfl, rfl⟩
    exact h ⟨u, v, by simp [ht, returnFeed]⟩
  · intro h hheld
    rcases hheld with ⟨u, v, ht⟩
    have ht : t = u ++ '\r' :: '\n' :: v := by simp [← ht, returnFeed]
    exact h ht ⟨rfl, rfl⟩

theorem not_returnFeed_infix_of_notMem {t : Text} (h : '\n' ∉ t) : ¬ returnFeed <:+: t :=
  fun hheld => h (hheld.subset (by decide))

theorem returnFeed_infix_append_iff {s : Text} (hs : '\r' ∉ s) (t : Text) :
    returnFeed <:+: s ++ t ↔ returnFeed <:+: t := infix_append_left_iff rfl hs

theorem returnFeed_infix_cons_iff {c : Char} (hc : c ≠ '\r') (t : Text) :
    returnFeed <:+: c :: t ↔ returnFeed <:+: t :=
  returnFeed_infix_append_iff (s := [c]) (by simpa using hc.symm) t

theorem not_returnFeed_infix_append {s t : Text} :
    ¬ returnFeed <:+: s ++ t ↔ ¬ returnFeed <:+: s ∧ ¬ returnFeed <:+: t ∧
      (s.getLast? = some '\r' → t.head? ≠ some '\n') := by
  simp only [not_returnFeed_infix_iff, List.isChain_append]
  refine and_congr_right fun _ => and_congr_right fun _ => ?_
  constructor
  · intro h hs ht
    exact h '\r' hs '\n' ht ⟨rfl, rfl⟩
  · intro h x hx y hy hpair
    rcases hpair with ⟨rfl, rfl⟩
    exact h hx hy

theorem endsLine_append_cons_iff (l : Text) {t : Text} : EndsLine (l ++ '\n' :: t) ↔ EndsLine t := by
  constructor
  · intro h
    exact EndsLine.of_append (s := l ++ ['\n']) (by simpa using h)
  · exact endsLine_append_cons l

theorem endsLine_iff_getLast? {t : Text} (ht : t ≠ []) : EndsLine t ↔ t.getLast? = some '\n' := by
  rw [EndsLine, or_iff_right ht, List.getLast?_eq_some_iff]

/-- A text comes out as it is exactly if it ends its last line and no carriage return stands in front of a line feed. -/
theorem relined_eq_iff (t : Text) : relined t = t ↔ EndsLine t ∧ ¬ returnFeed <:+: t := by
  induction t using line_induction with
  | nil => exact iff_of_true rfl ⟨endsLine_nil, by decide⟩
  | rest l hl hmem =>
      refine iff_of_false ?_ ?_
      · rw [relined, lines_of_not_mem hl hmem]
        simp
      · intro h
        rcases h.1 with rfl | ⟨u, rfl⟩
        · exact hl rfl
        · simp at hmem
  | line l t hmem ih =>
      have hrelined : relined (l ++ '\n' :: t) = chomp (l ++ ['\n']) ++ '\n' :: relined t := by
        simp [relined, lines_append_cons hmem]
      have hheld : ¬ returnFeed <:+: l ++ '\n' :: t ↔ l.getLast? ≠ some '\r' ∧ ¬ returnFeed <:+: t := by
        rw [not_returnFeed_infix_append, returnFeed_infix_cons_iff (by decide)]
        simp [not_returnFeed_infix_of_notMem hmem, and_comm]
      rw [hrelined, endsLine_append_cons_iff, hheld, chomp_append]
      split
      · next hreturn =>
        obtain ⟨u, rfl⟩ := List.getLast?_eq_some_iff.1 hreturn
        simp
      · next hreturn => simp [hreturn, ih]

theorem Unbroken.not_returnFeed_infix_concat {front : Text} (h : Unbroken front) :
    ¬ returnFeed <:+: front ++ ['\n'] := by
  have hreturn : '\r' ∉ front := fun hmem => h _ hmem (.inr rfl)
  rw [returnFeed_infix_append_iff hreturn]
  exact fun hheld => absurd hheld.length_le (by decide)

end Text

namespace Diff

open Text

variable {lines : List WrittenLine}

/-! ## Carriage returns in a unified diff -/

theorem head?_textOf_ne (h : ∀ w ∈ lines, w.text.head? ≠ some '\n') : (textOf lines).head? ≠ some '\n' := by
  induction lines with
  | nil => simp
  | cons w lines ih =>
      obtain ⟨hw, hlines⟩ := List.forall_mem_cons.1 h
      rw [textOf_cons, List.head?_append]
      cases hhead : w.text.head? with
      | none => simpa using ih hlines
      | some c => simpa [hhead] using hw

/-- Where no line begins with a line feed, a carriage return stands in front of a line feed only inside of a line. -/
theorem not_returnFeed_infix_textOf (h : ∀ w ∈ lines, w.text.head? ≠ some '\n') :
    ¬ returnFeed <:+: textOf lines ↔ ∀ w ∈ lines, ¬ returnFeed <:+: w.text := by
  induction lines with
  | nil => exact iff_of_true (by decide) (by simp)
  | cons w lines ih =>
      obtain ⟨hw, hlines⟩ := List.forall_mem_cons.1 h
      rw [textOf_cons, not_returnFeed_infix_append, ih hlines, List.forall_mem_cons]
      simp [head?_textOf_ne hlines]

/-- What is written for a line of a text is free of it exactly if the line is. -/
theorem HunkLine.not_returnFeed_infix_written {t : Text} {l : HunkLine} (hl : l.text ∈ t.terminatedLines) :
    (∀ w ∈ l.written, ¬ returnFeed <:+: w.text) ↔ ¬ returnFeed <:+: l.text := by
  have hsign : l.mark.sign ≠ '\r' := fun h => l.mark.not_isBreak_sign (.inr h)
  rw [HunkLine.written]
  cases hterminated : isTerminated l.text with
  | true => simp [returnFeed_infix_cons_iff hsign]
  | false =>
      have hunbroken : Unbroken l.text := unbroken_of_not_isTerminated hl hterminated
      have hsigned : Unbroken (l.mark.sign :: l.text) := unbroken_cons.2 ⟨l.mark.not_isBreak_sign, hunbroken⟩
      have hfeed : '\n' ∉ l.text := fun hmem => hunbroken _ hmem (.inl rfl)
      refine iff_of_true ?_ (not_returnFeed_infix_of_notMem hfeed)
      simp only [Bool.false_eq_true, if_false, List.forall_mem_cons]
      exact ⟨hsigned.not_returnFeed_infix_concat, by decide, by simp⟩

theorem head?_ne_of_isLine {t : Text} (h : IsLine t) : t.head? ≠ some '\n' := by
  obtain ⟨front, e, rfl, hne, hfront, -⟩ := h
  obtain ⟨c, r, rfl⟩ := List.exists_cons_of_ne_nil hne
  intro hhead
  exact (unbroken_cons.1 hfront).1 (.inl (by simpa using hhead))

theorem not_returnFeed_infix_fileLines (path : Text) :
    (∀ w ∈ fileLines path, ¬ returnFeed <:+: w.text) ↔ ¬ returnFeed <:+: path ++ ['\n'] := by
  have hnamed : ∀ s : Text, '\r' ∉ s → (¬ returnFeed <:+: s ++ path ++ ['\n'] ↔ ¬ returnFeed <:+: path ++ ['\n']) := by
    intro s hs
    rw [List.append_assoc, returnFeed_infix_append_iff hs]
  rw [fileLines, List.forall_mem_cons, List.forall_mem_singleton, hnamed _ (by decide), hnamed _ (by decide), and_self]

variable {old new : Text}

/-- The lines behind the names of the files are free of it exactly if the lines that the hunks show are. -/
theorem not_returnFeed_infix_writtenLines :
    (∀ w ∈ writtenLines old new, ¬ returnFeed <:+: w.text) ↔
      ∀ h ∈ hunks old.terminatedLines new.terminatedLines, ∀ l ∈ h.body old.terminatedLines new.terminatedLines,
        ¬ returnFeed <:+: l.text := by
  rw [writtenLines, List.forall_mem_flatMap]
  refine forall₂_congr fun h hh => ?_
  obtain ⟨front, hheader, hfront⟩ := exists_header ((patches_hunks _ _).2 h hh)
  have hplace : ¬ returnFeed <:+: h.header := by
    rw [hheader]
    exact Unbroken.not_returnFeed_infix_concat (by simpa [IsBreak] using hfront)
  rw [Hunk.written, List.forall_mem_cons, List.forall_mem_flatMap, and_iff_right hplace]
  refine forall₂_congr fun l hl => ?_
  rcases mem_or_mem_of_mem_body hl with hmem | hmem
  · exact HunkLine.not_returnFeed_infix_written hmem
  · exact HunkLine.not_returnFeed_infix_written hmem

/-! ## The end of a unified diff -/

/-- What is written for a line of a hunk ends a line, unless a lone carriage return ends it. -/
theorem HunkLine.endsLine_written (l : HunkLine) (s : Text) :
    EndsLine (s ++ textOf l.written) ↔ l.text.getLast? ≠ some '\r' := by
  rw [HunkLine.textOf_written, HunkLine.render]
  cases hterminated : isTerminated l.text with
  | true =>
      rw [if_pos rfl, List.append_nil, endsLine_iff_getLast? (by simp), List.getLast?_append_cons, List.getLast?_cons]
      rw [isTerminated, Bool.or_eq_true, decide_eq_true_iff, decide_eq_true_iff] at hterminated
      rcases hterminated with hlast | hlast <;> simp [hlast]
  | false =>
      obtain ⟨hint, hhint⟩ : ∃ hint, "\n\\ No newline at end of file\n".toList = hint ++ ['\n'] :=
        ⟨"\n\\ No newline at end of file".toList, by decide⟩
      rw [isTerminated, Bool.or_eq_false_iff, decide_eq_false_iff_not, decide_eq_false_iff_not] at hterminated
      refine iff_of_true (.inr ⟨s ++ (l.mark.sign :: l.text ++ hint), ?_⟩) hterminated.2
      rw [if_neg (by simp), hhint]
      simp only [List.append_assoc]

/-- A unified diff ends its last line, unless a lone carriage return ends the last line that it shows. -/
theorem endsLine_unified_iff (path : Text) (hne : old ≠ new) :
    EndsLine (unified old new path) ↔ ∀ h ∈ (hunks old.terminatedLines new.terminatedLines).getLast?,
      ∀ l ∈ (h.body old.terminatedLines new.terminatedLines).getLast?, l.text.getLast? ≠ some '\r' := by
  obtain ⟨-, hfound⟩ := unified_eq path hne
  obtain ⟨front, h, hlast⟩ := (List.eq_nil_or_concat' _).resolve_left hfound
  have hbody := (patches_hunks _ _).2 h (hlast ▸ List.mem_concat_self)
  obtain ⟨shown, l, hshown⟩ := (List.eq_nil_or_concat' _).resolve_left hbody
  have hunified : ∃ s, unified old new path = s ++ textOf l.written := by
    rw [unified_eq_written path hne, writtenLines, hlast]
    simp only [List.flatMap_append, List.flatMap_singleton, Hunk.written, hshown, textOf_append, textOf_cons,
      ← List.append_assoc]
    exact ⟨_, rfl⟩
  obtain ⟨s, hs⟩ := hunified
  simp only [hs, HunkLine.endsLine_written, hlast, hshown, List.getLast?_concat, Option.mem_def, Option.some.injEq,
    forall_eq']

/-- **Where a unified diff comes out as it is.** -/
theorem relined_unified_eq_iff (path : Text) (hne : old ≠ new) :
    relined (unified old new path) = unified old new path ↔
      ¬ returnFeed <:+: path ++ ['\n'] ∧
      (∀ h ∈ hunks old.terminatedLines new.terminatedLines, ∀ l ∈ h.body old.terminatedLines new.terminatedLines,
        ¬ returnFeed <:+: l.text) ∧
      ∀ h ∈ (hunks old.terminatedLines new.terminatedLines).getLast?,
        ∀ l ∈ (h.body old.terminatedLines new.terminatedLines).getLast?, l.text.getLast? ≠ some '\r' := by
  have hhead : ∀ w ∈ fileLines path ++ writtenLines old new, w.text.head? ≠ some '\n' := by
    intro w hw
    rcases List.mem_append.1 hw with hw | hw
    · rw [fileLines, List.mem_cons, List.mem_singleton] at hw
      rcases hw with rfl | rfl <;> simp
    · exact head?_ne_of_isLine (isLine_of_mem_writtenLines hw)
  rw [relined_eq_iff, endsLine_unified_iff path hne, unified_eq_written path hne, not_returnFeed_infix_textOf hhead,
    List.forall_mem_append, not_returnFeed_infix_fileLines, not_returnFeed_infix_writtenLines, and_comm, and_assoc]

theorem return_notMem_body {h : Hunk} (hold : '\r' ∉ old) (hnew : '\r' ∉ new) :
    ∀ l ∈ h.body old.terminatedLines new.terminatedLines, '\r' ∉ l.text := by
  intro l hl hreturn
  rcases mem_or_mem_of_mem_body hl with hmem | hmem
  · exact hold (by simpa using List.mem_flatten_of_mem hmem hreturn)
  · exact hnew (by simpa using List.mem_flatten_of_mem hmem hreturn)

/-- Without carriage returns, a unified diff comes out as it is. -/
theorem relined_unified_of_notMem {path : Text} (hne : old ≠ new) (hpath : '\r' ∉ path) (hold : '\r' ∉ old)
    (hnew : '\r' ∉ new) : relined (unified old new path) = unified old new path := by
  have hfree {t : Text} (ht : '\r' ∉ t) : ¬ returnFeed <:+: t := fun hheld => ht (hheld.subset (by decide))
  rw [relined_unified_eq_iff path hne]
  refine ⟨hfree (by simpa using hpath), ?_, ?_⟩
  · intro h _ l hl
    exact hfree (return_notMem_body hold hnew l hl)
  · intro h _ l hl hreturn
    exact return_notMem_body hold hnew l (List.mem_of_getLast? hl) (List.mem_of_getLast? hreturn)

end Diff

/-! ## Carriage returns in an update -/

theorem Block.return_notMem_render {examples : Text} (h : '\r' ∉ examples) : '\r' ∉ render examples := by
  have hshown : ∀ l ∈ shownLines examples, '\r' ∉ l := by
    intro l hl hreturn
    obtain ⟨line, hline, rfl⟩ := List.mem_map.1 hl
    exact h (Text.subset_of_mem_lines hline ((Text.isPrefix_trimEnd line).subset hreturn))
  have hrender : render examples = gap ++ gap.intercalate (shownLines examples) ++ ['\n'] := rfl
  rw [hrender]
  cases hls : shownLines examples with
  | nil => decide
  | cons l ls =>
      rw [append_intercalate, ← hls]
      simp only [List.mem_append, List.mem_flatMap, not_or, not_exists, not_and]
      exact ⟨fun l hl => ⟨by decide, hshown l hl⟩, by decide⟩

/-- An update brings no carriage return into a document. -/
theorem Plan.return_notMem_updated {document examples : Text} (p : Policy) (hdocument : '\r' ∉ document)
    (hexamples : '\r' ∉ examples) : '\r' ∉ (make p document examples).updated := by
  rw [updated_make]
  cases hsections : p.sections? document with
  | none => rwa [Splice.make_eq_of_none hsections]
  | some s =>
      have hblock := Block.return_notMem_render hexamples
      rw [← Policy.document_of_sections? hsections] at hdocument
      rw [Splice.make_eq_of_some hsections]
      simp only [Sections.document, List.mem_append, not_or] at hdocument
      cases p <;> simp [Policy.fill, hdocument, hblock]

namespace CommandLine

open Text Update

variable {t : FileTree} {p : Process} {args : List Text} {a : Arguments} {plan : Plan}
  {document examples : Text}

/-! ## Trial runs -/

theorem dryRunOutput_false (r : Report) (hstale : plan.isStale = true) :
    dryRunOutput false plan r = relined (Diff.unified plan.document plan.updated r.readme.text) := by
  have hplain : paintDiffLine false = id := by
    funext line
    simp [paintDiffLine]
  rw [dryRunOutput, if_pos hstale, hplain]
  rfl

/-- What a trial run prints that reads both documents. -/
theorem runOn_of_dryRun (colour : Bool) (ha : Arguments.parse args = .ok a) (hdryRun : a.dryRun = true)
    (hjson : a.json = false) (hreads : Reads t p.cwd a.config document examples) :
    (runOn p colour args t).1.exit = 0 ∧ (runOn p colour args t).1.stdout =
      dryRunOutput colour (Plan.make a.policy document examples)
        (Report.ofPlan a.config (Plan.make a.policy document examples) false) := by
  have hplan := run_plan_eq_ok_iff.2 ⟨document, examples, hreads, rfl⟩
  have hpreview := run_preview_eq_ok_iff.2 ⟨hplan, rfl⟩
  have hcommand : ((runCommand p.pid colour a).run p.cwd t).1 = .success (dryRunOutput colour
      (Plan.make a.policy document examples) (Report.ofPlan a.config (Plan.make a.policy document examples) false)) := by
    rw [runCommand, Arguments.check_eq_false_of_dryRun ha hdryRun, hdryRun, hjson]
    simp only [Bool.false_eq_true, if_false, if_true, runDryRun, Action.run_bind, hpreview]
    rfl
  simp only [runOn, ha, run_perform, hcommand, Outcome.output, Outcome.success, and_self]

/-- **Where a trial run prints the difference itself.** Without colours, a trial run that reads both documents and
finds a change prints the lines of the difference, each ended by a line feed. This is the difference itself exactly if
no carriage return stands in front of a line feed in it, neither behind the path nor in a line that it shows, and no
lone carriage return ends its last line. So it is where the path and both documents hold no carriage return. -/
theorem dryRun_prints_diff_iff (ha : Arguments.parse args = .ok a) (hdryRun : a.dryRun = true) (hjson : a.json = false)
    (hreads : Reads t p.cwd a.config document examples)
    (hstale : (Plan.make a.policy document examples).isStale = true) :
    let path := a.config.readme.text
    let updated := (Plan.make a.policy document examples).updated
    let diff := Diff.unified document updated path
    let found := Diff.hunks document.terminatedLines updated.terminatedLines
    let body := Diff.Hunk.body document.terminatedLines updated.terminatedLines
    (runOn p false args t).1.exit = 0 ∧ (runOn p false args t).1.stdout = relined diff ∧
      ((runOn p false args t).1.stdout = diff ↔
        ¬ returnFeed <:+: path ++ ['\n'] ∧ (∀ h ∈ found, ∀ l ∈ body h, ¬ returnFeed <:+: l.text) ∧
          ∀ h ∈ found.getLast?, ∀ l ∈ (body h).getLast?, l.text.getLast? ≠ some '\r') ∧
      ('\r' ∉ path → '\r' ∉ document → '\r' ∉ examples → (runOn p false args t).1.stdout = diff) := by
  intro path updated diff found body
  have hne : document ≠ updated := bne_iff_ne.1 hstale
  obtain ⟨hexit, hprinted⟩ := runOn_of_dryRun false ha hdryRun hjson hreads
  rw [dryRunOutput_false _ hstale] at hprinted
  have hstdout : (runOn p false args t).1.stdout = relined diff := hprinted
  rw [hstdout]
  refine ⟨hexit, rfl, Diff.relined_unified_eq_iff path hne, ?_⟩
  intro hpath hdocument hexamples
  exact Diff.relined_unified_of_notMem hne hpath hdocument (Plan.return_notMem_updated a.policy hdocument hexamples)

/-- A document with a lone carriage return and an unterminated last line. -/
theorem dryRun_prints_diff_loneReturn :
    let document := "a\r<!-- BEGIN EXAMPLES -->\nold\n<!-- END EXAMPLES -->".toList
    Reads (sampleTree document "new".toList) [] sampleArguments.config document "new".toList ∧
      (runOn ⟨1, []⟩ false ["--dry-run".toList] (sampleTree document "new".toList)).1.stdout =
        Diff.unified document (Plan.make .replacing document "new".toList).updated "README.md".toList := by
  intro document
  have ha : Arguments.parse ["--dry-run".toList] = .ok { sampleArguments with dryRun := true } := by rfl
  have hreads : Reads (sampleTree document "new".toList) [] sampleArguments.config document "new".toList :=
    ⟨by decide +kernel, by decide +kernel⟩
  have hstale : (Plan.make .replacing document "new".toList).isStale = true := by decide +kernel
  obtain ⟨-, -, hiff, -⟩ := @dryRun_prints_diff_iff _ ⟨1, []⟩ _ _ _ _ ha rfl rfl hreads hstale
  exact ⟨hreads, hiff.2 (by decide +kernel)⟩

/-- A document whose lines end in carriage returns and line feeds. -/
theorem dryRun_drops_return :
    let document := "a\r\n<!-- BEGIN EXAMPLES -->\nold\n<!-- END EXAMPLES -->\n".toList
    let plan := Plan.make .replacing document "new\n".toList
    Reads (sampleTree document "new\n".toList) [] sampleArguments.config document "new\n".toList ∧
      plan.isStale = true ∧
      (runOn ⟨1, []⟩ false ["--dry-run".toList] (sampleTree document "new\n".toList)).1.stdout ≠
        Diff.unified document plan.updated "README.md".toList := by
  intro document plan
  exact ⟨⟨by decide +kernel, by decide +kernel⟩, by decide +kernel, by decide +kernel⟩

end CommandLine
end DocSplice
