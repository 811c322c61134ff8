import DocSplice.Proofs.PrintedDiff

/-!
# The colours of a trial run

A trial run guesses the style of each line that it prints from the beginning of the line (`guessedStyle`), while every
line of a unified diff is of a kind that has its own style (`ownStyle`). The two are compared character by character,
without the line breaks, since the lines that are printed are not those of the diff where a lone carriage return ends
a line or the path holds a line feed. The main statement says exactly when all characters are printed in the style of
the line of the diff that they stand in (`dryRun_colours_iff`).
-/
namespace DocSplice.CommandLine

open Text Update

variable {s : Option Style} {t u : Text} {lines : List Diff.WrittenLine}

/-! ## Styles -/

/-- The text in a style, or as it is. -/
def shownIn (s : Option Style) (t : Text) : Text :=
  match s with
  | some style => style.paint true t
  | none => t

/-- The style that the beginning of a line calls for. -/
def guessedStyle (line : Text) : Option Style :=
  if line.startsWith "+++".toList || line.startsWith "---".toList then some .bold
  else if line.startsWith "+".toList then some .green
  else if line.startsWith "-".toList then some .red
  else if line.startsWith "@@".toList then some .cyan
  else none

/-- The style of a line of a unified diff. -/
def ownStyle : Diff.LineKind → Option Style
  | .file => some .bold
  | .hunk => some .cyan
  | .shown .removed => some .red
  | .shown .added => some .green
  | .shown .kept => none
  | .hint => none

theorem paintDiffLine_true (line : Text) : paintDiffLine true line = shownIn (guessedStyle line) line := by
  unfold paintDiffLine guessedStyle
  split_ifs <;> rfl

/-- A line break ends what a style is guessed from. -/
theorem guessedStyle_append_break {c : Char} (hc : IsBreak c) (t u : Text) :
    guessedStyle (t ++ c :: u) = guessedStyle t := by
  have hword : ∀ w : Text, Unbroken w → (t ++ c :: u).startsWith w = t.startsWith w := by
    intro w hw
    rw [startsWith, startsWith, Bool.eq_iff_iff, List.isPrefixOf_iff_prefix, List.isPrefixOf_iff_prefix]
    exact ⟨prefix_of_prefix_append_cons fun hmem => hw c hmem hc, fun h => h.trans (List.prefix_append _ _)⟩
  simp only [guessedStyle, hword _ (by decide : Unbroken "+++".toList), hword _ (by decide : Unbroken "---".toList),
    hword _ (by decide : Unbroken "+".toList), hword _ (by decide : Unbroken "-".toList),
    hword _ (by decide : Unbroken "@@".toList)]

/-! ## Characters in styles -/

/-- The characters of a text but for its line breaks, each in the style. -/
def tinted (s : Option Style) (t : Text) : List (Option Style × Char) :=
  (t.filter fun c => ¬ IsBreak c).map (s, ·)

/-- The characters of a text, each in the style that the beginning of its line calls for. -/
def guessedTints (t : Text) : List (Option Style × Char) := t.lines.flatMap fun line => tinted (guessedStyle line) line

/-- The characters of the lines, each in the style of its line. -/
def ownTints (lines : List Diff.WrittenLine) : List (Option Style × Char) :=
  lines.flatMap fun w => tinted (ownStyle w.kind) w.text

@[simp] theorem tinted_nil (s : Option Style) : tinted s [] = [] := rfl

@[simp] theorem tinted_append (s : Option Style) (t u : Text) : tinted s (t ++ u) = tinted s t ++ tinted s u := by
  simp [tinted]

theorem tinted_append_cons (s : Option Style) (l : Text) (c : Char) (t : Text) :
    tinted s (l ++ c :: t) = tinted s (l ++ [c]) ++ tinted s t := by
  rw [← tinted_append, List.append_assoc, List.singleton_append]

theorem tinted_of_breaks (s : Option Style) (h : ∀ c ∈ t, IsBreak c) : tinted s t = [] := by
  simpa [tinted] using h

@[simp] theorem ownTints_nil : ownTints [] = [] := rfl

@[simp] theorem ownTints_cons (w : Diff.WrittenLine) (lines : List Diff.WrittenLine) :
    ownTints (w :: lines) = tinted (ownStyle w.kind) w.text ++ ownTints lines := by
  simp [ownTints]

@[simp] theorem ownTints_append (a b : List Diff.WrittenLine) : ownTints (a ++ b) = ownTints a ++ ownTints b := by
  simp [ownTints]

theorem length_tinted (s s' : Option Style) (t : Text) : (tinted s t).length = (tinted s' t).length := by
  simp [tinted]

theorem tinted_eq_iff {s' : Option Style} : tinted s t = tinted s' t ↔ s = s' ∨ ∀ c ∈ t, IsBreak c := by
  constructor
  · intro h
    by_cases hbreaks : ∀ c ∈ t, IsBreak c
    · exact .inr hbreaks
    · obtain ⟨c, hc, hplain⟩ := not_forall₂.1 hbreaks
      have hown : (s, c) ∈ tinted s t := by simp [tinted, hc, hplain]
      have hother : (s, c) ∈ tinted s' t := h ▸ hown
      have hstyles : s' = s := by simpa [tinted, hc, hplain] using hother
      exact .inl hstyles.symm
  · intro h
    rcases h with rfl | h
    · rfl
    · rw [tinted_of_breaks s h, tinted_of_breaks s' h]

theorem append_tinted_eq_iff {a b : List (Option Style × Char)} {s' : Option Style} (h : IsLine t) :
    a ++ tinted s t = b ++ tinted s' t ↔ a = b ∧ s = s' := by
  obtain ⟨front, e, rfl, hne, hfront, -⟩ := h
  obtain ⟨c, r, rfl⟩ := List.exists_cons_of_ne_nil hne
  constructor
  · intro heq
    obtain ⟨hab, htint⟩ := List.append_inj' heq (length_tinted s s' _)
    refine ⟨hab, (tinted_eq_iff.1 htint).resolve_right ?_⟩
    intro hbreaks
    exact (unbroken_cons.1 hfront).1 (hbreaks c (by simp))
  · intro heq
    rw [heq.1, heq.2]

/-! ## Lines of which the styles are guessed -/

theorem guessedTints_append (h : EndsLine t) (u : Text) :
    guessedTints (t ++ u) = guessedTints t ++ guessedTints u := by
  simp [guessedTints, Text.lines, pieces_append h]

/-- A printed line lacks breaks only, and its beginning calls for the same style. -/
theorem chomp_alike {l : Text} (hl : '\n' ∉ l) : guessedStyle (chomp (l ++ ['\n'])) = guessedStyle (l ++ ['\n']) ∧
    ∀ s, tinted s (chomp (l ++ ['\n'])) = tinted s (l ++ ['\n']) := by
  have hreturn : IsBreak '\r' := .inr rfl
  have hfeed : IsBreak '\n' := .inl rfl
  rw [chomp_append]
  split
  · next hlast =>
    obtain ⟨u, rfl⟩ := List.getLast?_eq_some_iff.1 hlast
    rw [List.dropLast_concat, List.append_assoc]
    exact ⟨(guessedStyle_append_break hreturn u ['\n']).symm, fun s => by simp [tinted_of_breaks, hreturn, hfeed]⟩
  · exact ⟨(guessedStyle_append_break hfeed l []).symm, fun s => by simp [tinted_of_breaks, hfeed]⟩

theorem guessedTints_append_cons {l : Text} (hl : '\n' ∉ l) (t : Text) :
    guessedTints (l ++ '\n' :: t) = tinted (guessedStyle (l ++ ['\n'])) (l ++ ['\n']) ++ guessedTints t := by
  obtain ⟨hguess, htint⟩ := chomp_alike hl
  rw [guessedTints, lines_append_cons hl, List.flatMap_cons, hguess, htint, guessedTints]

/-- A text without a line feed inside of it is shown in one style. -/
theorem guessedTints_single {l e : Text} (hl : '\n' ∉ l) (he : e = [] ∨ e = ['\n']) :
    guessedTints (l ++ e) = tinted (guessedStyle (l ++ e)) (l ++ e) := by
  rcases he with rfl | rfl
  · rw [List.append_nil]
    by_cases hne : l = []
    · rw [hne]
      rfl
    · simp [guessedTints, lines_of_not_mem hne hl]
  · rw [guessedTints_append_cons hl, show guessedTints [] = [] from rfl, List.append_nil]

theorem length_guessedTints (s : Option Style) (t : Text) : (guessedTints t).length = (tinted s t).length := by
  induction t using line_induction with
  | nil => rfl
  | rest l _ hl =>
      have hsingle := guessedTints_single hl (.inl rfl)
      rw [List.append_nil] at hsingle
      rw [hsingle, length_tinted]
  | line l t hl ih =>
      rw [guessedTints_append_cons hl, tinted_append_cons s, List.length_append, List.length_append, ih,
        length_tinted _ s]

theorem length_guessedTints_textOf (lines : List Diff.WrittenLine) :
    (guessedTints (Diff.textOf lines)).length = (ownTints lines).length := by
  rw [length_guessedTints none]
  induction lines with
  | nil => rfl
  | cons w lines ih =>
      rw [Diff.textOf_cons, tinted_append, List.length_append, ih, ownTints_cons, List.length_append,
        length_tinted none]

/-- A text is shown in one style where each of its lines is, but for those that hold breaks only. -/
theorem guessedTints_eq_tinted_iff (s : Option Style) (t : Text) :
    guessedTints t = tinted s t ↔ ∀ l ∈ t.lines, guessedStyle l = s ∨ ∀ c ∈ l, IsBreak c := by
  induction t using line_induction with
  | nil => simp [guessedTints]
  | rest l hne hl => simp [guessedTints, lines_of_not_mem hne hl, tinted_eq_iff]
  | line l t hl ih =>
      obtain ⟨hguess, htint⟩ := chomp_alike hl
      rw [lines_append_cons hl, List.forall_mem_cons, ← ih, guessedTints_append_cons hl, tinted_append_cons s,
        ← hguess, ← htint, ← htint, ← tinted_eq_iff]
      constructor
      · intro h
        exact List.append_inj h (length_tinted _ _ _)
      · intro h
        rw [h.1, h.2]

/-! ## The styles of written lines -/

/-- Behind the lines before it, the line is shown in its own style: if it begins a printed line, its beginning calls
for this style, and otherwise the line before it has it too. -/
def Told (before : List Diff.WrittenLine) (w : Diff.WrittenLine) : Prop :=
  (EndsLine (Diff.textOf before) → guessedStyle w.text = ownStyle w.kind) ∧
    (¬ EndsLine (Diff.textOf before) → ∀ v ∈ before.getLast?, ownStyle v.kind = ownStyle w.kind)

/-- Where the last line goes on, it goes on in the style that it is shown in itself. -/
theorem exists_style_of_not_endsLine {w : Diff.WrittenLine} (hw : IsLine w.text)
    (h : ¬ EndsLine (Diff.textOf (lines ++ [w]))) :
    ∃ s before, guessedTints (Diff.textOf (lines ++ [w])) = before ++ tinted s w.text ∧
      ∀ u, IsLine u → guessedTints (Diff.textOf (lines ++ [w]) ++ u) =
        guessedTints (Diff.textOf (lines ++ [w])) ++ tinted s u := by
  rw [Diff.textOf_append, Diff.textOf_cons, Diff.textOf_nil, List.append_nil] at h ⊢
  obtain ⟨front, y, htext, hfront, hy⟩ := exists_lastLine (Diff.textOf lines)
  obtain ⟨l, hl, hfeed⟩ := hw.exists_return fun hends => h (hends.append_left hw.ne_nil _)
  have hshown {u e : Text} (hu : '\n' ∉ u) (he : e = [] ∨ e = ['\n']) :
      guessedTints (Diff.textOf lines ++ w.text ++ (u ++ e)) = guessedTints front ++ tinted (guessedStyle (y ++ l)) y ++
        tinted (guessedStyle (y ++ l)) w.text ++ tinted (guessedStyle (y ++ l)) (u ++ e) := by
    have hguess : guessedStyle (y ++ l ++ '\r' :: u ++ e) = guessedStyle (y ++ l) := by
      rw [List.append_assoc, List.cons_append]
      exact guessedStyle_append_break (.inr rfl) (y ++ l) (u ++ e)
    have hsingle := guessedTints_single (l := y ++ l ++ '\r' :: u) (by simp [hy, hfeed, hu]) he
    have hsplit : y ++ l ++ '\r' :: u ++ e = y ++ (w.text ++ (u ++ e)) := by simp [hl]
    rw [hguess, hsplit, tinted_append, tinted_append] at hsingle
    rw [htext, List.append_assoc, List.append_assoc, guessedTints_append hfront, hsingle]
    simp only [List.append_assoc]
  have hbefore := hshown (u := []) (by simp) (.inl rfl)
  simp only [List.append_nil, tinted_nil] at hbefore
  refine ⟨guessedStyle (y ++ l), _, hbefore, ?_⟩
  intro u hu
  obtain ⟨v, e, rfl, hv, he⟩ := hu.exists_single
  rw [hshown hv he, hbefore]

theorem forall_concat_iff {α : Type} {P : List α → α → Prop} {l : List α} {x : α} :
    (∀ a y b, l ++ [x] = a ++ y :: b → P a y) ↔ (∀ a y b, l = a ++ y :: b → P a y) ∧ P l x := by
  constructor
  · intro h
    exact ⟨fun a y b hl => h a y (b ++ [x]) (by simp [hl]), h l x [] rfl⟩
  · intro h a y b heq
    rcases List.eq_nil_or_concat' b with rfl | ⟨b, z, rfl⟩
    · obtain ⟨rfl, hx⟩ := List.append_inj' heq rfl
      cases hx
      exact h.2
    · rw [← List.cons_append, ← List.append_assoc] at heq
      exact h.1 a y b (List.append_inj' heq rfl).1

/-- **Lines are shown in their own styles** exactly if each of them is, behind those before it. -/
theorem guessedTints_textOf_iff (hlines : ∀ w ∈ lines, IsLine w.text) :
    guessedTints (Diff.textOf lines) = ownTints lines ↔ ∀ a w b, lines = a ++ w :: b → Told a w := by
  induction lines using List.reverseRecOn with
  | nil => simp [guessedTints]
  | append_singleton lines w ih =>
      obtain ⟨hbefore, hw⟩ := List.forall_mem_append.1 hlines
      rw [List.forall_mem_singleton] at hw
      rw [forall_concat_iff, ← ih hbefore]
      have hown : ownTints (lines ++ [w]) = ownTints lines ++ tinted (ownStyle w.kind) w.text := by simp
      rw [hown, Diff.textOf_append, Diff.textOf_cons, Diff.textOf_nil, List.append_nil]
      by_cases hends : EndsLine (Diff.textOf lines)
      · obtain ⟨l, e, hsplit, hl, he⟩ := hw.exists_single
        have hshown : guessedTints w.text = tinted (guessedStyle w.text) w.text := hsplit ▸ guessedTints_single hl he
        rw [guessedTints_append hends, hshown, append_tinted_eq_iff hw]
        simp [Told, hends]
      · obtain ⟨front, v, rfl⟩ := (List.eq_nil_or_concat' lines).resolve_left fun hnil => hends (hnil ▸ endsLine_nil)
        have hv : IsLine v.text := hbefore v List.mem_concat_self
        obtain ⟨s, before, hshown, hgoesOn⟩ := exists_style_of_not_endsLine hv hends
        rw [hgoesOn _ hw, append_tinted_eq_iff hw]
        refine and_congr_right fun heq => ?_
        have hown : before ++ tinted s v.text = ownTints front ++ tinted (ownStyle v.kind) v.text := by
          rw [← hshown, heq]
          simp
        rw [((append_tinted_eq_iff hv).1 hown).2, Told, List.getLast?_concat]
        simp only [hends, false_implies, true_and, not_false_eq_true, true_implies, Option.mem_def, Option.some.injEq,
          forall_eq']

/-! ## The names of the files -/

/-- The name of a file is shown bold exactly if each line that its path begins looks like a name of a file. -/
theorem guessedTints_named_iff {named : Text} (hnamed : ∀ t, guessedStyle (named ++ t) = some .bold)
    (hfeed : '\n' ∉ named) (path : Text) :
    guessedTints (named ++ path ++ ['\n']) = tinted (some .bold) (named ++ path ++ ['\n']) ↔
      ∀ l ∈ (path ++ ['\n']).lines.tail, guessedStyle l = some .bold ∨ ∀ c ∈ l, IsBreak c := by
  obtain ⟨l, t, hpath, hl⟩ := List.eq_append_cons_of_mem (show '\n' ∈ path ++ ['\n'] by simp)
  have hnl : '\n' ∉ named ++ l := by simp [hfeed, hl]
  rw [guessedTints_eq_tinted_iff, List.append_assoc, hpath, ← List.append_assoc, lines_append_cons hnl,
    lines_append_cons hl, List.forall_mem_cons, List.tail_cons, (chomp_alike hnl).1, List.append_assoc, hnamed]
  simp

theorem guessedTints_fileLines_iff (path : Text) :
    guessedTints (Diff.textOf (Diff.fileLines path)) = ownTints (Diff.fileLines path) ↔
      ∀ l ∈ (path ++ ['\n']).lines.tail, guessedStyle l = some .bold ∨ ∀ c ∈ l, IsBreak c := by
  have hold := @guessedTints_named_iff "--- a/".toList (fun _ => rfl) (by decide) path
  have hnew := @guessedTints_named_iff "+++ b/".toList (fun _ => rfl) (by decide) path
  have hends : EndsLine ("--- a/".toList ++ path ++ ['\n']) := .inr ⟨_, rfl⟩
  rw [Diff.fileLines, Diff.textOf_cons, Diff.textOf_cons, Diff.textOf_nil, List.append_nil, guessedTints_append hends]
  rw [ownTints_cons, ownTints_cons, ownTints_nil, List.append_nil]
  constructor
  · intro h
    exact hold.1 (List.append_inj h (length_guessedTints _ _)).1
  · intro h
    rw [hold.2 h, hnew.2 h]
    rfl

/-! ## The lines behind the names of the files -/

/-- The line looks like a name of a file: it is removed and begins with two hyphens, or added and begins with two plus
signs. -/
def Disguised (w : Diff.WrittenLine) : Prop :=
  w.kind = .shown .removed ∧ ['-', '-', '-'] <+: w.text ∨ w.kind = .shown .added ∧ ['+', '+', '+'] <+: w.text

/-- The beginning of a line calls for its own style, unless the line is disguised. -/
theorem guessedStyle_eq_ownStyle_iff {old new : Text} {w : Diff.WrittenLine} (hw : w ∈ Diff.writtenLines old new) :
    guessedStyle w.text = ownStyle w.kind ↔ ¬ Disguised w := by
  rcases Diff.cases_of_mem_writtenLines hw with ⟨r, rfl⟩ | ⟨mark, r, rfl⟩ | rfl
  · simp [guessedStyle, startsWith, ownStyle, Disguised]
  · cases mark <;> simp [guessedStyle, startsWith, ownStyle, Disguised, Diff.Mark.sign]
  · exact iff_of_true rfl (by simp [Disguised])

/-- Where all characters of a unified diff are shown in the styles of their lines. -/
theorem guessedTints_unified_iff {old new : Text} (path : Text) (hne : old ≠ new) :
    guessedTints (Diff.unified old new path) = ownTints (Diff.fileLines path ++ Diff.writtenLines old new) ↔
      (∀ l ∈ (path ++ ['\n']).lines.tail, guessedStyle l = some .bold ∨ ∀ c ∈ l, IsBreak c) ∧
      ∀ a w b, Diff.writtenLines old new = a ++ w :: b →
        (EndsLine (Diff.textOf a) → ¬ Disguised w) ∧
          (¬ EndsLine (Diff.textOf a) → ∀ v ∈ a.getLast?, ownStyle v.kind = ownStyle w.kind) := by
  have hends : EndsLine (Diff.textOf (Diff.fileLines path)) := by
    rw [Diff.textOf_fileLines]
    exact .inr ⟨_, rfl⟩
  have hsplit : guessedTints (Diff.unified old new path) = ownTints (Diff.fileLines path ++ Diff.writtenLines old new) ↔
      guessedTints (Diff.textOf (Diff.fileLines path)) = ownTints (Diff.fileLines path) ∧
        guessedTints (Diff.textOf (Diff.writtenLines old new)) = ownTints (Diff.writtenLines old new) := by
    rw [Diff.unified_eq_written path hne, Diff.textOf_append, guessedTints_append hends, ownTints_append]
    constructor
    · intro h
      exact List.append_inj h (length_guessedTints_textOf _)
    · intro h
      rw [h.1, h.2]
  rw [hsplit, guessedTints_fileLines_iff, guessedTints_textOf_iff fun w hw => Diff.isLine_of_mem_writtenLines hw]
  refine and_congr_right fun _ => forall₃_congr fun a w b => forall_congr' fun hbehind => ?_
  have hw : w ∈ Diff.writtenLines old new := hbehind ▸ List.mem_append_right _ List.mem_cons_self
  rw [Told, guessedStyle_eq_ownStyle_iff hw]

/-! ## Trial runs -/

variable {tree : FileTree} {cwd : Place} {c : Config} {plan : Plan} {r : Report}

/-- **Where a trial run shows every line in its own style.** With colours, a trial run that finds a change prints the
lines of the difference, each in the style that its beginning calls for. All characters are shown in the style of the
line of the diff that they stand in exactly if three things hold: every line that the path begins looks like a name of
a file or holds breaks only; no line of the diff that begins a printed line is disguised; and every other one, which
stands behind a lone carriage return, has the style of the line before it. -/
theorem dryRun_colours_iff (hpreview : ((preview c).run cwd tree).1 = .ok (plan, r)) (hstale : plan.isStale = true) :
    let diff := Diff.unified plan.document plan.updated c.readme.text
    let named := Diff.fileLines c.readme.text
    let behind := Diff.writtenLines plan.document plan.updated
    diff = Diff.textOf (named ++ behind) ∧
      ((runDryRun true false c).run cwd tree).1 =
        .success (diff.lines.flatMap fun line => shownIn (guessedStyle line) line ++ ['\n']) ∧
      (guessedTints diff = ownTints (named ++ behind) ↔
        (∀ l ∈ (c.readme.text ++ ['\n']).lines.tail, guessedStyle l = some .bold ∨ ∀ c ∈ l, IsBreak c) ∧
        ∀ a w b, behind = a ++ w :: b →
          (EndsLine (Diff.textOf a) → ¬ Disguised w) ∧
            (¬ EndsLine (Diff.textOf a) → ∀ v ∈ a.getLast?, ownStyle v.kind = ownStyle w.kind)) := by
  intro diff named behind
  have hne : plan.document ≠ plan.updated := bne_iff_ne.1 hstale
  refine ⟨Diff.unified_eq_written _ hne, ?_, guessedTints_unified_iff _ hne⟩
  obtain ⟨-, hr⟩ := run_preview_eq_ok_iff.1 hpreview
  have hpainted : paintDiffLine true = fun line => shownIn (guessedStyle line) line := funext paintDiffLine_true
  have hprinted : dryRunOutput true plan r =
      diff.lines.flatMap fun line => shownIn (guessedStyle line) line ++ ['\n'] := by
    rw [dryRunOutput, if_pos hstale, hpainted, hr]
    rfl
  rw [runDryRun, Action.run_bind, hpreview, ← hprinted]
  rfl

/-- A line that begins with a hyphen is removed, and the lines before it end in lone carriage returns. -/
theorem dryRun_colours_hyphen :
    let document := "a\r\rb\r<!-- BEGIN EXAMPLES -->\n- x\n<!-- END EXAMPLES -->".toList
    let plan := Plan.make .replacing document "new".toList
    let diff := Diff.unified document plan.updated "README.md".toList
    ((preview sampleArguments.config).run [] (sampleTree document "new".toList)).1 =
        .ok (plan, Report.ofPlan sampleArguments.config plan false) ∧ plan.isStale = true ∧
      ((runDryRun true false sampleArguments.config).run [] (sampleTree document "new".toList)).1 =
        .success (diff.lines.flatMap fun line => shownIn (guessedStyle line) line ++ ['\n']) ∧
      guessedTints diff = ownTints (Diff.fileLines "README.md".toList ++ Diff.writtenLines document plan.updated) ∧
      ∀ a w b, Diff.writtenLines document plan.updated = a ++ w :: b → EndsLine (Diff.textOf a) → ¬ Disguised w := by
  intro document plan diff
  have hpreview : ((preview sampleArguments.config).run [] (sampleTree document "new".toList)).1 =
      .ok (plan, Report.ofPlan sampleArguments.config plan false) := by decide +kernel
  have hstale : plan.isStale = true := by decide +kernel
  have htints : guessedTints diff =
      ownTints (Diff.fileLines "README.md".toList ++ Diff.writtenLines document plan.updated) := by decide +kernel
  obtain ⟨-, hprinted, hiff⟩ := dryRun_colours_iff hpreview hstale
  exact ⟨hpreview, hstale, hprinted, htints, fun a w b hbehind => ((hiff.1 htints).2 a w b hbehind).1⟩

/-- A line that begins with two hyphens is removed, and printed as if it named a file. -/
theorem dryRun_colours_disguised :
    let document := "<!-- BEGIN EXAMPLES -->\n-- x\n<!-- END EXAMPLES -->\n".toList
    let plan := Plan.make .replacing document "new\n".toList
    let stdout := (runOn ⟨1, []⟩ true ["--dry-run".toList] (sampleTree document "new\n".toList)).1.stdout
    Reads (sampleTree document "new\n".toList) [] sampleArguments.config document "new\n".toList ∧
      plan.isStale = true ∧ ⟨.shown .removed, "--- x\n".toList⟩ ∈ Diff.writtenLines document plan.updated ∧
      Style.bold.paint true "--- x".toList <:+: stdout ∧ ¬ Style.red.paint true "--- x".toList <:+: stdout ∧
      guessedTints (Diff.unified document plan.updated "README.md".toList) ≠
        ownTints (Diff.fileLines "README.md".toList ++ Diff.writtenLines document plan.updated) := by
  intro document plan stdout
  exact ⟨⟨by decide +kernel, by decide +kernel⟩, by decide +kernel, by decide +kernel, by decide +kernel,
    by decide +kernel, by decide +kernel⟩

end DocSplice.CommandLine
