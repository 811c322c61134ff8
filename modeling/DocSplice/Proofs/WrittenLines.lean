import DocSplice.Proofs.HunkHeader
import DocSplice.Proofs.Line

/-!
# The lines of a unified diff

A unified diff consists of lines of four kinds: those that name the files, the headers of the hunks, the lines of the
hunks behind their marks, and the hints about missing terminators (`unified_eq_written`). Behind the names of the
files, each of them is unbroken text in front of one terminator (`isLine_of_mem_writtenLines`).
-/
namespace DocSplice

namespace Text

/-! ## Terminators -/

/-- The character ends a line of a comparison. -/
def IsBreak (c : Char) : Prop := c = '\n' ∨ c = '\r'

instance : DecidablePred IsBreak := fun c => inferInstanceAs (Decidable (c = '\n' ∨ c = '\r'))

/-- The text goes on in one line. -/
def Unbroken (t : Text) : Prop := ∀ c ∈ t, ¬ IsBreak c

instance (t : Text) : Decidable (Unbroken t) := List.decidableBAll (fun c => ¬ IsBreak c) t

theorem unbroken_nil : Unbroken [] := by simp [Unbroken]

@[simp] theorem unbroken_cons {c : Char} {t : Text} : Unbroken (c :: t) ↔ ¬ IsBreak c ∧ Unbroken t := by
  simp [Unbroken]

@[simp] theorem unbroken_append {s t : Text} : Unbroken (s ++ t) ↔ Unbroken s ∧ Unbroken t := by
  simp [Unbroken, or_imp, forall_and]

/-- What can stand behind a line. -/
inductive Terminator : Text → Prop where
  | feed : Terminator ['\n']
  | returnFeed : Terminator ['\r', '\n']
  | loneReturn : Terminator ['\r']

/-- The text is one line that is not empty, with its terminator. -/
def IsLine (t : Text) : Prop := ∃ front e, t = front ++ e ∧ front ≠ [] ∧ Unbroken front ∧ Terminator e

theorem IsLine.ne_nil {t : Text} (h : IsLine t) : t ≠ [] := by
  obtain ⟨front, e, rfl, hne, -⟩ := h
  simp [hne]

/-- A line holds a line feed at its end only. -/
theorem IsLine.exists_single {t : Text} (h : IsLine t) :
    ∃ l e, t = l ++ e ∧ '\n' ∉ l ∧ (e = [] ∨ e = ['\n']) := by
  obtain ⟨front, e, rfl, -, hfront, he⟩ := h
  have hfeed : '\n' ∉ front := fun hmem => hfront _ hmem (.inl rfl)
  cases he with
  | feed => exact ⟨front, ['\n'], rfl, hfeed, .inr rfl⟩
  | returnFeed => exact ⟨front ++ ['\r'], ['\n'], by simp, by simpa using hfeed, .inr rfl⟩
  | loneReturn => exact ⟨front ++ ['\r'], [], by simp, by simpa using hfeed, .inl rfl⟩

/-- A line that does not end in a line feed ends in a carriage return. -/
theorem IsLine.exists_return {t : Text} (h : IsLine t) (hends : ¬ EndsLine t) : ∃ l, t = l ++ ['\r'] ∧ '\n' ∉ l := by
  obtain ⟨front, e, rfl, -, hfront, he⟩ := h
  cases he with
  | feed => exact absurd (.inr ⟨front, rfl⟩) hends
  | returnFeed => exact absurd (.inr ⟨front ++ ['\r'], by simp⟩) hends
  | loneReturn => exact ⟨front, rfl, fun hmem => hfront _ hmem (.inl rfl)⟩

/-- A comparison takes a text apart into lines with their terminators, and a last line that may lack one. -/
theorem exists_of_mem_terminatedLines {t l : Text} (h : l ∈ terminatedLines t) :
    ∃ front e, l = front ++ e ∧ Unbroken front ∧ (Terminator e ∨ e = []) := by
  suffices hgo : ∀ done line t, Unbroken line.reverse →
      (∀ l ∈ done, ∃ front e, l = front ++ e ∧ Unbroken front ∧ (Terminator e ∨ e = [])) →
      ∀ l ∈ terminatedLines.go done line t,
        ∃ front e, l = front ++ e ∧ Unbroken front ∧ (Terminator e ∨ e = []) from
    hgo [] [] t unbroken_nil (by simp) l h
  intro done line t
  fun_induction terminatedLines.go done line t with
  | case1 done line =>
      intro hline hdone l hl
      split at hl
      · exact hdone l (List.mem_reverse.1 hl)
      · rcases List.mem_cons.1 (List.mem_reverse.1 hl) with rfl | hl
        · exact ⟨line.reverse, [], by simp, hline, .inr rfl⟩
        · exact hdone l hl
  | case2 done line r ih =>
      intro hline hdone
      refine ih unbroken_nil ?_
      rw [List.forall_mem_cons]
      exact ⟨⟨line.reverse, ['\r', '\n'], by simp, hline, .inl .returnFeed⟩, hdone⟩
  | case3 done line c r _ hbreak ih =>
      intro hline hdone
      refine ih unbroken_nil ?_
      rw [List.forall_mem_cons]
      refine ⟨⟨line.reverse, [c], by simp, hline, .inl ?_⟩, hdone⟩
      rcases hbreak with rfl | rfl
      · exact .feed
      · exact .loneReturn
  | case4 done line c r _ hbreak ih =>
      intro hline hdone
      refine ih ?_ hdone
      simpa [unbroken_nil] using ⟨hline, hbreak⟩

theorem isTerminated_append {e : Text} (he : Terminator e) (front : Text) : isTerminated (front ++ e) = true := by
  cases he <;> simp [isTerminated]

theorem isTerminated_of_unbroken {front : Text} (h : Unbroken front) : isTerminated front = false := by
  have hlast : ∀ c, front.getLast? = some c → ¬ IsBreak c := fun c hc => h c (List.mem_of_getLast? hc)
  simp only [isTerminated, Bool.or_eq_false_iff, decide_eq_false_iff_not]
  exact ⟨fun hc => hlast _ hc (.inl rfl), fun hc => hlast _ hc (.inr rfl)⟩

theorem unbroken_of_not_isTerminated {t l : Text} (h : l ∈ terminatedLines t) (hl : isTerminated l = false) :
    Unbroken l := by
  obtain ⟨front, e, rfl, hfront, he | rfl⟩ := exists_of_mem_terminatedLines h
  · simp [isTerminated_append he] at hl
  · rwa [List.append_nil]

/-! ## Lines in a row -/

section Row

variable {l t front : Text}

/-- Lines that have been found before stay in front. -/
theorem terminatedLines.go_append (found earlier : List Text) (line t : Text) :
    go (found ++ earlier) line t = earlier.reverse ++ go found line t := by
  fun_induction go found line t with
  | case1 found line =>
      rw [go]
      split <;> simp
  | case2 found line r ih =>
      rw [go]
      exact ih
  | case3 found line c r hpair hbreak ih =>
      rw [go, if_pos hbreak]
      · exact ih
      · exact hpair
  | case4 found line c r hpair hbreak ih =>
      rw [go, if_neg hbreak]
      · exact ih
      · exact hpair

/-- Unbroken text is taken into the line that has begun. -/
theorem terminatedLines.go_unbroken (hfront : Unbroken front) (found : List Text) (line t : Text) :
    go found line (front ++ t) = go found (front.reverse ++ line) t := by
  induction front generalizing line with
  | nil => rfl
  | cons c front ih =>
      obtain ⟨hc, hfront⟩ := unbroken_cons.1 hfront
      have hnot : ¬(c = '\n' ∨ c = '\r') := hc
      rw [List.cons_append, go, if_neg hnot, ih hfront]
      · simp
      · exact fun _ hreturn _ => hnot (.inr hreturn)

/-- A terminator ends the line that has begun, if no line feed follows it. -/
theorem terminatedLines.go_terminator {e : Text} (he : Terminator e) (ht : t.head? ≠ some '\n') (line : Text) :
    go [] line (e ++ t) = (line.reverse ++ e) :: go [] [] t := by
  have hfound : ∀ x, go [x] [] t = x :: go [] [] t := fun x => go_append [] [x] [] t
  cases he with
  | feed =>
      have hfeed : go [] line (['\n'] ++ t) = go [('\n' :: line).reverse] [] t := by simp [go]
      rw [hfeed, hfound, List.reverse_cons]
  | returnFeed =>
      have hpair : go [] line (['\r', '\n'] ++ t) = go [('\n' :: '\r' :: line).reverse] [] t := by simp [go]
      rw [hpair, hfound]
      simp
  | loneReturn =>
      have hnone : ∀ r, '\r' = '\r' → t = '\n' :: r → False := by
        rintro r - rfl
        exact ht rfl
      have hreturn : go [] line (['\r'] ++ t) = go [('\r' :: line).reverse] [] t := by
        rw [List.singleton_append, go, if_pos (.inr rfl)]
        exact hnone
      rw [hreturn, hfound, List.reverse_cons]

/-- A line with its terminator is cut off, if no line feed follows it. -/
theorem terminatedLines_append (hl : IsLine l) (ht : t.head? ≠ some '\n') :
    terminatedLines (l ++ t) = l :: terminatedLines t := by
  obtain ⟨front, e, rfl, -, hfront, he⟩ := hl
  rw [terminatedLines, List.append_assoc, terminatedLines.go_unbroken hfront, terminatedLines.go_terminator he ht]
  simp [terminatedLines]

end Row

end Text

namespace Diff

/-! ## Kinds of lines -/

/-- What a line of a unified diff is. -/
inductive LineKind where
  | file
  | hunk
  | shown (mark : Mark)
  | hint
deriving DecidableEq, Repr

/-- A line of a unified diff, with its terminator. -/
structure WrittenLine where
  kind : LineKind
  text : Text
deriving DecidableEq, Repr

/-- The lines that name the files. -/
def fileLines (path : Text) : List WrittenLine :=
  [⟨.file, "--- a/".toList ++ path ++ ['\n']⟩, ⟨.file, "+++ b/".toList ++ path ++ ['\n']⟩]

/-- What is written for a line of a hunk: the line behind its mark and, if it has no terminator, the hint. -/
def HunkLine.written (l : HunkLine) : List WrittenLine :=
  if Text.isTerminated l.text then [⟨.shown l.mark, l.mark.sign :: l.text⟩]
  else [⟨.shown l.mark, l.mark.sign :: l.text ++ ['\n']⟩, ⟨.hint, "\\ No newline at end of file\n".toList⟩]

/-- What is written for a hunk: its header and its lines. -/
def Hunk.written (old new : List Text) (h : Hunk) : List WrittenLine :=
  ⟨.hunk, h.header⟩ :: (h.body old new).flatMap HunkLine.written

/-- The lines behind the names of the files. -/
def writtenLines (old new : Text) : List WrittenLine :=
  (hunks old.terminatedLines new.terminatedLines).flatMap (Hunk.written old.terminatedLines new.terminatedLines)

/-- What the lines are together. -/
def textOf (lines : List WrittenLine) : Text := lines.flatMap (·.text)

@[simp] theorem textOf_nil : textOf [] = [] := rfl

@[simp] theorem textOf_cons (l : WrittenLine) (lines : List WrittenLine) :
    textOf (l :: lines) = l.text ++ textOf lines := by simp [textOf]

@[simp] theorem textOf_append (a b : List WrittenLine) : textOf (a ++ b) = textOf a ++ textOf b := by
  simp [textOf]

theorem textOf_flatMap {α : Type} (f : α → List WrittenLine) (l : List α) :
    textOf (l.flatMap f) = l.flatMap fun a => textOf (f a) := by
  simp [textOf, List.flatMap_assoc]

theorem textOf_fileLines (path : Text) : textOf (fileLines path) = fileHeader path := by
  have hnext : ['\n'] ++ "+++ b/".toList = "\n+++ b/".toList := by decide
  calc textOf (fileLines path) = "--- a/".toList ++ path ++ (['\n'] ++ "+++ b/".toList) ++ path ++ ['\n'] := by
        simp only [fileLines, textOf_cons, textOf_nil, List.append_assoc, List.append_nil]
    _ = fileHeader path := congrArg (fun w => "--- a/".toList ++ path ++ w ++ path ++ ['\n']) hnext

theorem HunkLine.textOf_written (l : HunkLine) : textOf l.written = l.render := by
  rw [HunkLine.written, HunkLine.render]
  split <;> simp

/-- A unified diff is its lines. -/
theorem unified_eq_written {old new : Text} (path : Text) (hne : old ≠ new) :
    unified old new path = textOf (fileLines path ++ writtenLines old new) := by
  rw [(unified_eq path hne).1, textOf_append, textOf_fileLines, writtenLines, textOf_flatMap]
  simp only [Hunk.written, textOf_cons, textOf_flatMap, HunkLine.textOf_written]

/-! ## The lines behind the names of the files -/

variable {old new : List Text}

theorem mem_of_mem_stretch {α : Type} {all : List α} {i n : ℕ} {x : α} (h : x ∈ stretch all i n) : x ∈ all :=
  List.mem_of_mem_drop (List.mem_of_mem_take h)

/-- A hunk shows lines of the two texts. -/
theorem mem_or_mem_of_mem_body {h : Hunk} {l : HunkLine} (hl : l ∈ h.body old new) : l.text ∈ old ∨ l.text ∈ new := by
  obtain ⟨s, -, hl⟩ := List.mem_flatMap.1 hl
  cases s with
  | keep i j n =>
      obtain ⟨x, hx, rfl⟩ := List.mem_map.1 hl
      exact .inl (mem_of_mem_stretch hx)
  | change i n j m =>
      rcases List.mem_append.1 hl with hl | hl
      · obtain ⟨x, hx, rfl⟩ := List.mem_map.1 hl
        exact .inl (mem_of_mem_stretch hx)
      · obtain ⟨x, hx, rfl⟩ := List.mem_map.1 hl
        exact .inr (mem_of_mem_stretch hx)

theorem RangeSays.unbroken {range : Text} {a b : ℕ} (h : RangeSays range a b) : Text.Unbroken range := by
  intro c hc hbreak
  rcases hbreak with rfl | rfl
  · exact RangeSays.notMem rfl (by decide) h hc
  · exact RangeSays.notMem rfl (by decide) h hc

/-- The header of a hunk that shows something is one line. -/
theorem exists_header {h : Hunk} (hbody : h.body old new ≠ []) :
    ∃ front, h.header = '@' :: '@' :: front ++ ['\n'] ∧ Text.Unbroken front := by
  have hne : h ≠ [] := by
    intro hnil
    exact hbody (by rw [hnil]; rfl)
  obtain ⟨x, y, hheader, hx, hy⟩ :=
    headerSays_header (List.head?_eq_some_head hne) (List.getLast?_eq_some_getLast hne)
  refine ⟨" -".toList ++ x ++ " +".toList ++ y ++ " @@".toList, by simp [hheader], ?_⟩
  simp only [Text.unbroken_append]
  exact ⟨⟨⟨⟨by decide, hx.unbroken⟩, by decide⟩, hy.unbroken⟩, by decide⟩

theorem Mark.not_isBreak_sign (mark : Mark) : ¬ Text.IsBreak mark.sign := by
  cases mark <;> decide

/-- How the lines behind the names of the files begin. -/
theorem cases_of_mem_writtenLines {old new : Text} {w : WrittenLine} (hw : w ∈ writtenLines old new) :
    (∃ r, w = ⟨.hunk, '@' :: '@' :: r⟩) ∨ (∃ mark r, w = ⟨.shown mark, mark.sign :: r⟩) ∨
      w = ⟨.hint, "\\ No newline at end of file\n".toList⟩ := by
  obtain ⟨h, hh, hw⟩ := List.mem_flatMap.1 hw
  rcases List.mem_cons.1 hw with rfl | hw
  · obtain ⟨front, hheader, -⟩ := exists_header ((patches_hunks _ _).2 h hh)
    exact .inl ⟨front ++ ['\n'], by rw [hheader]; rfl⟩
  · obtain ⟨l, -, hw⟩ := List.mem_flatMap.1 hw
    rw [HunkLine.written] at hw
    split at hw
    · exact .inr (.inl ⟨l.mark, l.text, List.mem_singleton.1 hw⟩)
    · rcases List.mem_cons.1 hw with rfl | hw
      · exact .inr (.inl ⟨l.mark, l.text ++ ['\n'], rfl⟩)
      · exact .inr (.inr (List.mem_singleton.1 hw))

/-- A line of a text is written as lines. -/
theorem HunkLine.isLine_of_mem_written {t : Text} {l : HunkLine} (hl : l.text ∈ t.terminatedLines) :
    ∀ w ∈ l.written, Text.IsLine w.text := by
  obtain ⟨front, e, htext, hfront, he⟩ := Text.exists_of_mem_terminatedLines hl
  have hsigned : Text.Unbroken (l.mark.sign :: front) := Text.unbroken_cons.2 ⟨l.mark.not_isBreak_sign, hfront⟩
  rw [HunkLine.written, htext]
  rcases he with he | rfl
  · rw [if_pos (Text.isTerminated_append he front)]
    simpa using ⟨l.mark.sign :: front, e, rfl, by simp, hsigned, he⟩
  · rw [List.append_nil, if_neg (by simp [Text.isTerminated_of_unbroken hfront])]
    rw [List.forall_mem_cons, List.forall_mem_singleton]
    exact ⟨⟨l.mark.sign :: front, ['\n'], rfl, by simp, hsigned, .feed⟩,
      ⟨"\\ No newline at end of file".toList, ['\n'], by decide, by decide, by decide, .feed⟩⟩

/-- **Behind the names of the files, a unified diff consists of lines.** -/
theorem isLine_of_mem_writtenLines {old new : Text} {w : WrittenLine} (hw : w ∈ writtenLines old new) :
    Text.IsLine w.text := by
  obtain ⟨h, hh, hw⟩ := List.mem_flatMap.1 hw
  rcases List.mem_cons.1 hw with rfl | hw
  · obtain ⟨front, hheader, hfront⟩ := exists_header ((patches_hunks _ _).2 h hh)
    exact ⟨'@' :: '@' :: front, ['\n'], hheader, by simp, by simpa [Text.IsBreak] using hfront, .feed⟩
  · obtain ⟨l, hl, hw⟩ := List.mem_flatMap.1 hw
    rcases mem_or_mem_of_mem_body hl with hmem | hmem
    · exact HunkLine.isLine_of_mem_written hmem w hw
    · exact HunkLine.isLine_of_mem_written hmem w hw

end Diff
end DocSplice
