import Mathlib.Algebra.BigOperators.Group.List.Basic
import DocSplice.Proofs.PrintedDiff
import DocSplice.Proofs.ShortestScript

/-!
# The least change

A unified diff removes and adds as few lines as there must be. The stretches of a comparison take over the changes of
its steps, and its hunks leave out nothing but kept lines, so that they show as many removed and added lines as the two
line lists are apart (`countP_isChange_hunks`). No patch from the one list to the other shows fewer
(`distance_le_of_patches`). The main statement counts the lines in the text that is written (`unified_least_change`):
behind the names of the files, this is cut into just the lines that were written (`terminatedLines_textOf`).
-/
namespace DocSplice

namespace Diff

open scoped List

variable {old new : List Text} {i j i' j' : ℕ} {steps run : List Step} {first : Step}

/-! ## The changes of a hunk -/

namespace Stretch

/-- The number of elements that the stretch changes. -/
def changes : Stretch → ℕ
  | keep _ _ _ => 0
  | change _ n _ m => n + m

@[simp] theorem changes_keep (k l n : ℕ) : (keep k l n).changes = 0 := rfl

/-- A run that is joined into one stretch gives it its changes. -/
theorem changes_ofRun (hrun : ∀ s ∈ first :: run, (s.kind = .keep ↔ first.kind = .keep)) :
    (ofRun first (first :: run)).changes = Step.changes (first :: run) := by
  rw [ofRun]
  split_ifs with hfirst
  · have hkept : (first :: run).filter (·.kind ≠ .keep) = [] := by
      rw [List.filter_eq_nil_iff]
      intro s hs
      simp [(hrun s hs).2 hfirst]
    rw [Step.changes, hkept]
    rfl
  · exact (Step.changes_eq_total _).symm

end Stretch

namespace Hunk

/-- The number of elements that the stretches change. -/
def changes (h : Hunk) : ℕ := (h.map Stretch.changes).sum

@[simp] theorem changes_nil : changes [] = 0 := rfl

@[simp] theorem changes_cons (s : Stretch) (h : Hunk) : changes (s :: h) = s.changes + changes h := by
  simp [changes]

@[simp] theorem changes_append (a b : Hunk) : changes (a ++ b) = changes a + changes b := by simp [changes]

@[simp] theorem changes_reverse (h : Hunk) : changes h.reverse = changes h := by simp [changes]

theorem changes_runs {runs : List (List Step)} (hne : [] ∉ runs)
    (hchain : ∀ run ∈ runs, run.IsChain fun a b => ((a.kind == .keep) == (b.kind == .keep)) = true) :
    changes (runs.filterMap fun run => run.head?.map fun first => Stretch.ofRun first run) =
      Step.changes runs.flatten := by
  induction runs with
  | nil => rfl
  | cons run runs ih =>
      obtain ⟨hrun, hruns⟩ := List.forall_mem_cons.1 hchain
      obtain ⟨hnil, hne'⟩ := not_or.1 (List.mem_cons.not.1 hne)
      obtain ⟨first, run, rfl⟩ := List.exists_cons_of_ne_nil (Ne.symm hnil)
      have hfirst := Stretch.changes_ofRun (kept_iff_of_isChain hrun)
      rw [List.flatten_cons, Step.changes_append, ← ih hne' hruns, ← hfirst]
      simp

/-- **The stretches of a script change what its steps change.** -/
theorem changes_ofSteps (steps : List Step) : changes (Stretch.ofSteps steps) = Step.changes steps := by
  have hruns := changes_runs (List.nil_notMem_splitBy _ _) fun run hrun =>
    List.isChain_of_mem_splitBy (l := steps) (r := fun a b => (a.kind == .keep) == (b.kind == .keep)) hrun
  rwa [List.flatten_splitBy] at hruns

/-! ## The changes of all hunks -/

theorem changes_trimStart (h : Hunk) : changes (trimStart h) = changes h := by
  unfold trimStart
  split <;> simp

theorem changes_trimEnd (h : Hunk) : changes (trimEnd h) = changes h := by
  unfold trimEnd
  split
  · next k l n rest hreverse =>
    rw [← changes_reverse h, hreverse]
    simp
  · rfl

theorem changes_flatten_go (pending rest : List Stretch) :
    changes (cut.go [] pending rest).flatten = changes pending + changes rest := by
  induction rest generalizing pending with
  | nil =>
      simp only [cut.go]
      split <;> simp
  | cons s rest ih =>
      cases s with
      | keep k l n =>
          rw [cut.go]
          split_ifs
          · rw [cut.go_eq]
            simp [ih]
          · simp [ih]
      | change k n l m =>
          have hpending : cut.go [] pending (.change k n l m :: rest) =
              cut.go [] (.change k n l m :: pending) rest := rfl
          rw [hpending, ih, changes_cons, changes_cons]
          omega

/-- **The hunks of two line lists change as many lines as the lists are apart.** -/
theorem changes_hunks (old new : List Text) : changes (hunks old new).flatten = distance old new := by
  rw [hunks, ofStretches, cut, changes_flatten_go, changes_trimEnd, changes_trimStart, changes_ofSteps,
    changes_compact, changes_script, changes_nil, Nat.zero_add]

end Hunk

/-! ## Removed and added lines -/

/-- The line is removed or added. -/
def HunkLine.isChange (l : HunkLine) : Bool := l.mark ≠ .kept

theorem countP_map_mark (mark : Mark) (lines : List Text) :
    (lines.map (⟨mark, ·⟩)).countP HunkLine.isChange = if mark = .kept then 0 else lines.length := by
  rw [List.countP_map]
  split_ifs with hmark <;> simp [HunkLine.isChange, hmark, Function.comp_def]

/-- A hunk that leads over something shows its changes. -/
theorem countP_isChange_body {h : Hunk} (hcovers : Covers old new i j h i' j') :
    (h.body old new).countP HunkLine.isChange = h.changes := by
  induction hcovers with
  | nil => rfl
  | @cons i j _ _ s h fits _ ih =>
      rw [Hunk.body] at ih
      rw [Hunk.body, List.flatMap_cons, List.countP_append, ih, Hunk.changes_cons, Nat.add_right_cancel_iff]
      cases s with
      | keep k l n => rw [Stretch.body, countP_map_mark, if_pos rfl, Stretch.changes]
      | change k n l m =>
          have hlength : ∀ {all : List Text} {at' count start : ℕ}, (count ≠ 0 → start = at') →
              at' + count ≤ all.length → (stretch all start count).length = count := by
            intro all at' count start hstart hle
            by_cases hcount : count = 0
            · simp [hcount]
            · rw [hstart hcount, length_stretch hle]
          have hold : (stretch old k n).length = n := hlength fits.oldStart fits.old_le
          have hnew : (stretch new l m).length = m := hlength fits.newStart fits.new_le
          rw [Stretch.body, List.countP_append, countP_map_mark, countP_map_mark, if_neg (by decide),
            if_neg (by decide), hold, hnew, Stretch.changes]

/-- **The hunks of two line lists show as many removed and added lines as the lists are apart.** -/
theorem countP_isChange_hunks (old new : List Text) :
    ((hunks old new).flatMap (Hunk.body old new)).countP HunkLine.isChange = distance old new := by
  obtain ⟨placed, hplaced, -, hbordered⟩ := exists_placed_hunks old new
  rw [← Hunk.changes_hunks, ← hplaced]
  clear hplaced
  induction placed with
  | nil => rfl
  | cons p placed ih =>
      obtain ⟨hp, hrest⟩ := List.forall_mem_cons.1 hbordered
      obtain ⟨_, _, hcovers, -⟩ := hp.ends
      simp [ih hrest, countP_isChange_body hcovers]

/-! ## No patch shows fewer -/

theorem oldSide_cons (l : HunkLine) (lines : List HunkLine) :
    oldSide (l :: lines) = if l.mark = .added then oldSide lines else l.text :: oldSide lines := by
  by_cases hmark : l.mark = .added <;> simp [oldSide, hmark]

theorem newSide_cons (l : HunkLine) (lines : List HunkLine) :
    newSide (l :: lines) = if l.mark = .removed then newSide lines else l.text :: newSide lines := by
  by_cases hmark : l.mark = .removed <;> simp [newSide, hmark]

/-- The lines that a hunk keeps stand on both of its sides, and the others on one. -/
theorem exists_kept (lines : List HunkLine) : ∃ kept : List Text, kept <+ oldSide lines ∧ kept <+ newSide lines ∧
    lines.countP HunkLine.isChange + 2 * kept.length = (oldSide lines).length + (newSide lines).length := by
  induction lines with
  | nil => exact ⟨[], List.Sublist.refl _, List.Sublist.refl _, rfl⟩
  | cons l lines ih =>
      obtain ⟨kept, hold, hnew, hcount⟩ := ih
      obtain ⟨mark, text⟩ := l
      simp only [oldSide_cons, newSide_cons, List.countP_cons, HunkLine.isChange] at hcount ⊢
      cases mark with
      | kept =>
          refine ⟨text :: kept, hold.cons_cons text, hnew.cons_cons text, ?_⟩
          simp
          omega
      | removed =>
          refine ⟨kept, hold.cons text, hnew, ?_⟩
          simp
          omega
      | added =>
          refine ⟨kept, hold, hnew.cons text, ?_⟩
          simp
          omega

/-- **Every patch shows as many removed and added lines as the two lists are apart at least.** -/
theorem distance_le_of_patches {patch : List (List HunkLine)} (h : Patches patch old new) :
    distance old new ≤ patch.flatten.countP HunkLine.isChange := by
  induction h with
  | rest u => simp [distance_eq_zero_iff.2]
  | @hunk patch o n u lines _ ih =>
      obtain ⟨kept, hold, hnew, hcount⟩ := exists_kept lines
      have hlines := distance_add_le hold hnew
      have happend := distance_append_le (oldSide lines) o (newSide lines) n
      rw [List.append_assoc, List.append_assoc, distance_append_left, List.flatten_cons, List.countP_append]
      omega

/-! ## Counting in the text -/

/-- The line of a unified diff is marked as removed or as added. -/
def showsChange (line : Text) : Bool :=
  line.head? = some Mark.removed.sign || line.head? = some Mark.added.sign

theorem HunkLine.countP_written (l : HunkLine) :
    (l.written.map (·.text)).countP showsChange = if l.isChange then 1 else 0 := by
  obtain ⟨mark, text⟩ := l
  rw [written]
  split <;> cases mark <;> simp [showsChange, Mark.sign, isChange]

/-- What is written for a hunk is marked as the lines that it shows. -/
theorem Hunk.countP_written {h : Hunk} (hbody : h.body old new ≠ []) :
    ((h.written old new).map (·.text)).countP showsChange = (h.body old new).countP HunkLine.isChange := by
  obtain ⟨front, hheader, -⟩ := exists_header hbody
  have hplace : showsChange h.header = false := by
    rw [hheader]
    simp [showsChange, Mark.sign]
  rw [written, List.map_cons, List.countP_cons, hplace]
  generalize h.body old new = lines
  induction lines with
  | nil => rfl
  | cons l lines ih =>
      simp only [Bool.false_eq_true, if_false, Nat.add_zero] at ih ⊢
      rw [List.flatMap_cons, List.map_append, List.countP_append, ih, HunkLine.countP_written, List.countP_cons,
        Nat.add_comm]

theorem countP_writtenLines (old new : Text) : ((writtenLines old new).map (·.text)).countP showsChange =
    distance old.terminatedLines new.terminatedLines := by
  rw [← countP_isChange_hunks, writtenLines]
  have hbody := (patches_hunks old.terminatedLines new.terminatedLines).2
  generalize hunks old.terminatedLines new.terminatedLines = found at hbody
  induction found with
  | nil => rfl
  | cons h found ih =>
      obtain ⟨hh, hfound⟩ := List.forall_mem_cons.1 hbody
      rw [List.flatMap_cons, List.flatMap_cons, List.map_append, List.countP_append, List.countP_append,
        Hunk.countP_written hh, ih hfound]

/-- The lines of a unified diff can be told apart in its text. -/
theorem terminatedLines_textOf {lines : List WrittenLine} (h : ∀ w ∈ lines, Text.IsLine w.text) :
    (textOf lines).terminatedLines = lines.map (·.text) := by
  induction lines with
  | nil => rfl
  | cons w lines ih =>
      obtain ⟨hw, hlines⟩ := List.forall_mem_cons.1 h
      have hhead := head?_textOf_ne fun w hw => head?_ne_of_isLine (hlines w hw)
      rw [textOf_cons, Text.terminatedLines_append hw hhead, ih hlines, List.map_cons]

/-- **A unified diff shows no more change than there is.** Behind the names of the files, the lines of its text that are
marked as removed or added are as many as the lines of both texts that a longest common subsequence leaves over; no
patch from the lines of the one text to those of the other shows fewer. Equal texts have no diff. -/
theorem unified_least_change (old new path : Text) :
    let oldLines := old.terminatedLines
    let newLines := new.terminatedLines
    ∃ (shown : Text) (common : List Text),
      unified old new path = (if old = new then [] else fileHeader path) ++ shown ∧
        IsLongestCommon common oldLines newLines ∧
        shown.terminatedLines.countP showsChange + 2 * common.length = oldLines.length + newLines.length ∧
        ∀ patch : List (List HunkLine), Patches patch oldLines newLines →
          shown.terminatedLines.countP showsChange ≤ patch.flatten.countP HunkLine.isChange := by
  intro oldLines newLines
  obtain ⟨common, hcommon, hlength⟩ := exists_isLongestCommon oldLines newLines
  suffices hshown : ∃ shown : Text, unified old new path = (if old = new then [] else fileHeader path) ++ shown ∧
      shown.terminatedLines.countP showsChange = distance oldLines newLines by
    obtain ⟨shown, htext, hcount⟩ := hshown
    rw [← hcount] at hlength
    refine ⟨shown, common, htext, hcommon, hlength, ?_⟩
    intro patch hpatch
    exact hcount ▸ distance_le_of_patches hpatch
  by_cases heq : old = new
  · refine ⟨[], ?_, ?_⟩
    · rw [unified, if_pos heq, if_pos heq, List.append_nil]
    · rw [distance_eq_zero_iff.2 (congrArg Text.terminatedLines heq)]
      rfl
  · refine ⟨textOf (writtenLines old new), ?_, ?_⟩
    · rw [if_neg heq, unified_eq_written path heq, textOf_append, textOf_fileLines]
    · rw [terminatedLines_textOf fun _ => isLine_of_mem_writtenLines, countP_writtenLines]

/-- Two lines that have changed places: one of them is shown as removed and added, while the patch that replaces
everything shows both. -/
theorem unified_least_change_swapped :
    let oldLines := ["a\n".toList, "b\n".toList]
    let newLines := ["b\n".toList, "a\n".toList]
    let shown : Text := "@@ -1,2 +1,2 @@\n+b\n a\n-b\n".toList
    let patch : List (List HunkLine) := [oldLines.map (⟨.removed, ·⟩) ++ newLines.map (⟨.added, ·⟩)]
    unified "a\nb\n".toList "b\na\n".toList "f".toList = fileHeader "f".toList ++ shown ∧
      (∃ common, IsLongestCommon common oldLines newLines ∧
        shown.terminatedLines.countP showsChange + 2 * common.length = oldLines.length + newLines.length) ∧
      Patches patch oldLines newLines ∧
      shown.terminatedLines.countP showsChange ≤ patch.flatten.countP HunkLine.isChange := by
  intro oldLines newLines shown patch
  obtain ⟨shown', common, htext, hcommon, hcount, hleast⟩ :=
    unified_least_change "a\nb\n".toList "b\na\n".toList "f".toList
  have hold : Text.terminatedLines "a\nb\n".toList = oldLines := by decide +kernel
  have hnew : Text.terminatedLines "b\na\n".toList = newLines := by decide +kernel
  have hunified : unified "a\nb\n".toList "b\na\n".toList "f".toList = fileHeader "f".toList ++ shown := by
    decide +kernel
  rw [hunified, if_neg (by decide)] at htext
  obtain rfl : shown = shown' := List.append_cancel_left htext
  rw [hold, hnew] at hcommon hcount hleast
  have hpatch : Patches patch oldLines newLines := .hunk [] _ (.rest [])
  exact ⟨hunified, ⟨common, hcommon, hcount⟩, hpatch, hleast patch hpatch⟩

end Diff
end DocSplice
