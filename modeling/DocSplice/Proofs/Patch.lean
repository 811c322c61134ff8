import DocSplice.Proofs.Tiling

/-!
# Unified diffs as patches

The hunks of two line lists are read as a patch: the kept and the removed lines of each hunk stand in the old list,
the kept and the added ones in the new list, and what lies before, between and behind the hunks is the same in
both (`Patches`). The hunks of any two lists are such a patch (`patches_hunks`), and so is every unified diff
(`unified_patches`), which writes down the hunks line by line.
-/
namespace DocSplice.Diff

variable {old new o n : List Text} {i j : ℕ}

/-! ## Patches -/

/-- The hunks turn the first list into the second: both are the same up to the first hunk, between one hunk and
the next, and behind the last one, and a hunk has its old side in the first list and its new side in the second. -/
inductive Patches : List (List HunkLine) → List Text → List Text → Prop where
  | rest (u : List Text) : Patches [] u u
  | hunk {hunks : List (List HunkLine)} {o n : List Text} (u : List Text) (lines : List HunkLine)
      (behind : Patches hunks o n) : Patches (lines :: hunks) (u ++ oldSide lines ++ o) (u ++ newSide lines ++ n)

/-- Without hunks nothing changes. -/
theorem patches_nil_iff : Patches [] o n ↔ o = n := by
  constructor
  · intro h
    cases h
    rfl
  · intro h
    exact h ▸ .rest o

/-- Without their places, hunks at places are a patch. -/
theorem PatchesAt.patches {placed : List (Placed (List HunkLine))} (h : PatchesAt i j placed o n) :
    Patches (placed.map (·.hunk)) o n := by
  induction h with
  | rest _ _ u => exact .rest u
  | hunk _ _ u lines _ ih => exact .hunk u lines ih

/-- **The hunks of two line lists are a patch from the one to the other**, and each of them shows lines. -/
theorem patches_hunks (old new : List Text) :
    Patches ((hunks old new).map (Hunk.body old new)) old new ∧
      ∀ h ∈ hunks old new, Hunk.body old new h ≠ [] := by
  obtain ⟨placed, hplaced, hpatches, hbordered⟩ := exists_placed_hunks old new
  rw [← hplaced]
  refine ⟨?_, ?_⟩
  · simpa [Placed.lines, Function.comp_def] using hpatches.patches
  · rw [List.forall_mem_map]
    intro p hp
    obtain ⟨_, _, hcovers, -⟩ := (hbordered p hp).ends
    exact body_ne_nil hcovers (hbordered p hp).ne_nil

/-- Only equal lists have no hunks. -/
theorem eq_of_hunks_eq_nil (h : hunks old new = []) : old = new := by
  have hpatches := (patches_hunks old new).1
  rw [h] at hpatches
  exact patches_nil_iff.1 hpatches

/-- A hunk that shows lines is written as its header and these lines. -/
theorem render_eq {h : Hunk} (hbody : h.body old new ≠ []) :
    h.render old new = h.header ++ (h.body old new).flatMap HunkLine.render := by
  rw [Hunk.render]
  split
  · next hnil => exact absurd hnil hbody
  · rfl

/-- The hunks of different texts are written one behind the other. -/
theorem unified_eq {old new : Text} (path : Text) (hne : old ≠ new) :
    unified old new path = fileHeader path ++ (hunks old.terminatedLines new.terminatedLines).flatMap (fun h =>
        h.header ++ (h.body old.terminatedLines new.terminatedLines).flatMap HunkLine.render) ∧
      hunks old.terminatedLines new.terminatedLines ≠ [] := by
  have hlines : old.terminatedLines ≠ new.terminatedLines :=
    (Function.LeftInverse.injective Text.flatten_terminatedLines).ne hne
  have hfound := mt eq_of_hunks_eq_nil hlines
  refine ⟨?_, hfound⟩
  rw [unified, if_neg hne]
  dsimp only
  split
  · next hnil => exact absurd hnil hfound
  · rw [List.flatMap_congr fun h hh => render_eq ((patches_hunks _ _).2 h hh)]

/-- **A unified diff is a patch from the lines of the old text to those of the new one**, written down hunk by hunk
under the two lines that name the files; equal texts have none. The lines keep their terminators, and each is
written behind its mark and, if it has no terminator, in front of a hint (`HunkLine.render`). -/
theorem unified_patches (old new path : Text) :
    (old = new → unified old new path = []) ∧
      (old ≠ new →
        let oldLines := old.terminatedLines
        let newLines := new.terminatedLines
        let found := hunks oldLines newLines
        unified old new path = fileHeader path ++ found.flatMap (fun h =>
            h.header ++ (h.body oldLines newLines).flatMap HunkLine.render) ∧
          found ≠ [] ∧ (∀ h ∈ found, h.body oldLines newLines ≠ []) ∧
          Patches (found.map (Hunk.body oldLines newLines)) oldLines newLines) := by
  refine ⟨fun heq => if_pos heq, ?_⟩
  intro hne oldLines newLines found
  obtain ⟨hpatches, hbody⟩ := patches_hunks oldLines newLines
  obtain ⟨htext, hfound⟩ := unified_eq path hne
  exact ⟨htext, hfound, hbody, hpatches⟩

/-- A text whose last line lacks its terminator, and whose first line ends in a lone carriage return. -/
theorem unified_patches_unterminated :
    unified "a\rb".toList "a\rb".toList "f".toList = [] ∧
      Patches [[⟨.kept, "a\r".toList⟩, ⟨.removed, "b".toList⟩, ⟨.added, "c\n".toList⟩]]
        ["a\r".toList, "b".toList] ["a\r".toList, "c\n".toList] ∧
      unified "a\rb".toList "a\rc\n".toList "f".toList =
        "--- a/f\n+++ b/f\n@@ -1,2 +1,2 @@\n a\r-b\n\\ No newline at end of file\n+c\n".toList := by
  have hsame := (unified_patches "a\rb".toList "a\rb".toList "f".toList).1 rfl
  obtain ⟨htext, -, -, hpatches⟩ := (unified_patches "a\rb".toList "a\rc\n".toList "f".toList).2 (by decide)
  have hfound : hunks (Text.terminatedLines "a\rb".toList) (Text.terminatedLines "a\rc\n".toList) =
      [[.keep 0 0 1, .change 1 1 1 1]] := by decide +kernel
  have hold : Text.terminatedLines "a\rb".toList = ["a\r".toList, "b".toList] := by decide +kernel
  have hnew : Text.terminatedLines "a\rc\n".toList = ["a\r".toList, "c\n".toList] := by decide +kernel
  rw [hfound] at htext hpatches
  rw [hold, hnew] at hpatches
  exact ⟨hsame, hpatches, htext.trans (by decide +kernel)⟩

end DocSplice.Diff
