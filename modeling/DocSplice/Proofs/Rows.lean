import Mathlib.Data.List.DropRight
import Mathlib.Data.List.Forall2
import Mathlib.Data.List.Induction
import DocSplice.Proofs.Block

/-!
# The rows of a block

A block is made of rows: the lines of the examples, each without its blank end, or one empty row where there are no
lines (`render_eq_rows`). No row holds a line feed, so a block that is cut at its line feeds gives its rows back, each
behind the indent. Two examples are shown alike only if they have the same rows.
-/
namespace DocSplice

namespace Text

/-! ## Lines without their blank ends -/

/-- The text does not end in a blank. -/
def EndsPlain (t : Text) : Prop := ∀ c ∈ t.getLast?, isBlank c = false

/-- The longest text at the head of a line that does not end in a blank. -/
structure Trimmed (line t : Text) : Prop where
  front : t <+: line
  plain : EndsPlain t
  longest : ∀ u, u <+: line → EndsPlain u → u.length ≤ t.length

theorem trimEnd_eq (line : Text) : trimEnd line = line.rdropWhile isBlank := rfl

theorem isPrefix_trimEnd (line : Text) : trimEnd line <+: line := by
  rw [trimEnd_eq]
  exact List.rdropWhile_prefix isBlank line

theorem endsPlain_trimEnd (line : Text) : EndsPlain (trimEnd line) := by
  intro c hc
  rw [trimEnd_eq] at hc
  obtain ⟨hne, rfl⟩ := List.mem_getLast?_eq_getLast hc
  exact Bool.eq_false_iff.2 (List.rdropWhile_last_not isBlank line hne)

theorem length_le_trimEnd {line u : Text} (hfront : u <+: line) (hplain : EndsPlain u) :
    u.length ≤ (trimEnd line).length := by
  induction line using List.reverseRecOn with
  | nil => exact hfront.length_le
  | append_singleton l c ih =>
      rw [trimEnd_eq, List.rdropWhile_concat]
      split
      · next hc =>
        rcases List.prefix_concat_iff.1 hfront with rfl | hfront
        · exact absurd (hplain c (by simp)) (by simp [hc])
        · exact ih hfront
      · exact hfront.length_le

/-- The cut of the blank end leaves the longest text that does not end in a blank. -/
theorem trimmed_trimEnd (line : Text) : Trimmed line (trimEnd line) :=
  ⟨isPrefix_trimEnd line, endsPlain_trimEnd line, fun _ => length_le_trimEnd⟩

end Text

namespace Block

open Text

/-! ## Rows -/

/-- The rows of the block, indent apart: the shown lines, or one empty row where the examples have no lines. -/
def rows (examples : Text) : List Text :=
  if examples.lines = [] then [[]] else shownLines examples

theorem rows_ne_nil (e : Text) : rows e ≠ [] := by
  rw [rows]
  split
  · simp
  · next h => simpa [shownLines] using h

theorem lineFeed_not_mem_of_mem_rows {e row : Text} (h : row ∈ rows e) : '\n' ∉ row := by
  rw [rows] at h
  split at h
  · simp [List.mem_singleton.1 h]
  · obtain ⟨line, hline, rfl⟩ := List.mem_map.1 h
    exact fun hmem => lineFeed_not_mem_of_mem_lines hline ((isPrefix_trimEnd line).subset hmem)

/-- A block is its rows, joined by line feeds, and one more line feed on either side. -/
theorem render_eq_rows (e : Text) :
    render e = '\n' :: (['\n'].intercalate ((rows e).map (indent ++ ·)) ++ ['\n']) := by
  have hrender : render e = gap ++ gap.intercalate (shownLines e) ++ ['\n'] := rfl
  rw [hrender, rows, shownLines]
  cases e.lines with
  | nil => rfl
  | cons l ls =>
      have hgap : gap ++ gap.intercalate ((l :: ls).map trimEnd)
          = ['\n'] ++ ['\n'].intercalate (((l :: ls).map trimEnd).map (indent ++ ·)) := by
        simp only [List.map_cons, append_intercalate]
        simp [gap, List.flatMap_map]
      rw [if_neg (by simp), hgap]
      simp

/-- A block that is cut at its line feeds gives its rows back. -/
theorem splitOn_joined (e : Text) :
    (['\n'].intercalate ((rows e).map (indent ++ ·))).splitOn '\n' = (rows e).map (indent ++ ·) := by
  apply List.splitOn_intercalate
  · intro l hl
    obtain ⟨row, hrow, rfl⟩ := List.mem_map.1 hl
    have hindent : '\n' ∉ indent := by decide
    simp [hindent, lineFeed_not_mem_of_mem_rows hrow]
  · simpa using rows_ne_nil e

/-- **A block shows every line of the examples, and joins none of them.** Without its first and last line feed, and
cut at the others, it gives one row for each line, the indent and the longest text at the head of the line that does
not end in a blank. So two examples are shown alike exactly if they have the same rows. -/
theorem render_rows (examples : Text) :
    (∃ inner, render examples = '\n' :: (inner ++ ['\n']) ∧
      inner.splitOn '\n' = (rows examples).map (List.replicate 4 ' ' ++ ·)) ∧
    (examples.lines = [] → rows examples = [[]]) ∧
    (examples.lines ≠ [] → List.Forall₂ Trimmed examples.lines (rows examples)) ∧
    ∀ other, render examples = render other ↔ rows examples = rows other := by
  refine ⟨⟨_, render_eq_rows examples, splitOn_joined examples⟩, ?_, ?_, ?_⟩
  · exact fun h => if_pos h
  · intro h
    rw [rows, if_neg h, shownLines, List.forall₂_map_right_iff, List.forall₂_same]
    exact fun line _ => trimmed_trimEnd line
  · intro other
    constructor
    · intro h
      rw [render_eq_rows, render_eq_rows, List.cons.injEq, List.append_cancel_right_eq] at h
      have hrows := congrArg (List.splitOn '\n') h.2
      rw [splitOn_joined, splitOn_joined] at hrows
      exact List.map_injective_iff.2 (List.append_right_injective indent) hrows
    · intro h
      rw [render_eq_rows, render_eq_rows, h]

example : rows "a \t\r\n\r\n  b\rc\r".toList = ["a".toList, [], "  b\rc".toList] := by decide +kernel

end Block
end DocSplice
