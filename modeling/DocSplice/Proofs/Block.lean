import Mathlib.Data.List.TakeWhile
import DocSplice.Block
import DocSplice.Proofs.Line
import DocSplice.Proofs.Place

/-!
# What a block shows of the examples

A block changes the ends of lines and indents them, and keeps everything else. So a word that stays on one line
and does not touch the blanks at either end of it (`IsPlain`) stands in the block exactly where it stands in the
examples (`infix_render_iff`): the block neither brings it in nor takes it out.
-/
namespace DocSplice.Block

open Text

/-- A word on one line that begins with no space and ends in no blank. -/
structure IsPlain (w : Text) : Prop where
  lineFeed_not_mem : '\n' ∉ w
  head : ∃ c v, w = c :: v ∧ c ≠ ' '
  last : ∃ v c, w = v ++ [c] ∧ isBlank c = false

variable {w : Text}

/-! ## Lines -/

/-- A word that ends in no blank does not reach into the blank end of a text. -/
theorem infix_trimEnd_iff (hw : IsPlain w) (l : Text) : w <:+: trimEnd l ↔ w <:+: l := by
  obtain ⟨v, c, hlast, hc⟩ := hw.last
  have hsplit : l = trimEnd l ++ (l.reverse.takeWhile isBlank).reverse := by
    rw [trimEnd, ← List.reverse_append, List.takeWhile_append_dropWhile, List.reverse_reverse]
  have hmem : c ∉ (l.reverse.takeWhile isBlank).reverse := by
    intro hmem
    have := List.mem_takeWhile_imp (List.mem_reverse.1 hmem)
    simp [hc] at this
  conv_rhs => rw [hsplit, infix_append_right_iff hlast hmem]

/-- What a line loses of its piece is no part of a word that ends in no blank. -/
theorem infix_chomp_iff (hw : IsPlain w) (l : Text) : w <:+: chomp (l ++ ['\n']) ↔ w <:+: l := by
  obtain ⟨v, c, hlast, hc⟩ := hw.last
  have hreturn : c ∉ ['\r'] := by
    intro h
    rw [List.mem_singleton.1 h] at hc
    revert hc
    decide
  rw [chomp_append]
  split
  · next h =>
    obtain ⟨l, rfl⟩ := List.getLast?_eq_some_iff.1 h
    rw [List.dropLast_concat, infix_append_right_iff hlast hreturn]
  · rfl

/-- A word that stays on one line stands in a text where it stands in one of its lines. -/
theorem infix_iff_exists_line (hw : IsPlain w) (t : Text) : w <:+: t ↔ ∃ l ∈ lines t, w <:+: l := by
  obtain ⟨c, v, hhead, -⟩ := hw.head
  induction t using line_induction with
  | nil => simp [lines, hhead]
  | rest l hl h => simp [lines_of_not_mem hl h]
  | line l t h ih =>
      rw [infix_append_cons_iff hw.lineFeed_not_mem, ih, lines_append_cons h, ← infix_chomp_iff hw l]
      simp

/-! ## The block -/

/-- A block begins with one line feed. -/
theorem exists_render_eq_cons (e : Text) : ∃ r, render e = '\n' :: r ∧ r.head? ≠ some '\n' :=
  ⟨_, rfl, by simp [indent]⟩

/-- A block ends in a line feed. -/
theorem exists_render_eq (e : Text) : ∃ u, render e = u ++ ['\n'] := ⟨_, rfl⟩

/-- What stands before every line. -/
def gap : Text := '\n' :: indent

/-- Joined texts, with the separator before the first one as well. -/
theorem append_intercalate (sep l : Text) (ls : List Text) :
    sep ++ sep.intercalate (l :: ls) = (l :: ls).flatMap (sep ++ ·) := by
  induction ls generalizing l with
  | nil => simp
  | cons m ls ih =>
      rw [List.intercalate_cons_cons, List.append_assoc l, ih m]
      simp

/-- What a plain word begins with stands in no gap. -/
theorem IsPlain.exists_head (hw : IsPlain w) : ∃ c v, w = c :: v ∧ c ≠ '\n' ∧ c ∉ gap := by
  obtain ⟨c, v, hhead, hc⟩ := hw.head
  have hline : c ≠ '\n' := by
    intro h
    apply hw.lineFeed_not_mem
    simp [hhead, h]
  exact ⟨c, v, hhead, hline, by simp [gap, indent, hc, hline]⟩

/-- A word that begins with no space stands in no indent and across no line feed. -/
theorem infix_flatMap_gap_iff (hw : IsPlain w) (ls : List Text) :
    w <:+: ls.flatMap (gap ++ ·) ↔ ∃ l ∈ ls, w <:+: l := by
  obtain ⟨c, v, hhead, hline, hgap⟩ := hw.exists_head
  induction ls with
  | nil => simp [hhead]
  | cons l ls ih =>
      have hsplit : w <:+: l ++ ls.flatMap (gap ++ ·) ↔ w <:+: l ∨ w <:+: ls.flatMap (gap ++ ·) := by
        cases ls with
        | nil => simp [hhead]
        | cons m ls =>
            have hrest : (m :: ls).flatMap (gap ++ ·) = '\n' :: (indent ++ m ++ ls.flatMap (gap ++ ·)) := by
              simp [gap]
            have hcons : w <:+: '\n' :: (indent ++ m ++ ls.flatMap (gap ++ ·)) ↔
                w <:+: indent ++ m ++ ls.flatMap (gap ++ ·) := by
              have := infix_append_left_iff (s := ['\n']) (t := indent ++ m ++ ls.flatMap (gap ++ ·)) hhead
                (by simpa using hline)
              simpa using this
            rw [hrest, infix_append_cons_iff hw.lineFeed_not_mem, hcons]
      rw [List.flatMap_cons, List.append_assoc, infix_append_left_iff hhead hgap, hsplit]
      simp [ih]

/-- **The block shows no word that the examples do not hold, and loses none of them.** This is so for words on
one line that do not touch its blanks. -/
theorem infix_render_iff (hw : IsPlain w) (examples : Text) :
    w <:+: render examples ↔ w <:+: examples := by
  obtain ⟨c, v, hhead, -, hgap⟩ := hw.exists_head
  have hend : w <:+: render examples ↔ w <:+: gap ++ gap.intercalate (shownLines examples) := by
    have hrender : render examples = gap ++ gap.intercalate (shownLines examples) ++ '\n' :: [] := rfl
    rw [hrender, infix_append_cons_iff hw.lineFeed_not_mem]
    simp [hhead]
  have hshown : w <:+: gap ++ gap.intercalate (shownLines examples) ↔
      ∃ l ∈ shownLines examples, w <:+: l := by
    rw [← infix_flatMap_gap_iff hw]
    cases hls : shownLines examples with
    | nil =>
        have hnone := infix_append_left_iff (t := []) hhead hgap
        simpa using hnone
    | cons l ls => rw [append_intercalate]
  rw [hend, hshown, infix_iff_exists_line hw examples]
  simp only [shownLines, List.mem_map, exists_exists_and_eq_and, infix_trimEnd_iff hw]

end DocSplice.Block
