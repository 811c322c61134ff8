import DocSplice.Proofs.Stacking

/-!
# Openings and the lines they end

A strict opening ends an opening line. So the stacking policy finds the markers wherever the replacing policy does
(`isSome_loose?_of_isSome_strict?`). The line it takes is the last one with a closing behind it, and a strict opening
with a closing behind it ends this line or an earlier one (`LastSplit.opening_kept`).
-/
namespace DocSplice

namespace Marker

variable {t front front' line line' rest rest' : Text}

/-- The comment of a strict opening, without its line feed. -/
def openingComment : Text := "BEGIN EXAMPLES -->".toList

theorem openingTail_eq : openingTail = openingComment ++ ['\n'] := by decide

theorem openingWord_infix_openingComment : openingWord <:+: openingComment := ⟨[], " -->".toList, by decide⟩

/-- Of two opening lines, the one that begins first ends first. -/
theorem OpeningLine.prefix_of_le (h : OpeningLine t front line rest) (h' : OpeningLine t front' line' rest')
    (hle : front.length ≤ front'.length) : front ++ line ++ ['\n'] <+: front' ++ line' ++ ['\n'] := by
  have hsame : front ++ (line ++ '\n' :: rest) = front' ++ (line' ++ '\n' :: rest') := by
    simpa using h.whole.symm.trans h'.whole
  obtain ⟨m, hfront, hline⟩ := exists_between hsame hle
  have hshort : line <+: m ++ line' := by
    refine prefix_of_prefix_append_cons h.single (t := rest') ?_
    exact ⟨'\n' :: rest, by simpa using hline⟩
  have hwhole : front ++ line ++ ['\n'] <+: t := ⟨rest, by simp [h.whole]⟩
  have hwhole' : front' ++ line' ++ ['\n'] <+: t := ⟨rest', by simp [h'.whole]⟩
  refine List.prefix_of_prefix_length_le hwhole hwhole' ?_
  have := hshort.length_le
  simp only [hfront, List.length_append, List.length_singleton] at this ⊢
  omega

end Marker

namespace Sections

open Marker

variable {t p r s P l R E S : Text} {k : ℕ}

/-- The opening of a split ends an opening line. -/
theorem StrictSplit.exists_openingLine (h : StrictSplit t p r s) :
    ∃ front line, front ++ line ++ ['\n'] = p ++ openingTail ∧
      OpeningLine t front line (r ++ closingHead ++ s) := by
  obtain ⟨front, start, rfl, hends, hstart⟩ := Text.exists_lastLine p
  refine ⟨front, start ++ openingComment, by simp [openingTail_eq], ?_, hends, ?_, ?_⟩
  · rw [h, openingTail_eq]
    simp
  · have hcomment : '\n' ∉ openingComment := by decide
    simp [hstart, hcomment]
  · exact openingWord_infix_openingComment.trans (List.suffix_append _ _).isInfix

/-- An opening line with the closing of a split behind it. -/
theorem StrictSplit.exists_opens (h : StrictSplit t p r s) :
    ∃ front line, front ++ line ++ ['\n'] = p ++ openingTail ∧ Opens t front line := by
  obtain ⟨front, line, hend, hline⟩ := h.exists_openingLine
  exact ⟨front, line, hend, _, hline, closes_of_isClosing isClosing_closingHead r s⟩

/-- The stacking policy finds the markers wherever the replacing policy does. -/
theorem isSome_loose?_of_isSome_strict? (h : (strict? t).isSome) : (loose? t).isSome := by
  obtain ⟨p, r, s, hsplit⟩ := isSome_strict?_iff.1 h
  obtain ⟨front, line, -, hopens⟩ := hsplit.exists_opens
  exact isSome_loose?_iff.2 ⟨front, line, hopens⟩

/-- A strict opening with a closing behind it is kept, with all that stands before it. -/
theorem LastSplit.opening_kept (h : LastSplit t P l k R E S) (hs : StrictSplit t p r s) :
    p ++ openingTail <+: P ++ stacked l k := by
  obtain ⟨front, line, hend, rest, hline, hcloses⟩ := hs.exists_opens
  obtain ⟨rest', hlast, -⟩ := h.opens
  have hle : front.length ≤ P.length := h.front_ge front line ⟨rest, hline, hcloses⟩
  have hkept : P ++ l ++ ['\n'] <+: P ++ stacked l k :=
    ⟨List.replicate k '\n', by simp [stacked, List.replicate_succ]⟩
  rw [← hend]
  exact (hline.prefix_of_le hlast hle).trans hkept

end Sections
end DocSplice
