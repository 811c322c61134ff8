import Mathlib.Logic.Function.Iterate
import DocSplice.Proofs.FixedPoint
import DocSplice.Proofs.Series

/-!
# Repeated updates under the replacing policy

An update whose block holds no closing leaves a document that every later update treats like the one before it
(`updated_updated`). So of a series of such updates only the last one counts (`updatedBy_last_counts`).

A block that holds a closing becomes the body only up to its first closing. The rest of it stays behind the body,
and every further update leaves one more such rest there (`iterate_refreshed`). So an update that is repeated with
the same examples either changes nothing or adds to the document without end (`refreshed_fixed_or_growing`).
-/
namespace DocSplice

open Marker Sections

/-- Of a block that holds a closing, only what stands before the first one becomes the body. -/
theorem Sections.ShortestSplit.fill_closing {t p r s u v : Text} (h : ShortestSplit t p r s)
    (hfirst : FirstPlace (closingHead <+: ·) u (closingHead ++ v)) :
    ShortestSplit (p ++ openingTail ++ (u ++ closingHead ++ v) ++ closingHead ++ s) p u
      (v ++ closingHead ++ s) := by
  have hclosing : FirstPlace (closingHead <+: ·) u (closingHead ++ (v ++ closingHead ++ s)) :=
    hfirst.congr_rest _
  simpa using shortestSplit_of_firstPlace (h.opening.congr_rest _) hclosing

namespace Plan

variable {t p r s u v e : Text}

/-- A document without the markers stays as it is. -/
theorem updated_eq_of_not_matched (h : ¬ ∃ p r s, ShortestSplit t p r s) (e : Text) :
    (make .replacing t e).updated = t := by
  have hmatched : (make .replacing t e).matched = false := Bool.eq_false_iff.2 (mt matched_iff.1 h)
  rw [matched_make, Option.isSome_eq_false_iff, Option.isNone_iff_eq_none] at hmatched
  exact updated_eq_of_none hmatched e

/-! ## Updates with different examples -/

/-- After an update the markers are found if they were found before. -/
theorem matched_updated_eq (t e e' : Text) :
    (make .replacing (make .replacing t e).updated e').matched = (make .replacing t e').matched := by
  by_cases h : ∃ p r s, ShortestSplit t p r s
  · rw [matched_iff.2 h, matched_updated (matched_iff.2 h)]
  · rw [updated_eq_of_not_matched h]

/-- An update whose examples hold no closing leaves no trace in the next one. -/
theorem updated_updated (he : ¬ closingHead <:+: e) (t e' : Text) :
    (make .replacing (make .replacing t e).updated e').updated = (make .replacing t e').updated := by
  by_cases h : ∃ p r s, ShortestSplit t p r s
  · obtain ⟨p, r, s, h⟩ := h
    rw [updated_eq h e, updated_eq (h.fill he) e', updated_eq h e']
  · rw [updated_eq_of_not_matched h e]

/-- **The last update counts.** If no examples but the last ones hold a closing, a series of updates gives what the
last one alone would have given. Without a closing in these either, the block that shows them is the body. -/
theorem updatedBy_last_counts (document : Text) (earlier : List Text) (examples : Text)
    (h : ∀ e ∈ earlier, ¬ closingHead <:+: e) :
    (make .replacing (updatedBy document (earlier.map (Policy.replacing, ·))) examples).updated
        = (make .replacing document examples).updated ∧
    (make .replacing (updatedBy document (earlier.map (Policy.replacing, ·))) examples).matched
        = (make .replacing document examples).matched ∧
    ((make .replacing document examples).matched = true → ¬ closingHead <:+: examples →
      Policy.replacing.body?
          (make .replacing (updatedBy document (earlier.map (Policy.replacing, ·))) examples).updated
        = some (Block.render examples)) := by
  induction earlier generalizing document with
  | nil =>
      refine ⟨rfl, rfl, ?_⟩
      intro hmatched hexamples
      obtain ⟨p, r, s, hsplit⟩ := matched_iff.1 hmatched
      rw [List.map_nil, updatedBy_nil, updated_eq hsplit, Policy.body?, Policy.sections?,
        (hsplit.fill hexamples).strict?]
      rfl
  | cons e es ih =>
      obtain ⟨he, hes⟩ := List.forall_mem_cons.1 h
      have hrest := ih (make .replacing document e).updated hes
      rwa [updated_updated he, matched_updated_eq] at hrest

/-- A document whose body is no block. -/
def markedDocument : Text := "<!-- BEGIN EXAMPLES -->\nold\n<!-- END EXAMPLES -->\n".toList

/-- Two texts of examples, of which the first is an opening. -/
def openingExamples : List Text := ["BEGIN EXAMPLES -->\n".toList, "two\r\n\nthree".toList]

/-- The examples may hold openings, which come and go with their blocks. -/
theorem updatedBy_last_counts_openings :
    (make .replacing (updatedBy markedDocument (openingExamples.map (Policy.replacing, ·))) "four\n".toList).updated
      = "<!-- BEGIN EXAMPLES -->\n\n    four\n<!-- END EXAMPLES -->\n".toList ∧
    Policy.replacing.body?
        (make .replacing (updatedBy markedDocument (openingExamples.map (Policy.replacing, ·))) "four\n".toList).updated
      = some (Block.render "four\n".toList) := by
  have hearlier : ∀ e ∈ openingExamples, ¬ closingHead <:+: e := by decide +kernel
  obtain ⟨hupdated, -, hbody⟩ := updatedBy_last_counts markedDocument _ "four\n".toList hearlier
  exact ⟨hupdated.trans (by decide +kernel), hbody (by decide +kernel) (by decide +kernel)⟩

/-! ## Updates with the same examples -/

/-- The document with the block of the examples put in. -/
def refreshed (examples document : Text) : Text := (make .replacing document examples).updated

/-- What repeated updates leave behind if the block holds a closing: the block, and once for every update after
the first what stands in the block from its first closing on. -/
theorem iterate_refreshed (h : ShortestSplit t p r s) (hblock : Block.render e = u ++ closingHead ++ v)
    (hfirst : FirstPlace (closingHead <+: ·) u (closingHead ++ v)) (n : ℕ) :
    (refreshed e)^[n + 1] t = p ++ openingTail ++ Block.render e
      ++ (List.replicate n (closingHead ++ v)).flatten ++ closingHead ++ s := by
  induction n generalizing t r s with
  | zero => simpa [refreshed] using updated_eq h e
  | succ n ih =>
      have hnext : ShortestSplit (refreshed e t) p u (v ++ closingHead ++ s) := by
        rw [refreshed, updated_eq h e, hblock]
        exact h.fill_closing hfirst
      rw [Function.iterate_succ_apply, ih hnext, List.replicate_succ']
      simp

/-- **Repeated updates settle or grow.** A second update with the same examples changes nothing exactly if the
markers are not found or the examples hold no closing. Otherwise every update after the first adds the same number
of octets, and at least one. -/
theorem refreshed_fixed_or_growing (document examples : Text) :
    (refreshed examples (refreshed examples document) = refreshed examples document ↔
      (make .replacing document examples).matched = false ∨ ¬ closingHead <:+: examples) ∧
    ((make .replacing document examples).matched = true → closingHead <:+: examples →
      ∃ k, 0 < k ∧ ∀ n, ((refreshed examples)^[n + 2] document).utf8Length
        = ((refreshed examples)^[n + 1] document).utf8Length + k) := by
  refine ⟨?_, ?_⟩
  · cases hmatched : (make .replacing document examples).matched with
    | false =>
        have hnone : ¬ ∃ p r s, ShortestSplit document p r s := by
          rw [← matched_iff (e := examples), hmatched]
          simp
        have hsame : refreshed examples document = document := updated_eq_of_not_matched hnone examples
        simp [hsame]
    | true =>
        have hstale := isStale_updated_iff hmatched
        rw [isStale, document_make, bne_iff_ne, ne_eq, eq_comm] at hstale
        rw [← hstale, not_not]
        simp [refreshed]
  · intro hmatched hclosing
    obtain ⟨p, r, s, hsplit⟩ := matched_iff.1 hmatched
    obtain ⟨u, w, hblock, hfirst⟩ := exists_firstPlace
      (infix_iff_exists_place.1 ((Block.infix_render_iff isPlain_closingHead examples).2 hclosing))
    obtain ⟨v, rfl⟩ := hfirst.here
    have hrest := iterate_refreshed hsplit (hblock.symm.trans (List.append_assoc ..).symm) hfirst
    refine ⟨(closingHead ++ v).utf8Length, ?_, ?_⟩
    · have hhead : 0 < closingHead.utf8Length := by decide
      rw [Text.utf8Length_append]
      omega
    · intro n
      rw [hrest n, hrest (n + 1), List.replicate_succ']
      simp only [Text.utf8Length_append, List.flatten_append, List.flatten_singleton]
      omega

/-- Examples that hold a closing make the document grow. -/
theorem refreshed_growing_closing :
    ∃ k, 0 < k ∧ ∀ n,
      ((refreshed "<!-- END EXAMPLES\n".toList)^[n + 2] markedDocument).utf8Length
        = ((refreshed "<!-- END EXAMPLES\n".toList)^[n + 1] markedDocument).utf8Length + k :=
  (refreshed_fixed_or_growing _ _).2 (by decide +kernel) ⟨[], ['\n'], by decide⟩

end Plan
end DocSplice
