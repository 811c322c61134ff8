import DocSplice.Plan
import DocSplice.Proofs.Block
import DocSplice.Proofs.Replacing

/-!
# Documents that an update leaves as they are

Under the replacing policy an update changes a document unless its body is the block of the examples already
(`isStale_iff`). The body never holds the head of a closing, since it ends at the first one; so examples that
hold it are out of date in every document (`isStale_of_closing`). All other examples are up to date once they
have been put in (`isStale_updated_iff`).
-/
namespace DocSplice

open Marker Sections

/-! ## Closings in a block -/

theorem isPlain_closingHead : Block.IsPlain closingHead :=
  ⟨by decide, ⟨'<', "!-- END EXAMPLES".toList, by decide, by decide⟩,
    ⟨"<!-- END EXAMPLE".toList, 'S', by decide, by decide⟩⟩

namespace Sections.ShortestSplit

variable {t p r s : Text}

/-- The body ends before the first closing. -/
theorem closing_not_infix (h : ShortestSplit t p r s) : ¬ closingHead <:+: r := by
  intro hinfix
  obtain ⟨u, v, rfl, x, rfl⟩ := infix_iff_exists_place.1 hinfix
  refine h.closing.earlier u (closingHead ++ (x ++ (closingHead ++ s))) (by simp) ?_ (List.prefix_append _ _)
  have hpos : 0 < closingHead.length := by decide
  simp only [List.length_append]
  omega

/-- A block without a closing becomes the body. -/
theorem fill (h : ShortestSplit t p r s) {e : Text} (he : ¬ closingHead <:+: e) :
    ShortestSplit (p ++ openingTail ++ Block.render e ++ closingHead ++ s) p (Block.render e) s := by
  have hblock : ¬ closingHead <:+: Block.render e := mt (Block.infix_render_iff isPlain_closingHead e).1 he
  obtain ⟨u, hu⟩ := Block.exists_render_eq e
  have hclosing : FirstPlace (closingHead <+: ·) (Block.render e) (closingHead ++ s) := by
    rw [hu] at hblock ⊢
    exact firstPlace_of_not_infix isPlain_closingHead.lineFeed_not_mem hblock s
  exact shortestSplit_of_firstPlace (h.opening.congr_rest _) hclosing

end Sections.ShortestSplit

/-! ## Updates that change nothing -/

namespace Plan

variable {t p r s e : Text}

theorem matched_iff : (make .replacing t e).matched = true ↔ ∃ p r s, ShortestSplit t p r s := by
  rw [matched_make, Policy.sections?, isSome_strict?_iff]
  constructor
  · intro h'
    rcases h' with ⟨p, r, s, h⟩
    exact exists_shortestSplit h
  · intro h'
    rcases h' with ⟨p, r, s, h⟩
    exact ⟨p, r, s, h.split⟩

theorem updated_eq (h : ShortestSplit t p r s) (e : Text) :
    (make .replacing t e).updated = p ++ openingTail ++ Block.render e ++ closingHead ++ s := by
  have hsections : Policy.replacing.sections? t = some ⟨p, openingTail, r, closingHead, s⟩ := h.strict?
  rw [updated_make, Splice.make_eq_of_some hsections]
  rfl

/-- A document is up to date exactly if its body is the block. -/
theorem isStale_iff (h : ShortestSplit t p r s) :
    (make .replacing t e).isStale = true ↔ r ≠ Block.render e := by
  have hsame : t = p ++ openingTail ++ Block.render e ++ closingHead ++ s ↔ r = Block.render e := by
    constructor
    · intro ht
      have hsplit : p ++ openingTail ++ r ++ closingHead ++ s
          = p ++ openingTail ++ Block.render e ++ closingHead ++ s := h.split.symm.trans ht
      simpa using hsplit
    · intro hr
      rw [← hr]
      exact h.split
  rw [isStale, document_make, updated_eq h, bne_iff_ne, ne_eq, hsame]

/-- The markers are found and nothing would change exactly if the text between the markers is the block. -/
theorem fresh_iff : (make .replacing t e).matched = true ∧ (make .replacing t e).isStale = false ↔
    Policy.replacing.body? t = some (Block.render e) := by
  constructor
  · intro h
    obtain ⟨p, r, s, hsplit⟩ := matched_iff.1 h.1
    have hbody : r = Block.render e := by
      by_contra hne
      exact absurd (h.2.symm.trans ((isStale_iff hsplit).2 hne)) (by simp)
    rw [Policy.body?, Policy.sections?, hsplit.strict?, ← hbody]
    rfl
  · intro h
    obtain ⟨s, hs, hbody⟩ := Option.map_eq_some_iff.1 h
    obtain ⟨-, -, hsplit⟩ := strict?_eq_some_iff.1 hs
    refine ⟨matched_iff.2 ⟨_, _, _, hsplit⟩, ?_⟩
    exact Bool.eq_false_iff.2 fun hstale => (isStale_iff hsplit).1 hstale hbody

/-- Examples that hold the head of a closing are up to date in no document. -/
theorem isStale_of_closing (hm : (make .replacing t e).matched = true) (he : closingHead <:+: e) :
    (make .replacing t e).isStale = true := by
  obtain ⟨p, r, s, h⟩ := matched_iff.1 hm
  rw [isStale_iff h]
  intro heq
  subst heq
  exact h.closing_not_infix ((Block.infix_render_iff isPlain_closingHead e).2 he)

/-- An update keeps the markers of a document that has them. -/
theorem matched_updated (hm : (make .replacing t e).matched = true) (e' : Text) :
    (make .replacing (make .replacing t e).updated e').matched = true := by
  obtain ⟨p, r, s, h⟩ := matched_iff.1 hm
  have hsplit : StrictSplit (make .replacing t e).updated p (Block.render e) s := updated_eq h e
  exact matched_iff.2 (exists_shortestSplit hsplit)

theorem closing_infix_updated (hm : (make .replacing t e).matched = true) :
    closingHead <:+: (make .replacing t e).updated := by
  obtain ⟨p, r, s, h⟩ := matched_iff.1 hm
  rw [updated_eq h]
  exact ⟨p ++ openingTail ++ Block.render e, s, rfl⟩

/-- **The documents that a second update leaves as they are.** Once the examples have been put in, they are up
to date exactly if they do not hold the head of a closing. -/
theorem isStale_updated_iff (hm : (make .replacing t e).matched = true) :
    (make .replacing (make .replacing t e).updated e).isStale = true ↔ closingHead <:+: e := by
  constructor
  · intro hstale
    by_contra he
    obtain ⟨p, r, s, h⟩ := matched_iff.1 hm
    rw [updated_eq h, isStale_iff (h.fill he)] at hstale
    exact hstale rfl
  · exact isStale_of_closing (matched_updated hm e)

end Plan
end DocSplice
