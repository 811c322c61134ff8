import DocSplice.Proofs.FixedPoint
import DocSplice.Proofs.Series

/-!
# What the stacking policy piles up

An update under the stacking policy writes the opening a second time, so it leaves no document with markers as it
is (`isStale_stacking_iff`). The block behind the second copy begins with a line feed. So the next update finds this
copy with one line feed more (`loose?_updated`), and writes this longer opening twice. A series of updates piles up
openings that grow by a line feed each, and keeps of the blocks only the last one (`updatedBy_stacking`), as long as
no block but the last holds the words of an opening.
-/
namespace DocSplice

open Marker Sections

/-! ## Openings in a block -/

theorem isPlain_openingWord : Block.IsPlain openingWord :=
  ⟨by decide, ⟨'B', "EGIN EXAMPLES".toList, by decide, by decide⟩,
    ⟨"BEGIN EXAMPLE".toList, 'S', by decide, by decide⟩⟩

namespace Sections

variable {t P l R E S a : Text} {k : ℕ}

/-- Behind an opening, a line begins. -/
theorem endsLine_append_stacked (P l : Text) (k : ℕ) : Text.EndsLine (P ++ stacked l k) :=
  .inr ⟨P ++ l ++ List.replicate k '\n', by simp [stacked, List.replicate_succ']⟩

/-- An opening line stands last before a text that does not hold the words. -/
theorem lastPlace_looseOpening (holds : openingWord <:+: l) {x : Text} (hx : ¬ openingWord <:+: x)
    (front : List Text) : LastPlace looseOpening.Fits front ((l ++ ['\n']) :: Text.pieces x) := by
  refine ⟨fits_looseOpening_iff.2 ⟨_, _, rfl, isOpeningLine_append_iff.2 holds⟩, ?_⟩
  intro a b hab hlt hfits
  obtain ⟨y, b, rfl, hy⟩ := fits_looseOpening_iff.1 hfits
  obtain ⟨m, rfl, hm⟩ := exists_between hab.symm hlt.le
  cases m with
  | nil => simp at hlt
  | cons z m =>
      obtain ⟨-, hpieces⟩ := List.cons_eq_cons.1 hm
      obtain ⟨line, -, hline⟩ := openingLine_of_pieces hpieces hy
      apply hx
      rw [hline.whole]
      exact hline.holds.trans ⟨m.flatten, '\n' :: b.flatten, rfl⟩

/-- What the next update finds: the second copy of the opening, with one line feed more. -/
theorem loose?_updated {c : Sections} (h : loose? t = some c) {e : Text} (he : ¬ openingWord <:+: e) :
    ∃ r, Block.render e = '\n' :: r ∧ loose? (Plan.make .stacking t e).updated
      = some ⟨c.before ++ c.opening, c.opening ++ ['\n'], r, c.closing, c.after⟩ := by
  obtain ⟨l, k, hopening, hlast⟩ := loose?_eq_some_iff.1 h
  obtain ⟨r, hblock, hr⟩ := Block.exists_render_eq_cons e
  have hword : ¬ openingWord <:+: List.replicate (k + 1) '\n' ++ r := by
    have hrender : ¬ openingWord <:+: Block.render e := mt (Block.infix_render_iff isPlain_openingWord e).1 he
    have hfeeds : 'B' ∉ List.replicate (k + 1) '\n' := by simp [List.mem_replicate]
    rw [infix_append_left_iff (v := "EGIN EXAMPLES".toList) (by decide) hfeeds]
    intro hinfix
    apply hrender
    rw [hblock]
    exact hinfix.trans (List.suffix_cons _ _).isInfix
  have hfill : (Plan.make .stacking t e).updated
      = (c.before ++ c.opening) ++ stacked l (k + 1) ++ r ++ (c.closing ++ c.after) := by
    rw [Plan.updated_eq_of_some (p := .stacking) h, Policy.fill, hblock, hopening]
    simp [stacked, List.replicate_succ']
  have hbegins : Text.EndsLine (c.before ++ c.opening) := by
    rw [hopening]
    exact endsLine_append_stacked c.before l k
  refine ⟨r, hblock, ?_⟩
  rw [hfill, loose?_of_places hbegins hlast.single hr hlast.closes (hlast.closing_place.congr_front _)
    (lastPlace_looseOpening hlast.holds hword _), hopening]
  simp [stacked, List.replicate_succ']

/-- A stacking splice changes the document, whatever the block is. -/
theorem content_make_stacking_ne {c : Sections} (h : loose? t = some c) (block : Text) :
    (Splice.make .stacking t block).content ≠ t := by
  obtain ⟨l, k, hopening, hlast⟩ := loose?_eq_some_iff.1 h
  rw [Splice.make_eq_of_some (p := .stacking) h, Policy.fill, hopening]
  intro (hsame : c.before ++ stacked l k ++ stacked l k ++ block ++ c.closing ++ c.after = t)
  -- The second copy of the opening would begin with an opening line behind the last one.
  have hopens := opens_stacked (endsLine_append_stacked c.before l k) hlast.single hlast.holds hlast.closes k block
    c.after
  rw [hsame] at hopens
  have hge := hlast.front_ge _ _ hopens
  rw [stacked] at hge
  simp only [List.length_append, List.length_replicate] at hge
  omega

end Sections

namespace Plan

/-- **A stacking update always changes the document.** It is out of date exactly if the markers are found, and no block
at all would make the splice give back a document with markers. -/
theorem isStale_stacking_iff (document examples : Text) :
    ((make .stacking document examples).isStale = true ↔ (make .stacking document examples).matched = true) ∧
    ∀ block, (Splice.make .stacking document block).content = document ↔
      (Splice.make .stacking document block).matched = false := by
  have hsame : ∀ block, (Splice.make .stacking document block).content = document ↔
      (Splice.make .stacking document block).matched = false := by
    intro block
    rw [Splice.matched_make]
    cases hc : Policy.stacking.sections? document with
    | none => simp [Splice.make_eq_of_none hc]
    | some c => simp [content_make_stacking_ne hc]
  refine ⟨?_, hsame⟩
  rw [isStale, document_make, bne_iff_ne, ne_comm, updated_make, Ne, hsame, Bool.not_eq_false, matched]
  rfl

/-- **The pile that a series of stacking updates leaves.** If no examples but the last ones hold the words of an
opening, each update adds one copy of the opening, the copies end in more and more line feeds, and only the last
block is left. The examples may hold closings. -/
theorem updatedBy_stacking {document : Text} {c : Sections}
    (h : Policy.stacking.sections? document = some c) (earlier : List Text) (examples : Text)
    (hearlier : ∀ e ∈ earlier, ¬ openingWord <:+: e) :
    updatedBy document ((earlier ++ [examples]).map (Policy.stacking, ·)) =
      c.before ++ c.opening
        ++ (List.range earlier.length).flatMap (fun i => c.opening ++ List.replicate (i + 1) '\n')
        ++ (c.opening ++ List.replicate earlier.length '\n')
        ++ Block.render examples ++ c.closing ++ c.after := by
  induction earlier generalizing document c with
  | nil => simp [updated_eq_of_some h, Policy.fill]
  | cons e es ih =>
      obtain ⟨he, hes⟩ := List.forall_mem_cons.1 hearlier
      obtain ⟨r, -, hnext⟩ := Sections.loose?_updated h he
      rw [List.cons_append, List.map_cons, updatedBy_cons, ih hnext hes, List.length_cons,
        List.range_succ_eq_map, List.flatMap_cons, List.flatMap_map]
      simp [List.replicate_succ]

/-- A document with a title and one region. -/
def titledDocument : Text := "# A\n<!-- BEGIN EXAMPLES -->\n\nold\n<!-- END EXAMPLES -->\n".toList

/-- A pile of three updates; the second block holds a closing and the last one an opening. -/
theorem updatedBy_stacking_three :
    updatedBy titledDocument
        [(.stacking, "one\n".toList), (.stacking, "<!-- END EXAMPLES".toList), (.stacking, "BEGIN EXAMPLES".toList)]
      = ("# A\n<!-- BEGIN EXAMPLES -->\n\n<!-- BEGIN EXAMPLES -->\n\n\n"
        ++ "<!-- BEGIN EXAMPLES -->\n\n\n\n<!-- BEGIN EXAMPLES -->\n\n\n\n"
        ++ "\n    BEGIN EXAMPLES\n<!-- END EXAMPLES -->\n").toList := by
  have hsections : Policy.stacking.sections? titledDocument
      = some ⟨"# A\n".toList, "<!-- BEGIN EXAMPLES -->\n\n".toList, "old\n".toList,
        "<!-- END EXAMPLES".toList, " -->\n".toList⟩ := by decide +kernel
  have hearlier : ∀ e ∈ ["one\n".toList, "<!-- END EXAMPLES".toList], ¬ openingWord <:+: e := by
    decide +kernel
  exact (updatedBy_stacking hsections _ "BEGIN EXAMPLES".toList hearlier).trans (by decide +kernel)

end Plan
end DocSplice
