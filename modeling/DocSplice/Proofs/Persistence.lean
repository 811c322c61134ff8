import DocSplice.Proofs.FixedPoint
import DocSplice.Proofs.OpeningLine
import DocSplice.Proofs.Series

/-!
# Markers that survive updates

An update keeps an opening line and a closing behind it, so the stacking policy finds the markers after every update
of a document in which it found them before (`isSome_loose?_updated`). The replacing policy asks for a strict closing,
and a stacking update drops all closings of the old body: the strict ones as well, although it may keep a last
closing with more dashes, which the replacing policy does not see. So the replacing policy finds the markers after a
stacking update only where a strict closing is left (`isSome_strict?_updated_iff`). It always is where the last closing
of the document is strict, since no update reaches that (`isSome_strict?_updated_of_last`).
-/
namespace DocSplice

open Marker

namespace Marker

theorem closingHead_eq : closingHead = '<' :: "!-- END EXAMPLES".toList := by decide

/-- A closing begins with the character that a strict closing begins with. -/
theorem IsClosing.exists_eq_cons {e : Text} (he : IsClosing e) : ∃ e', e = '<' :: e' := by
  obtain ⟨n, rfl⟩ := he
  exact ⟨_, rfl⟩

/-- A strict closing before the last closing of a text ends before it. -/
theorem closingHead_before_last {u e s x v : Text} (he : IsClosing e) (hlast : LastPlace ClosesAt u (e ++ s))
    (h : x ++ (closingHead ++ v) = u ++ (e ++ s)) :
    e = closingHead ∨ ∃ y, u = x ++ (closingHead ++ y) := by
  have hcloses : ClosesAt (closingHead ++ v) := ⟨closingHead, v, isClosing_closingHead, rfl⟩
  have hle : x.length ≤ u.length := by
    by_contra hlt
    exact hlast.later x _ h (by omega) hcloses
  obtain ⟨m, rfl, hm⟩ := exists_between h hle
  by_cases hnil : m = []
  · subst hnil
    exact .inl (he.eq_of_append isClosing_closingHead hm.symm)
  · obtain ⟨e', rfl⟩ := he.exists_eq_cons
    have hhead : closingHead <+: m ++ '<' :: (e' ++ s) := ⟨v, by simpa using hm⟩
    rw [closingHead_eq] at hhead
    obtain ⟨y, hy⟩ := prefix_of_prefix_append_head (by decide) hnil hhead
    exact .inr ⟨y, by rw [closingHead_eq, hy]⟩

end Marker

namespace Sections

variable {t p r s e : Text} {c : Sections}

/-- A split stays one, whatever is added behind the text. -/
theorem StrictSplit.append (h : StrictSplit t p r s) (v : Text) : StrictSplit (t ++ v) p r (s ++ v) := by
  rw [StrictSplit] at h ⊢
  simp [h]

/-- A strict opening in one text and a strict closing in the next one make a split. -/
theorem isSome_strict?_append {u v : Text} (hu : p ++ openingTail <+: u) (hv : closingHead <:+: v) :
    (strict? (u ++ v)).isSome := by
  obtain ⟨x, rfl⟩ := hu
  obtain ⟨y, z, rfl⟩ := hv
  exact isSome_strict?_iff.2 ⟨p, x ++ y, z, by simp [StrictSplit]⟩

/-- Whether a strict closing is left behind a strict opening when the block of the examples is stacked: as the last
closing, in the examples, or in the text that is written before the block. -/
def LeavesClosing (c : Sections) (examples : Text) : Prop :=
  c.closing = closingHead ∨ closingHead <:+: examples ∨
    ∃ p r s, StrictSplit (c.before ++ c.opening ++ c.opening) p r s

/-- The document that stacking the block leaves, in the parts of `LeavesClosing`. -/
theorem updated_stacking_eq (hc : loose? t = some c) (e : Text) : (Plan.make .stacking t e).updated =
    (c.before ++ c.opening ++ c.opening) ++ (Block.render e ++ (c.closing ++ c.after)) := by
  rw [Plan.updated_eq_of_some (p := .stacking) hc]
  simp [Policy.fill]

theorem leavesClosing_of_isSome (hc : loose? t = some c) (h : (strict? (Plan.make .stacking t e).updated).isSome) :
    c.LeavesClosing e := by
  obtain ⟨p, r, s, hsplit⟩ := isSome_strict?_iff.1 h
  obtain ⟨l, k, -, hlast⟩ := loose?_eq_some_iff.1 hc
  have hplace : (p ++ openingTail ++ r) ++ (closingHead ++ s) =
      (c.before ++ c.opening ++ c.opening ++ Block.render e) ++ (c.closing ++ c.after) := by
    rw [updated_stacking_eq hc] at hsplit
    simpa using hsplit.symm
  rcases closingHead_before_last hlast.closes (hlast.closing_place.congr_front _) hplace with hstrict | ⟨y, hy⟩
  · exact .inl hstrict
  · obtain ⟨b, hblock, -⟩ := Block.exists_render_eq_cons e
    rw [hblock] at hy
    rcases cases_of_append_eq_append_cons isPlain_closingHead.lineFeed_not_mem hy.symm with ⟨z, hz⟩ | ⟨z, hz, -⟩
    · exact .inr (.inr ⟨p, r, z, by simpa [StrictSplit] using hz⟩)
    · refine .inr (.inl ((Block.infix_render_iff isPlain_closingHead e).1 ?_))
      rw [hblock, hz]
      exact ⟨'\n' :: z, y, by simp⟩

theorem isSome_of_leavesClosing (hs : (strict? t).isSome) (hc : loose? t = some c) (h : c.LeavesClosing e) :
    (strict? (Plan.make .stacking t e).updated).isSome := by
  obtain ⟨p, r, s, hsplit⟩ := isSome_strict?_iff.1 hs
  obtain ⟨l, k, hopening, hlast⟩ := loose?_eq_some_iff.1 hc
  have hkept : p ++ openingTail <+: c.before ++ c.opening ++ c.opening := by
    have hprefix := hlast.opening_kept hsplit
    rw [← hopening] at hprefix
    exact hprefix.trans (List.prefix_append _ _)
  rw [updated_stacking_eq hc]
  rcases h with hstrict | hexamples | ⟨p', r', s', hsplit'⟩
  · refine isSome_strict?_append hkept ?_
    rw [hstrict]
    exact ⟨Block.render e, c.after, by simp⟩
  · have hblock := (Block.infix_render_iff isPlain_closingHead e).2 hexamples
    exact isSome_strict?_append hkept (hblock.trans (List.prefix_append _ _).isInfix)
  · exact isSome_strict?_iff.2 ⟨p', r', _, hsplit'.append _⟩

/-- After a stacking update the replacing policy finds the markers exactly where a strict closing is left. -/
theorem isSome_strict?_updated_iff (hs : (strict? t).isSome) (hc : loose? t = some c) :
    (strict? (Plan.make .stacking t e).updated).isSome ↔ c.LeavesClosing e :=
  ⟨leavesClosing_of_isSome hc, isSome_of_leavesClosing hs hc⟩

/-- After an update the stacking policy finds the markers if it found them before. -/
theorem isSome_loose?_updated (h : (loose? t).isSome) (p : Policy) (e : Text) :
    (loose? (Plan.make p t e).updated).isSome := by
  cases p with
  | stacking =>
      obtain ⟨c, hc⟩ := Option.isSome_iff_exists.1 h
      obtain ⟨l, k, hopening, hlast⟩ := loose?_eq_some_iff.1 hc
      have hopens := opens_stacked hlast.begins hlast.single hlast.holds hlast.closes k (c.opening ++ Block.render e)
        c.after
      refine isSome_loose?_iff.2 ⟨c.before, l, ?_⟩
      rw [updated_stacking_eq hc]
      simpa [hopening] using hopens
  | replacing =>
      cases hc : strict? t with
      | none => rwa [Plan.updated_eq_of_none (p := .replacing) hc]
      | some c =>
          obtain ⟨-, -, hsplit⟩ := strict?_eq_some_iff.1 hc
          refine isSome_loose?_of_isSome_strict? (isSome_strict?_iff.2 ⟨c.before, Block.render e, c.after, ?_⟩)
          exact Plan.updated_eq hsplit e

/-- After a replacing update the replacing policy finds the markers if it found them before. -/
theorem isSome_strict?_updated (h : (strict? t).isSome) (e : Text) :
    (strict? (Plan.make .replacing t e).updated).isSome := by
  have hmatched : (Plan.make .replacing t e).matched = true := (Plan.matched_make ..).trans h
  exact (Plan.matched_make ..).symm.trans (Plan.matched_updated hmatched e)

/-- The closing that the stacking policy keeps is the last one of the document. -/
theorem closing_eq_of_last {u v : Text} (hc : loose? t = some c) (hlast : LastPlace ClosesAt u (closingHead ++ v))
    (hv : closingHead ++ v <:+ t) : c.closing = closingHead := by
  obtain ⟨l, k, -, hsplit⟩ := loose?_eq_some_iff.1 hc
  obtain ⟨w, hw⟩ := hv
  have hsame : w ++ (closingHead ++ v) = (c.before ++ stacked l k ++ c.body) ++ (c.closing ++ c.after) := by
    rw [hw]
    simpa using hsplit.split
  obtain ⟨-, hrest⟩ := (hlast.congr_front w).eq hsplit.closing_place hsame
  exact hsplit.closes.eq_of_append isClosing_closingHead hrest.symm

/-- Where the last closing is strict, the replacing policy finds the markers after an update under either policy. -/
theorem isSome_strict?_updated_of_last {u v : Text} (hs : (strict? t).isSome)
    (hlast : LastPlace ClosesAt u (closingHead ++ v)) (hv : closingHead ++ v <:+ t) (p : Policy) (e : Text) :
    (strict? (Plan.make p t e).updated).isSome := by
  cases p with
  | replacing => exact isSome_strict?_updated hs e
  | stacking =>
      obtain ⟨c, hc⟩ := Option.isSome_iff_exists.1 (isSome_loose?_of_isSome_strict? hs)
      exact (isSome_strict?_updated_iff hs hc).2 (.inl (closing_eq_of_last hc hlast hv))

end Sections

/-! ## Series -/

namespace Plan

open Sections

variable {document : Text} {updates : List (Policy × Text)}

/-- The replacing policy finds the markers all along a series exactly if each stacking update of it leaves a strict
closing. -/
theorem isSome_strict?_all_iff (h : (strict? document).isSome) :
    (∀ us, us <+: updates → (strict? (updatedBy document us)).isSome) ↔
      ∀ us e c, us ++ [(.stacking, e)] <+: updates → loose? (updatedBy document us) = some c → c.LeavesClosing e := by
  constructor
  · intro hall us e c hus hc
    have hs := hall us ((List.prefix_append us _).trans hus)
    have hnext := hall _ hus
    rw [updatedBy_append] at hnext
    exact (isSome_strict?_updated_iff hs hc).1 hnext
  · intro hleaves us
    induction us using List.reverseRecOn with
    | nil => exact fun _ => h
    | append_singleton us u ih =>
        intro hus
        have hs := ih ((List.prefix_append us [u]).trans hus)
        obtain ⟨p, e⟩ := u
        rw [updatedBy_append]
        cases p with
        | replacing => exact isSome_strict?_updated hs e
        | stacking =>
            obtain ⟨c, hc⟩ := Option.isSome_iff_exists.1 (isSome_loose?_of_isSome_strict? hs)
            exact (isSome_strict?_updated_iff hs hc).2 (hleaves us e c hus hc)

/-- Where the last closing is strict, the replacing policy finds the markers all along a series. -/
theorem isSome_strict?_updatedBy {u v : Text} (hlast : LastPlace ClosesAt u (closingHead ++ v))
    (hdocument : u ++ (closingHead ++ v) = document) (h : (strict? document).isSome) (us : List (Policy × Text)) :
    (strict? (updatedBy document us)).isSome := by
  have hstep : ∀ p t e, (strict? t).isSome ∧ closingHead ++ v <:+ t →
      (strict? (make p t e).updated).isSome ∧ closingHead ++ v <:+ (make p t e).updated := by
    intro p t e ht
    exact ⟨isSome_strict?_updated_of_last ht.1 hlast ht.2 p e, tail_updated p e hlast ht.2⟩
  exact (updatedBy_induction hstep ⟨h, u, hdocument⟩ us).1

/-- **The markers that survive a series of updates.** If the stacking policy finds the markers of a document, it finds
them after each update of a series. If the replacing policy does, it finds them after each update exactly if each
stacking update leaves a strict closing; in any case it does where the last closing of the document is strict. -/
theorem updatedBy_markers_survive (document : Text) (updates : List (Policy × Text)) :
    ((Policy.stacking.sections? document).isSome →
      ∀ us, us <+: updates → (Policy.stacking.sections? (updatedBy document us)).isSome) ∧
    ((Policy.replacing.sections? document).isSome →
      ((∀ us, us <+: updates → (Policy.replacing.sections? (updatedBy document us)).isSome) ↔
        ∀ us e c, us ++ [(.stacking, e)] <+: updates →
          Policy.stacking.sections? (updatedBy document us) = some c → c.LeavesClosing e)) ∧
    ((Policy.replacing.sections? document).isSome →
      ∀ u v, u ++ (closingHead ++ v) = document → LastPlace ClosesAt u (closingHead ++ v) →
        ∀ us, us <+: updates → (Policy.replacing.sections? (updatedBy document us)).isSome) := by
  refine ⟨?_, ?_, ?_⟩
  · intro h us _
    exact updatedBy_induction (P := fun t => (loose? t).isSome) (fun p t e ht => isSome_loose?_updated ht p e) h us
  · intro h
    exact isSome_strict?_all_iff h
  · intro h u v hdocument hlast us _
    exact isSome_strict?_updatedBy hlast hdocument h us

/-- A document with closings of both kinds, of which the last one is strict. -/
def mixedDocument : Text := "BEGIN EXAMPLES -->\n<!--- END EXAMPLES\n<!-- END EXAMPLES -->\n".toList

/-- Updates whose examples bring in an opening, and a closing with more dashes. -/
def mixedUpdates : List (Policy × Text) :=
  [(.stacking, "BEGIN EXAMPLES\n".toList), (.replacing, "<!--- END EXAMPLES".toList), (.stacking, [])]

/-- The markers of this document survive these updates. -/
theorem updatedBy_markers_survive_mixed :
    (Policy.replacing.sections? mixedDocument).isSome ∧
    ∀ us, us <+: mixedUpdates → (Policy.replacing.sections? (updatedBy mixedDocument us)).isSome := by
  have hsome : (Policy.replacing.sections? mixedDocument).isSome := by decide +kernel
  have hcut : cutLast looseClosing mixedDocument =
      some ⟨"BEGIN EXAMPLES -->\n<!--- END EXAMPLES\n".toList, closingHead, " -->\n".toList⟩ := by decide +kernel
  obtain ⟨v, n, hv, hlast, -⟩ := lastPlace_of_cutLast hcut
  have hwhole : "BEGIN EXAMPLES -->\n<!--- END EXAMPLES\n".toList ++ (closingHead ++ " -->\n".toList) =
      mixedDocument := by decide +kernel
  obtain rfl := List.append_cancel_left (hv.symm.trans hwhole.symm)
  rw [fits_looseClosing] at hlast
  obtain ⟨-, -, hsurvive⟩ := updatedBy_markers_survive mixedDocument mixedUpdates
  exact ⟨hsome, hsurvive hsome _ _ hwhole hlast⟩

/-- A stacking update keeps the last closing, which has three dashes, and drops the strict one. -/
theorem updatedBy_markers_lost : ¬ ∀ (q : Policy) (document : Text) (updates : List (Policy × Text)),
    (q.sections? document).isSome → ∀ us, us <+: updates → (q.sections? (updatedBy document us)).isSome := by
  intro h
  have hlost := h .replacing
    "<!-- BEGIN EXAMPLES -->\n<!-- END EXAMPLES -->\n<!--- END EXAMPLES -->\n".toList
    [(.stacking, "a\n".toList)] (by decide +kernel) [(.stacking, "a\n".toList)] List.prefix_rfl
  revert hlost
  decide +kernel

end Plan
end DocSplice
