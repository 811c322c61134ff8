import DocSplice.Splice
import DocSplice.Proofs.Replacing

/-!
# What the stacking policy stacks

The stacking policy looks from the end: it takes the last closing of the document, and the last opening line
that has a closing anywhere behind it, together with the whole run of line feeds behind that line (`LastSplit`).
A document with an opening line before a closing has such a split (`exists_lastSplit`), its sections are this
split (`LastSplit.loose?`), and any other document has none (`loose?_eq_none_iff`).
-/
namespace DocSplice

namespace Sections

open Marker

/-- An opening line of the document that has a closing somewhere behind it. -/
def Opens (document front line : Text) : Prop :=
  ∃ rest, OpeningLine document front line rest ∧ Closes rest

/-- The opening that is written twice: a line and the run of line feeds that ends it. -/
def stacked (line : Text) (feeds : ℕ) : Text := line ++ List.replicate (feeds + 1) '\n'

/-- The split at the last closing, and at the last opening line with a closing behind it. The run of line feeds
is maximal, so that the body begins with none. -/
structure LastSplit (document front line : Text) (feeds : ℕ) (body closing rest : Text) : Prop where
  split : document = front ++ stacked line feeds ++ body ++ closing ++ rest
  begins : Text.EndsLine front
  single : '\n' ∉ line
  holds : openingWord <:+: line
  maximal : body.head? ≠ some '\n'
  closes : IsClosing closing
  front_ge : ∀ front' line', Opens document front' line' → front'.length ≤ front.length
  closing_ge : ∀ u e s, document = u ++ e ++ s → IsClosing e →
    u.length ≤ (front ++ stacked line feeds ++ body).length

variable {t P l R E S : Text} {k : ℕ}

/-- The opening of the split, as the line and the line feeds behind its own. -/
theorem stacked_append (l : Text) (k : ℕ) (r : Text) :
    stacked l k ++ r = l ++ '\n' :: (List.replicate k '\n' ++ r) := by
  simp [stacked, List.replicate_succ]

/-- An opening before a closing begins with a line that opens. -/
theorem opens_stacked (begins : Text.EndsLine P) (single : '\n' ∉ l) (holds : openingWord <:+: l)
    (closes : IsClosing E) (k : ℕ) (R S : Text) : Opens (P ++ stacked l k ++ R ++ E ++ S) P l :=
  ⟨List.replicate k '\n' ++ R ++ E ++ S, ⟨by simp [stacked, List.replicate_succ], begins, single, holds⟩,
    closes_of_isClosing closes _ _⟩

theorem LastSplit.opens (h : LastSplit t P l k R E S) : Opens t P l := by
  rw [h.split]
  exact opens_stacked h.begins h.single h.holds h.closes k R S

/-- The closing of the split stands at the last place. -/
theorem LastSplit.closing_place (h : LastSplit t P l k R E S) :
    LastPlace ClosesAt (P ++ stacked l k ++ R) (E ++ S) := by
  refine ⟨⟨E, S, h.closes, rfl⟩, ?_⟩
  intro u' _ hu' hlt h
  rcases h with ⟨e, s, he, rfl⟩
  have ht : t = u' ++ e ++ s := by
    rw [List.append_assoc, hu', h.split]
    simp
  exact absurd (h.closing_ge _ _ _ ht he) (by omega)

/-- The pieces of a text with the opening of a split in it. -/
theorem pieces_stacked (begins : Text.EndsLine P) (single : '\n' ∉ l) (k : ℕ) (R : Text) :
    Text.pieces (P ++ stacked l k ++ R)
      = Text.pieces P ++ (l ++ ['\n']) :: Text.pieces (List.replicate k '\n' ++ R) := by
  rw [List.append_assoc, Text.pieces_append begins, stacked_append, Text.pieces_append_cons single]

theorem fits_looseOpening_iff {b : List Text} :
    looseOpening.Fits b ↔ ∃ x b', b = x :: b' ∧ isOpeningLine x = true := by
  cases b <;> simp [Pattern.Fits, looseOpening, Pattern.one]

/-- The line of the split stands last among the pieces before the closing. -/
theorem LastSplit.opening_place (h : LastSplit t P l k R E S) :
    LastPlace looseOpening.Fits (Text.pieces P)
      ((l ++ ['\n']) :: Text.pieces (List.replicate k '\n' ++ R)) := by
  refine ⟨fits_looseOpening_iff.2 ⟨_, _, rfl, isOpeningLine_append_iff.2 h.holds⟩, ?_⟩
  intro a b hab hlt hfits
  obtain ⟨x, b, rfl, hx⟩ := fits_looseOpening_iff.1 hfits
  obtain ⟨line, -, hline⟩ := openingLine_of_pieces ((pieces_stacked h.begins h.single k R).trans hab.symm) hx
  have hopens : Opens t a.flatten line := by
    refine ⟨b.flatten ++ (E ++ S), ?_, ?_⟩
    · have := hline.append (E ++ S)
      rwa [List.append_assoc _ R, ← List.append_assoc R, ← List.append_assoc, ← List.append_assoc,
        ← h.split] at this
    · exact ⟨b.flatten, E ++ S, rfl, E, S, h.closes, rfl⟩
  have hfront : P.length < a.flatten.length := by
    obtain ⟨c, rfl, hc⟩ := exists_between hab.symm hlt.le
    cases c with
    | nil => simp at hlt
    | cons y c =>
        obtain ⟨rfl, -⟩ := List.cons_eq_cons.1 hc
        simp
  exact absurd (h.front_ge _ _ hopens) (by omega)

/-- The sections of the policy are cut at the last closing and, before it, at the last opening line. -/
theorem loose?_of_places (begins : Text.EndsLine P) (single : '\n' ∉ l) (maximal : R.head? ≠ some '\n')
    (closes : IsClosing E) (hclosing : LastPlace ClosesAt (P ++ stacked l k ++ R) (E ++ S))
    (hopening : LastPlace looseOpening.Fits (Text.pieces P)
      ((l ++ ['\n']) :: Text.pieces (List.replicate k '\n' ++ R))) :
    loose? (P ++ stacked l k ++ R ++ (E ++ S)) = some ⟨P, stacked l k, R, E, S⟩ := by
  have hend : cutLast looseClosing (P ++ stacked l k ++ R ++ (E ++ S)) = some ⟨P ++ stacked l k ++ R, E, S⟩ := by
    rw [← fits_looseClosing] at hclosing
    have htake := looseClosing_eq_some_iff.2 ⟨E, S, closes, rfl, rfl⟩
    simpa only [List.take_left, List.drop_left] using cutLast_append hclosing htake
  have hline : cutLast looseOpening (Text.pieces (P ++ stacked l k ++ R))
      = some ⟨Text.pieces P, [l ++ ['\n']], Text.pieces (List.replicate k '\n' ++ R)⟩ := by
    obtain ⟨x, b, hpiece, hx⟩ := fits_looseOpening_iff.1 hopening.here
    obtain ⟨rfl, -⟩ := List.cons_eq_cons.1 hpiece
    have htake : looseOpening ((l ++ ['\n']) :: Text.pieces (List.replicate k '\n' ++ R)) = some 1 := by
      simp [looseOpening, Pattern.one, hx]
    rw [pieces_stacked begins single, cutLast_append hopening htake]
    rfl
  rw [Sections.loose?, hend, Option.bind_some, hline, Option.map_some]
  simp [takeWhile_replicate_append maximal, dropWhile_replicate_append maximal, stacked, List.replicate_succ]

/-- The sections of the policy are the last split. -/
theorem LastSplit.loose? (h : LastSplit t P l k R E S) :
    loose? t = some ⟨P, stacked l k, R, E, S⟩ := by
  have ht : t = P ++ stacked l k ++ R ++ (E ++ S) := by
    rw [h.split]
    simp
  rw [ht]
  exact loose?_of_places h.begins h.single h.maximal h.closes h.closing_place h.opening_place

/-- Of the fronts with a property there is a longest one, if none is longer than the document. -/
theorem exists_longest {Q : Text → Prop} (h : ∃ u, Q u) (hle : ∀ u, Q u → u.length ≤ t.length) :
    ∃ u, Q u ∧ ∀ u', Q u' → u'.length ≤ u.length := by
  classical
  obtain ⟨u, hu⟩ := h
  have hmax := Nat.findGreatest_spec (P := fun n => ∃ u, Q u ∧ u.length = n) (hle u hu) ⟨u, hu, rfl⟩
  obtain ⟨v, hv, hlength⟩ := hmax
  refine ⟨v, hv, ?_⟩
  intro u' hu'
  rw [hlength]
  exact Nat.le_findGreatest (hle u' hu') ⟨u', hu', rfl⟩

/-- A document with an opening line before a closing has a last split. -/
theorem exists_lastSplit (h : Opens t P l) : ∃ P l k R E S, LastSplit t P l k R E S := by
  have hlength : ∀ u, (∃ l, Opens t u l) → u.length ≤ t.length := by
    intro u h
    rcases h with ⟨l, rest, hline, -⟩
    have := congrArg List.length hline.whole
    simp only [List.length_append] at this
    omega
  obtain ⟨P, ⟨l, rest, hline, u₁, v₁, hrest, hclosing⟩, hmax⟩ := exists_longest ⟨P, l, h⟩ hlength
  -- The last closing stands behind the line, since a closing does.
  have hplace : (P ++ l ++ '\n' :: u₁) ++ v₁ = t := by
    rw [hline.whole, ← hrest]
    simp
  obtain ⟨u, v, ht, hlast⟩ := exists_lastPlace ⟨_, v₁, hplace, hclosing⟩
  have hle : (P ++ l ++ '\n' :: u₁).length ≤ u.length := by
    by_contra hlt
    exact hlast.later _ _ (hplace.trans ht.symm) (by omega) hclosing
  obtain ⟨m, rfl, -⟩ := exists_between (hplace.trans ht.symm) hle
  obtain ⟨E, S, hE, rfl⟩ := hlast.here
  obtain ⟨k, R, hR, hhead⟩ := exists_eq_replicate_append '\n' (u₁ ++ m)
  have hu : P ++ l ++ '\n' :: u₁ ++ m = P ++ stacked l k ++ R := by
    rw [List.append_assoc _ _ R, stacked_append, ← hR]
    simp
  rw [hu] at ht hlast
  refine ⟨P, l, k, R, E, S, by rw [← ht]; simp, hline.begins, hline.single, hline.holds, hhead, hE, ?_, ?_⟩
  · intro front' line' hopens
    exact hmax front' ⟨line', hopens⟩
  · intro u e s hsplit he
    by_contra hlt
    refine hlast.later u (e ++ s) ?_ (by omega) ⟨e, s, he, rfl⟩
    rw [ht, hsplit]
    simp

theorem loose?_eq_none_iff : loose? t = none ↔ ¬ ∃ P l, Opens t P l := by
  constructor
  · intro h h'
    rcases h' with ⟨P, l, hopens⟩
    obtain ⟨P, l, k, R, E, S, hlast⟩ := exists_lastSplit hopens
    rw [hlast.loose?] at h
    cases h
  · intro h
    rw [Option.eq_none_iff_forall_ne_some]
    intro c hc
    obtain ⟨e, he, hc⟩ := Option.bind_eq_some_iff.1 hc
    obtain ⟨o, ho, -⟩ := Option.map_eq_some_iff.1 hc
    obtain ⟨v, n, ht, hlast, -, -, -⟩ := lastPlace_of_cutLast he
    obtain ⟨b, n', hb, hfits, -, -, -⟩ := lastPlace_of_cutLast ho
    obtain ⟨x, b, rfl, hx⟩ := fits_looseOpening_iff.1 hfits.here
    obtain ⟨line, -, hline⟩ := openingLine_of_pieces hb hx
    have hopens : Opens t o.before.flatten line := by
      refine ⟨b.flatten ++ v, ?_, b.flatten, v, rfl, ?_⟩
      · rw [ht]
        exact hline.append v
      · simpa using hlast.here
    exact h ⟨o.before.flatten, line, hopens⟩

theorem isSome_loose?_iff : (loose? t).isSome ↔ ∃ P l, Opens t P l := by
  rw [Option.isSome_iff_ne_none, Ne, loose?_eq_none_iff, not_not]

/-- The sections of the policy are the last split, and there are none only if there is no such split. -/
theorem loose?_eq_some_iff {c : Sections} :
    loose? t = some c ↔ ∃ l k, c.opening = stacked l k ∧
      LastSplit t c.before l k c.body c.closing c.after := by
  constructor
  · intro h
    obtain ⟨P, l, hopens⟩ := isSome_loose?_iff.1 (Option.isSome_of_eq_some h)
    obtain ⟨P, l, k, R, E, S, hlast⟩ := exists_lastSplit hopens
    obtain rfl := Option.some.inj (h.symm.trans hlast.loose?)
    exact ⟨l, k, rfl, hlast⟩
  · obtain ⟨before, opening, body, closing, after⟩ := c
    intro h'
    rcases h' with ⟨l, k, rfl, h⟩
    exact h.loose?

end Sections

namespace Splice

open Marker Sections

/-- **The stacking policy finds the last split and writes its opening twice.** It finds the markers exactly
where some opening line has a closing behind it, and then a last split exists; otherwise nothing changes. -/
theorem make_stacking_eq (document block : Text) :
    ((make .stacking document block).matched = true ↔ ∃ P l, Opens document P l) ∧
    ((∃ P l, Opens document P l) → ∃ P l k R E S, LastSplit document P l k R E S) ∧
    (∀ P l k R E S, LastSplit document P l k R E S →
      make .stacking document block =
          ⟨P ++ stacked l k ++ stacked l k ++ block ++ E ++ S,
            some (Span.behind (P ++ stacked l k) R)⟩ ∧
        Policy.stacking.body? document = some R) ∧
    ((¬ ∃ P l, Opens document P l) →
      make .stacking document block = ⟨document, none⟩ ∧ Policy.stacking.body? document = none) := by
  refine ⟨?_, ?_, ?_, ?_⟩
  · rw [matched_make, Option.isSome_iff_ne_none, Ne, Policy.sections?, loose?_eq_none_iff, not_not]
  · intro h'
    rcases h' with ⟨P, l, h⟩
    exact exists_lastSplit h
  · intro P l k R E S h
    have hsections : Policy.stacking.sections? document = some ⟨P, stacked l k, R, E, S⟩ := h.loose?
    refine ⟨?_, ?_⟩
    · rw [make_eq_of_some hsections, span_eq_behind]
      rfl
    · rw [Policy.body?, hsections]
      rfl
  · intro h
    have hsections : Policy.stacking.sections? document = none := loose?_eq_none_iff.2 h
    exact ⟨make_eq_of_none hsections block, by rw [Policy.body?, hsections]; rfl⟩

end Splice
end DocSplice
