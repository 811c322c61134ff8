import DocSplice.Splice
import DocSplice.Proofs.Marker
import DocSplice.Proofs.Utf8

/-!
# What the replacing policy replaces

A document may be split at a strict opening and a strict closing behind it in many ways (`StrictSplit`). The
sections that the policy works on are the split with the shortest front and, for this front, the shortest body
(`strict?_eq_some_iff`), and the document has no sections only if it has no split. Both markers of the shortest
split stand at first places, which is how later statements use it.
-/
namespace DocSplice

/-- The octets that `body` takes behind `front`. -/
def Span.behind (front body : Text) : Span :=
  ⟨(Utf8.encode front).length, (Utf8.encode (front ++ body)).length⟩

namespace Sections

/-- The body of the sections takes these octets. -/
theorem span_eq_behind (s : Sections) :
    (⟨s.bodyStart, s.bodyEnd⟩ : Span) = Span.behind (s.before ++ s.opening) s.body := by
  simp [Span.behind, bodyStart, bodyEnd, Nat.add_assoc]

open Marker

/-- A way to split a document at a strict opening and a strict closing behind it. -/
def StrictSplit (document front body rest : Text) : Prop :=
  document = front ++ openingTail ++ body ++ closingHead ++ rest

/-- The split with the shortest front and, for this front, the shortest body. -/
structure ShortestSplit (document front body rest : Text) : Prop where
  split : StrictSplit document front body rest
  front_le : ∀ front' body' rest', StrictSplit document front' body' rest' →
    front.length ≤ front'.length
  body_le : ∀ body' rest', StrictSplit document front body' rest' → body.length ≤ body'.length

variable {t p r s : Text}

/-- A split, with the parts gathered from the right. -/
theorem strictSplit_iff :
    StrictSplit t p r s ↔ p ++ (openingTail ++ (r ++ (closingHead ++ s))) = t := by
  simp [StrictSplit, eq_comm]

/-- An opening that stands no later than that of a split has the closing of the split behind it. -/
theorem StrictSplit.closing_behind (h : StrictSplit t p r s) {u x : Text} (hu : u ++ (openingTail ++ x) = t)
    (hl : u.length ≤ p.length) : closingHead <:+: x := by
  have hsuffix : r ++ (closingHead ++ s) <:+ x := by
    have hsplit : r ++ (closingHead ++ s) <:+ t := ⟨p ++ openingTail, by simp [strictSplit_iff.1 h]⟩
    have hrest : x <:+ t := ⟨u ++ openingTail, by simp [hu]⟩
    apply List.suffix_of_suffix_length_le hsplit hrest
    have := congrArg List.length (hu.trans (strictSplit_iff.1 h).symm)
    simp only [List.length_append] at this ⊢
    omega
  exact List.IsInfix.trans ⟨r, s, by simp⟩ hsuffix.isInfix

/-- The opening of the shortest split stands at the first place. -/
theorem ShortestSplit.opening (h : ShortestSplit t p r s) :
    FirstPlace (openingTail <+: ·) p (openingTail ++ (r ++ (closingHead ++ s))) := by
  refine ⟨List.prefix_append _ _, ?_⟩
  intro u' _ hu' hlt h
  rcases h with ⟨x, rfl⟩
  have ht : u' ++ (openingTail ++ x) = t := hu'.trans (strictSplit_iff.1 h.split)
  obtain ⟨body, rest, hx⟩ := h.split.closing_behind ht hlt.le
  have hsplit : StrictSplit t u' body rest := by
    simpa [strictSplit_iff, ← ht] using hx
  exact absurd (h.front_le _ _ _ hsplit) (by omega)

/-- The closing of the shortest split stands at the first place behind the opening. -/
theorem ShortestSplit.closing (h : ShortestSplit t p r s) :
    FirstPlace (closingHead <+: ·) r (closingHead ++ s) := by
  refine ⟨List.prefix_append _ _, ?_⟩
  intro u' _ hu' hlt h
  rcases h with ⟨x, rfl⟩
  have hsplit : StrictSplit t p u' x := by
    rw [strictSplit_iff, hu', strictSplit_iff.1 h.split]
  exact absurd (h.body_le _ _ hsplit) (by omega)

/-- A split at first places is the shortest. -/
theorem shortestSplit_of_firstPlace
    (ho : FirstPlace (openingTail <+: ·) p (openingTail ++ (r ++ (closingHead ++ s))))
    (hc : FirstPlace (closingHead <+: ·) r (closingHead ++ s)) :
    ShortestSplit (p ++ openingTail ++ r ++ closingHead ++ s) p r s := by
  refine ⟨rfl, ?_, ?_⟩
  · intro p' r' s' h
    by_contra hlt
    refine ho.earlier p' (openingTail ++ (r' ++ (closingHead ++ s'))) ?_ (by omega)
      (List.prefix_append _ _)
    simpa using strictSplit_iff.1 h
  · intro r' s' h
    by_contra hlt
    refine hc.earlier r' (closingHead ++ s') ?_ (by omega) (List.prefix_append _ _)
    simpa using strictSplit_iff.1 h

/-- A document with a split has a shortest one. -/
theorem exists_shortestSplit (h : StrictSplit t p r s) : ∃ p r s, ShortestSplit t p r s := by
  have hplace : ∃ u v, u ++ v = t ∧ openingTail <+: v :=
    ⟨p, openingTail ++ (r ++ (closingHead ++ s)), strictSplit_iff.1 h, List.prefix_append _ _⟩
  obtain ⟨u, v, hu, ho⟩ := exists_firstPlace hplace
  obtain ⟨x, rfl⟩ := ho.here
  have hle : u.length ≤ p.length := by
    by_contra hlt
    refine ho.earlier p (openingTail ++ (r ++ (closingHead ++ s))) ?_ (by omega)
      (List.prefix_append _ _)
    rw [hu, strictSplit_iff.1 h]
  obtain ⟨body, v, rfl, hc⟩ := exists_firstPlace
    (infix_iff_exists_place.1 (h.closing_behind hu hle))
  obtain ⟨rest, rfl⟩ := hc.here
  refine ⟨u, body, rest, ?_⟩
  rw [← hu]
  simpa using shortestSplit_of_firstPlace ho hc

/-- The sections of the policy are the shortest split. -/
theorem ShortestSplit.strict? (h : ShortestSplit t p r s) :
    strict? t = some ⟨p, openingTail, r, closingHead, s⟩ := by
  have ho := cutFirst_append (p := strictOpening) (by simpa [strictOpening] using h.opening)
    (Pattern.word_eq_some_iff.2 ⟨List.prefix_append _ _, rfl⟩)
  have hc := cutFirst_append (p := strictClosing) (by simpa [strictClosing] using h.closing)
    (Pattern.word_eq_some_iff.2 ⟨List.prefix_append _ _, rfl⟩)
  rw [Sections.strict?, ← strictSplit_iff.1 h.split, ho]
  simp [hc]

theorem strict?_eq_none_iff : strict? t = none ↔ ¬ ∃ p r s, StrictSplit t p r s := by
  constructor
  · intro h h'
    rcases h' with ⟨p, r, s, hsplit⟩
    obtain ⟨p, r, s, hshortest⟩ := exists_shortestSplit hsplit
    rw [hshortest.strict?] at h
    cases h
  · intro h
    rw [Option.eq_none_iff_forall_ne_some]
    intro c hc
    obtain ⟨o, ho, hc⟩ := Option.bind_eq_some_iff.1 hc
    obtain ⟨e, he, rfl⟩ := Option.map_eq_some_iff.1 hc
    obtain ⟨v, n, ht, -, hv, -, hafter⟩ := firstPlace_of_cutFirst ho
    obtain ⟨v', n', hafter', -, hv', -, -⟩ := firstPlace_of_cutFirst he
    obtain ⟨⟨x, rfl⟩, rfl⟩ := Pattern.word_eq_some_iff.1 hv
    obtain ⟨⟨x', rfl⟩, -⟩ := Pattern.word_eq_some_iff.1 hv'
    rw [List.drop_left] at hafter
    refine h ⟨o.before, e.before, x', strictSplit_iff.2 ?_⟩
    rw [ht, ← hafter, hafter']

theorem isSome_strict?_iff : (strict? t).isSome ↔ ∃ p r s, StrictSplit t p r s := by
  rw [Option.isSome_iff_ne_none, Ne, strict?_eq_none_iff, not_not]

/-- The sections of the policy are the shortest split, and there are none only if there is no split. -/
theorem strict?_eq_some_iff {c : Sections} :
    strict? t = some c ↔ c.opening = openingTail ∧ c.closing = closingHead ∧
      ShortestSplit t c.before c.body c.after := by
  constructor
  · intro h
    obtain ⟨p, r, s, hsplit⟩ := isSome_strict?_iff.1 (Option.isSome_of_eq_some h)
    obtain ⟨p, r, s, hshortest⟩ := exists_shortestSplit hsplit
    obtain rfl := Option.some.inj (h.symm.trans hshortest.strict?)
    exact ⟨rfl, rfl, hshortest⟩
  · obtain ⟨before, opening, body, closing, after⟩ := c
    intro h'
    rcases h' with ⟨rfl, rfl, h⟩
    exact h.strict?

end Sections

namespace Splice

open Marker Sections

/-- **The replacing policy finds the shortest split and replaces its body.** It finds the markers exactly where
the document has a split at all, and then a shortest one exists; without a split nothing changes. -/
theorem make_replacing_eq (document block : Text) :
    ((make .replacing document block).matched = true ↔ ∃ p r s, StrictSplit document p r s) ∧
    ((∃ p r s, StrictSplit document p r s) → ∃ p r s, ShortestSplit document p r s) ∧
    (∀ p r s, ShortestSplit document p r s →
      make .replacing document block =
          ⟨p ++ openingTail ++ block ++ closingHead ++ s, some (Span.behind (p ++ openingTail) r)⟩ ∧
        Policy.replacing.body? document = some r) ∧
    ((¬ ∃ p r s, StrictSplit document p r s) →
      make .replacing document block = ⟨document, none⟩ ∧ Policy.replacing.body? document = none) := by
  refine ⟨?_, ?_, ?_, ?_⟩
  · rw [matched_make, Option.isSome_iff_ne_none, Ne, Policy.sections?, strict?_eq_none_iff, not_not]
  · intro h'
    rcases h' with ⟨p, r, s, h⟩
    exact exists_shortestSplit h
  · intro p r s h
    have hsections : Policy.replacing.sections? document = some ⟨p, openingTail, r, closingHead, s⟩ :=
      h.strict?
    refine ⟨?_, ?_⟩
    · rw [make_eq_of_some hsections, span_eq_behind]
      rfl
    · rw [Policy.body?, hsections]
      rfl
  · intro h
    have hsections : Policy.replacing.sections? document = none := strict?_eq_none_iff.2 h
    exact ⟨make_eq_of_none hsections block, by rw [Policy.body?, hsections]; rfl⟩

end Splice
end DocSplice
