import DocSplice.Plan
import DocSplice.Proofs.Stacking

/-!
# Series of updates

A series updates a document again and again, each time with its own policy and examples. What one update
preserves, the whole series preserves (`updatedBy_induction`). Under either policy an opening word lies in what
an update keeps before the block, and a closing begins what it keeps behind it; hence no series of updates
reaches the text up to the first opening word or the text from the last closing on (`updatedBy_frame`), whatever
markers the blocks themselves bring in.
-/
namespace DocSplice

open Marker

/-! ## The kept text -/

namespace Policy

variable {p : Policy} {t : Text} {c : Sections}

/-- The opening that a policy keeps holds an opening word. -/
theorem opening_holds (h : p.sections? t = some c) : openingWord <:+: c.opening := by
  cases p with
  | stacking =>
      obtain ⟨l, k, hopening, hlast⟩ := Sections.loose?_eq_some_iff.1 h
      rw [hopening, Sections.stacked]
      exact hlast.holds.trans (List.prefix_append l _).isInfix
  | replacing =>
      obtain ⟨hopening, -, -⟩ := Sections.strict?_eq_some_iff.1 h
      rw [hopening]
      exact openingWord_begins.isInfix

/-- The closing that a policy keeps is a closing. -/
theorem isClosing_closing (h : p.sections? t = some c) : IsClosing c.closing := by
  cases p with
  | stacking =>
      obtain ⟨l, k, -, hlast⟩ := Sections.loose?_eq_some_iff.1 h
      exact hlast.closes
  | replacing =>
      obtain ⟨-, hclosing, -⟩ := Sections.strict?_eq_some_iff.1 h
      rw [hclosing]
      exact isClosing_closingHead

/-- A document without an opening word or without a closing has no sections. -/
theorem sections?_eq_none (h : ¬ openingWord <:+: t ∨ ¬ Closes t) : p.sections? t = none := by
  rw [Option.eq_none_iff_forall_ne_some]
  intro c hc
  have ht := document_of_sections? hc
  rw [Sections.document] at ht
  rcases h with h | h
  · refine h ((opening_holds hc).trans ⟨c.before, c.body ++ c.closing ++ c.after, ?_⟩)
    simpa using ht
  · rw [← ht] at h
    exact h (closes_of_isClosing (isClosing_closing hc) _ _)

/-- An update keeps what stands before the body, and what stands behind it. -/
theorem fill_eq (p : Policy) (c : Sections) (block : Text) :
    ∃ m, p.fill c block = (c.before ++ c.opening) ++ m ++ (c.closing ++ c.after) := by
  cases p with
  | stacking => exact ⟨c.opening ++ block, by simp [fill]⟩
  | replacing => exact ⟨block, by simp [fill]⟩

end Policy

/-! ## One update -/

namespace Plan

variable {p : Policy} {t u v e : Text}

theorem updated_eq_of_none (h : p.sections? t = none) (e : Text) : (make p t e).updated = t := by
  rw [updated_make, Splice.make_eq_of_none h]

theorem updated_eq_of_some {c : Sections} (h : p.sections? t = some c) (e : Text) :
    (make p t e).updated = p.fill c (Block.render e) := by
  rw [updated_make, Splice.make_eq_of_some h]

/-- An update keeps the text up to the first opening word. -/
theorem head_updated (p : Policy) (e : Text) (hfirst : FirstPlace (openingWord <+: ·) u (openingWord ++ v))
    (h : u ++ openingWord <+: t) : u ++ openingWord <+: (make p t e).updated := by
  cases hc : p.sections? t with
  | none => rwa [updated_eq_of_none hc]
  | some c =>
      have ht := Policy.document_of_sections? hc
      obtain ⟨w, rfl⟩ := h
      obtain ⟨x, y, hopening⟩ := Policy.opening_holds hc
      -- The opening word of the sections stands no earlier than the first one.
      have hle : u.length ≤ (c.before ++ x).length := by
        by_contra hlt
        refine (hfirst.congr_rest w).earlier (c.before ++ x)
          (openingWord ++ (y ++ c.body ++ c.closing ++ c.after)) ?_ (by omega) (List.prefix_append _ _)
        rw [← List.append_assoc u, ← ht, Sections.document, ← hopening]
        simp
      have hkept : u ++ openingWord <+: c.before ++ c.opening := by
        refine List.prefix_of_prefix_length_le (List.prefix_append _ w) ?_ ?_
        · exact ⟨c.body ++ c.closing ++ c.after, by rw [← ht, Sections.document]; simp⟩
        · rw [← hopening]
          simp only [List.length_append] at hle ⊢
          omega
      obtain ⟨m, hfill⟩ := Policy.fill_eq p c (Block.render e)
      rw [updated_eq_of_some hc, hfill, List.append_assoc]
      exact hkept.trans (List.prefix_append _ _)

/-- An update keeps the text from the last closing on. -/
theorem tail_updated (p : Policy) (e : Text) (hlast : LastPlace ClosesAt u v) (h : v <:+ t) :
    v <:+ (make p t e).updated := by
  cases hc : p.sections? t with
  | none => rwa [updated_eq_of_none hc]
  | some c =>
      have ht := Policy.document_of_sections? hc
      obtain ⟨w, rfl⟩ := h
      have hwhole : (c.before ++ c.opening ++ c.body) ++ (c.closing ++ c.after) = w ++ v := by
        rw [← ht, Sections.document]
        simp
      -- The closing of the sections stands no later than the last one.
      have hle : (c.before ++ c.opening ++ c.body).length ≤ w.length := by
        by_contra hlt
        exact (hlast.congr_front w).later _ _ hwhole (by omega)
          ⟨c.closing, c.after, Policy.isClosing_closing hc, rfl⟩
      obtain ⟨m, -, hkept⟩ := exists_between hwhole hle
      obtain ⟨m', hfill⟩ := Policy.fill_eq p c (Block.render e)
      rw [updated_eq_of_some hc, hfill, hkept, ← List.append_assoc]
      exact List.suffix_append _ v

/-! ## Series -/

/-- The document after a series of updates, each with its policy and examples. -/
def updatedBy (document : Text) (updates : List (Policy × Text)) : Text :=
  updates.foldl (fun t u => (make u.1 t u.2).updated) document

@[simp] theorem updatedBy_nil (t : Text) : updatedBy t [] = t := rfl

@[simp] theorem updatedBy_cons (t : Text) (u : Policy × Text) (us : List (Policy × Text)) :
    updatedBy t (u :: us) = updatedBy (make u.1 t u.2).updated us := rfl

theorem updatedBy_append (t : Text) (us vs : List (Policy × Text)) :
    updatedBy t (us ++ vs) = updatedBy (updatedBy t us) vs := List.foldl_append

/-- What every single update preserves, a series of updates preserves. -/
theorem updatedBy_induction {P : Text → Prop} (step : ∀ p t e, P t → P (make p t e).updated) {t : Text}
    (h : P t) (updates : List (Policy × Text)) : P (updatedBy t updates) := by
  induction updates generalizing t with
  | nil => exact h
  | cons u us ih => exact ih (step u.1 t u.2 h)

/-- **The frame of a series of updates.** Whatever policies and examples a series uses, the document keeps its
text up to and with the first opening word, and its text from the last closing on. If there is no opening word
or no closing, it keeps all of its text. -/
theorem updatedBy_frame (document : Text) (updates : List (Policy × Text)) :
    (∀ u v, u ++ v = document → FirstPlace (openingWord <+: ·) u v →
      u ++ openingWord <+: updatedBy document updates) ∧
    (∀ u v, u ++ v = document → LastPlace ClosesAt u v → v <:+ updatedBy document updates) ∧
    (¬ openingWord <:+: document ∨ ¬ Closes document → updatedBy document updates = document) := by
  refine ⟨?_, ?_, ?_⟩
  · intro u v heq hfirst
    subst heq
    obtain ⟨w, rfl⟩ := hfirst.here
    have hhead : u ++ openingWord <+: u ++ (openingWord ++ w) := ⟨w, by simp⟩
    exact updatedBy_induction (fun p t e => head_updated p e hfirst) hhead updates
  · intro u v heq hlast
    subst heq
    exact updatedBy_induction (fun p t e => tail_updated p e hlast) (List.suffix_append u v) updates
  · intro h
    refine updatedBy_induction (P := (· = document)) ?_ rfl updates
    intro p t e heq
    subst heq
    exact updated_eq_of_none (Policy.sections?_eq_none h) e

end Plan
end DocSplice
