import DocSplice.Text.Basic

/-!
# Ranges of code points

A class of characters is a list of ranges of code points. Where the ranges rise, a look-up may stop at
the first one that begins above the number and misses nothing by it (`Ranges.has_iff`).
-/
namespace DocSplice.Text

/-- Ranges of code points, both ends included. -/
abbrev Ranges := List (Nat × Nat)

namespace Ranges

/-- Whether the number is in one of the ranges. A range that begins above it ends the search. -/
def has : Ranges → Nat → Bool
  | [], _ => false
  | (low, high) :: rest, n => low ≤ n && (n ≤ high || has rest n)

/-- Whether no range is empty and each one ends before the next begins, with a gap between them. -/
def rising : Ranges → Bool
  | [] => true
  | [(low, high)] => low ≤ high
  | (low, high) :: (low', high') :: rest =>
    low ≤ high && high + 1 < low' && rising ((low', high') :: rest)

/-- How many code points the ranges hold. -/
def count (rs : Ranges) : Nat := rs.foldr (fun r n => r.2 + 1 - r.1 + n) 0

/-- A tail of rising ranges is rising. -/
theorem rising_tail {r : Nat × Nat} {rs : Ranges} (h : rising (r :: rs) = true) :
    rising rs = true := by
  cases rs with
  | nil => rfl
  | cons s rs => simp only [rising, Bool.and_eq_true] at h; exact h.2

/-- Rising ranges all begin no lower than the first. -/
theorem low_le_of_mem {r s : Nat × Nat} {rs : Ranges} (h : rising (r :: rs) = true) (hs : s ∈ rs) :
    r.1 ≤ s.1 := by
  induction rs generalizing r with
  | nil => cases hs
  | cons t rs ih =>
    have ht := rising_tail h
    simp only [rising, Bool.and_eq_true, decide_eq_true_eq] at h
    rcases List.mem_cons.mp hs with rfl | hs
    · omega
    · have := ih ht hs
      omega

/-- A look-up in rising ranges finds the number exactly where some range holds it. -/
theorem has_iff {rs : Ranges} (h : rs.rising = true) (n : Nat) :
    rs.has n = true ↔ ∃ r ∈ rs, r.1 ≤ n ∧ n ≤ r.2 := by
  induction rs with
  | nil => simp [has]
  | cons r rs ih =>
    have low := fun s => low_le_of_mem (s := s) h
    simp only [has, Bool.and_eq_true, Bool.or_eq_true, decide_eq_true_eq, ih (rising_tail h),
      List.mem_cons, or_and_right, exists_or, exists_eq_left]
    constructor
    · rintro ⟨hr, hn | hn⟩
      · exact .inl ⟨hr, hn⟩
      · exact .inr hn
    · rintro (hn | ⟨s, hs, hn⟩)
      · exact ⟨hn.1, .inl hn.2⟩
      · exact ⟨Nat.le_trans (low s hs) hn.1, .inr ⟨s, hs, hn⟩⟩

end Ranges

end DocSplice.Text
