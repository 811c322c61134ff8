import Mathlib.Data.List.Basic
import Mathlib.Data.List.TakeDrop
import DocSplice.Diff.Step

/-!
# The distance of two sequences

The distance of two sequences is the least number of elements that have to be deleted from the one and inserted to
make it the other. What remains is a longest common subsequence (`exists_isLongestCommon`), so that the distance can be
bounded by any common subsequence (`distance_add_le`), and nearly all of its laws are read off from one: it is the same
for the reversed sequences, no greater for joined ones than for their parts together, and changes by one at most for
each element more. Whatever number of changes up to the distance one spends, the sequences can be divided so that this
many go to the first parts and what is left to the second (`exists_divided`).
-/
namespace DocSplice.Diff

open scoped List

variable {α : Type}

/-- A longest sequence whose elements stand in both sequences in its order. -/
structure IsLongestCommon (common c d : List α) : Prop where
  left : common <+ c
  right : common <+ d
  longest : ∀ other, other <+ c → other <+ d → other.length ≤ common.length

variable [DecidableEq α]

/-- The least number of elements that have to be deleted from the first sequence and inserted to make it the
second. -/
def distance : List α → List α → ℕ
  | [], d => d.length
  | c, [] => c.length
  | x :: c, y :: d => if x = y then distance c d else min (distance c (y :: d)) (distance (x :: c) d) + 1

variable {a b c d : List α} {x y : α} {e : ℕ}

@[simp] theorem distance_nil_left (d : List α) : distance [] d = d.length := by rw [distance]

@[simp] theorem distance_nil_right (c : List α) : distance c [] = c.length := by
  cases c <;> simp [distance]

theorem distance_cons_cons (x y : α) (c d : List α) :
    distance (x :: c) (y :: d) =
      if x = y then distance c d else min (distance c (y :: d)) (distance (x :: c) d) + 1 := by rw [distance]

/-! ## Common subsequences -/

/-- The distance is attained: a common subsequence stays, and all other elements are changed. -/
theorem exists_common_sublist (c d : List α) :
    ∃ common, common <+ c ∧ common <+ d ∧ distance c d + 2 * common.length = c.length + d.length := by
  fun_induction distance c d with
  | case1 d => exact ⟨[], List.nil_sublist _, List.nil_sublist _, by simp⟩
  | case2 c => exact ⟨[], List.nil_sublist _, List.nil_sublist _, by simp⟩
  | case3 c x d ih =>
      obtain ⟨common, hc, hd, hlen⟩ := ih
      refine ⟨x :: common, hc.cons_cons x, hd.cons_cons x, ?_⟩
      simp only [List.length_cons]
      omega
  | case4 x c y d _ ihc ihd =>
      by_cases hle : distance c (y :: d) ≤ distance (x :: c) d
      · obtain ⟨common, hc, hd, hlen⟩ := ihc
        refine ⟨common, hc.cons x, hd, ?_⟩
        simp only [List.length_cons] at hlen ⊢
        omega
      · obtain ⟨common, hc, hd, hlen⟩ := ihd
        refine ⟨common, hc, hd.cons y, ?_⟩
        simp only [List.length_cons] at hlen ⊢
        omega

/-- The distance is least: whatever stays is a common subsequence. -/
theorem distance_add_le {other : List α} (hc : other <+ c) (hd : other <+ d) :
    distance c d + 2 * other.length ≤ c.length + d.length := by
  fun_induction distance c d generalizing other with
  | case1 d => simp [List.sublist_nil.1 hc]
  | case2 c => simp [List.sublist_nil.1 hd]
  | case3 c x d ih =>
      have htail := ih hc.tail hd.tail
      simp only [List.length_tail, List.length_cons] at htail ⊢
      omega
  | case4 x c y d hne ihc ihd =>
      -- two different elements are not both the first one that stays
      have hsplit : other <+ c ∨ other <+ d := by
        rcases List.sublist_cons_iff.1 hc with hc | ⟨r, rfl, -⟩
        · exact .inl hc
        · rcases List.sublist_cons_iff.1 hd with hd | ⟨r', heq, -⟩
          · exact .inr hd
          · exact absurd (List.cons.inj heq).1 hne
      simp only [List.length_cons] at ihc ihd ⊢
      rcases hsplit with hc' | hd'
      · have := ihc hc' hd
        omega
      · have := ihd hc hd'
        omega

/-- **Two sequences are as far apart as a longest common subsequence leaves elements of them.** -/
theorem exists_isLongestCommon (c d : List α) :
    ∃ common, IsLongestCommon common c d ∧ distance c d + 2 * common.length = c.length + d.length := by
  obtain ⟨common, hc, hd, hlen⟩ := exists_common_sublist c d
  refine ⟨common, ⟨hc, hd, ?_⟩, hlen⟩
  intro other hc' hd'
  have := distance_add_le hc' hd'
  omega

/-! ## Laws of the distance -/

theorem distance_le_add_length (c d : List α) : distance c d ≤ c.length + d.length :=
  distance_add_le (List.nil_sublist c) (List.nil_sublist d)

/-- The distance is even or odd as the number of elements is. -/
theorem distance_mod_two (c d : List α) : distance c d % 2 = (c.length + d.length) % 2 := by
  obtain ⟨common, -, -, hlen⟩ := exists_common_sublist c d
  omega

/-- One sequence cannot be longer than the other by more than the distance. -/
theorem length_le_distance_add (c d : List α) :
    c.length ≤ distance c d + d.length ∧ d.length ≤ distance c d + c.length := by
  obtain ⟨common, hc, hd, hlen⟩ := exists_common_sublist c d
  have := hc.length_le
  have := hd.length_le
  omega

theorem distance_eq_zero_iff : distance c d = 0 ↔ c = d := by
  constructor
  · intro h
    obtain ⟨common, hc, hd, hlen⟩ := exists_common_sublist c d
    have hclen := hc.length_le
    have hdlen := hd.length_le
    rw [← hc.eq_of_length (by omega), ← hd.eq_of_length (by omega)]
  · rintro rfl
    have := distance_add_le (List.Sublist.refl c) (List.Sublist.refl c)
    omega

theorem distance_reverse (c d : List α) : distance c.reverse d.reverse = distance c d := by
  have hle : ∀ c d : List α, distance c.reverse d.reverse ≤ distance c d := by
    intro c d
    obtain ⟨common, hc, hd, hlen⟩ := exists_common_sublist c d
    have := distance_add_le hc.reverse hd.reverse
    simp only [List.length_reverse] at this
    omega
  refine Nat.le_antisymm (hle c d) ?_
  simpa using hle c.reverse d.reverse

/-- Joined sequences need no more changes than their parts. -/
theorem distance_append_le (a b c d : List α) : distance (a ++ b) (c ++ d) ≤ distance a c + distance b d := by
  obtain ⟨common, ha, hc, hlen⟩ := exists_common_sublist a c
  obtain ⟨common', hb, hd, hlen'⟩ := exists_common_sublist b d
  have := distance_add_le (ha.append hb) (hc.append hd)
  simp only [List.length_append] at this
  omega

@[simp] theorem distance_append_left (a c d : List α) : distance (a ++ c) (a ++ d) = distance c d := by
  induction a with
  | nil => rfl
  | cons x a ih => simpa [distance_cons_cons] using ih

@[simp] theorem distance_append_right (a c d : List α) : distance (c ++ a) (d ++ a) = distance c d := by
  rw [← distance_reverse, List.reverse_append, List.reverse_append, distance_append_left, distance_reverse]

/-- Divided sequences need no fewer changes in their parts. -/
theorem distance_le_parts (c d : List α) (m n : ℕ) :
    distance c d ≤ distance (c.take m) (d.take n) + distance (c.drop m) (d.drop n) := by
  simpa using distance_append_le (c.take m) (c.drop m) (d.take n) (d.drop n)

/-! ## One element more -/

/-- An element less on one side costs one change at most, and one less on both sides none. -/
theorem distance_tail_le (x y : α) (c d : List α) :
    distance c d ≤ distance (x :: c) d + 1 ∧ distance c d ≤ distance c (y :: d) + 1 ∧
      distance c d ≤ distance (x :: c) (y :: d) := by
  have hbound : ∀ {common : List α}, common.tail <+ c → common.tail <+ d →
      distance c d + 2 * common.length ≤ c.length + d.length + 2 := by
    intro common hc hd
    have := distance_add_le hc hd
    simp only [List.length_tail] at this
    omega
  refine ⟨?_, ?_, ?_⟩
  · obtain ⟨common, hc, hd, hlen⟩ := exists_common_sublist (x :: c) d
    have := hbound hc.tail ((List.tail_sublist _).trans hd)
    simp only [List.length_cons] at hlen
    omega
  · obtain ⟨common, hc, hd, hlen⟩ := exists_common_sublist c (y :: d)
    have := hbound ((List.tail_sublist _).trans hc) hd.tail
    simp only [List.length_cons] at hlen
    omega
  · obtain ⟨common, hc, hd, hlen⟩ := exists_common_sublist (x :: c) (y :: d)
    have := hbound hc.tail hd.tail
    simp only [List.length_cons] at hlen
    omega

/-- The same at the end. -/
theorem distance_front_le (x y : α) (c d : List α) :
    distance c d ≤ distance (c ++ [x]) d + 1 ∧ distance c d ≤ distance c (d ++ [y]) + 1 ∧
      distance c d ≤ distance (c ++ [x]) (d ++ [y]) := by
  simpa only [← List.reverse_concat', distance_reverse] using distance_tail_le x y c.reverse d.reverse

/-- The last elements stay if they are equal, and else one of them is changed. -/
theorem distance_concat_concat (x y : α) (c d : List α) :
    distance (c ++ [x]) (d ++ [y]) =
      if x = y then distance c d else min (distance c (d ++ [y])) (distance (c ++ [x]) d) + 1 := by
  simpa only [← List.reverse_concat', distance_reverse] using distance_cons_cons x y c.reverse d.reverse

/-! ## Two changes at least -/

theorem commonLength_append_left (a c d : List α) :
    commonLength (a ++ c) (a ++ d) = a.length + commonLength c d := by
  induction a with
  | nil => simp
  | cons x a ih =>
      simp only [List.cons_append, commonLength_cons, if_true, ih, List.length_cons]
      omega

theorem commonEndLength_append_right (a c d : List α) :
    commonEndLength (c ++ a) (d ++ a) = a.length + commonEndLength c d := by
  simp [commonEndLength, commonLength_append_left]

/-- Sequences that are not empty, do not begin alike and do not end alike differ in two changes at least. -/
theorem two_le_distance (hc : c ≠ []) (hd : d ≠ []) (hstart : commonLength c d = 0) (hstop : commonEndLength c d = 0) :
    2 ≤ distance c d := by
  obtain ⟨x, c, rfl⟩ := List.exists_cons_of_ne_nil hc
  obtain ⟨y, d, rfl⟩ := List.exists_cons_of_ne_nil hd
  have hne : x ≠ y := by
    intro heq
    simp [commonLength_cons, heq] at hstart
  -- with one change only, one of the sequences would be the other one's tail, and end as the other does
  have hends : ∀ a b l : List α, l ≠ [] → commonEndLength (a ++ l) (b ++ l) ≠ 0 := by
    intro a b l hl
    have := List.length_pos_iff.2 hl
    rw [commonEndLength_append_right]
    omega
  have hleft : distance c (y :: d) ≠ 0 := by
    rw [Ne, distance_eq_zero_iff]
    rintro rfl
    exact hends [x] [] (y :: d) (by simp) hstop
  have hright : distance (x :: c) d ≠ 0 := by
    rw [Ne, distance_eq_zero_iff]
    rintro rfl
    exact hends [] [y] (x :: c) (by simp) hstop
  rw [distance_cons_cons, if_neg hne]
  omega

/-! ## Dividing the changes -/

/-- **Any number of changes up to the distance can be spent on first parts of the sequences**, so that what is left of
the distance is spent on the second parts. -/
theorem exists_divided (he : e ≤ distance c d) :
    ∃ m n, m ≤ c.length ∧ n ≤ d.length ∧ distance (c.take m) (d.take n) = e ∧
      e + distance (c.drop m) (d.drop n) = distance c d := by
  -- it is enough to spend no more on either part, since the parts together cost the distance at least
  suffices hle : ∃ m n, m ≤ c.length ∧ n ≤ d.length ∧ distance (c.take m) (d.take n) ≤ e ∧
      e + distance (c.drop m) (d.drop n) ≤ distance c d by
    obtain ⟨m, n, hm, hn, hfirst, hsecond⟩ := hle
    have := distance_le_parts c d m n
    exact ⟨m, n, hm, hn, by omega, by omega⟩
  fun_induction distance c d generalizing e with
  | case1 d =>
      refine ⟨0, e, Nat.le_refl 0, he, ?_, ?_⟩
      · exact Nat.le_trans (Nat.le_of_eq (distance_nil_left _)) (List.length_take_le e d)
      · simp only [List.drop_nil, distance_nil_left, List.length_drop]
        omega
  | case2 c =>
      refine ⟨e, 0, he, Nat.le_refl 0, ?_, ?_⟩
      · exact Nat.le_trans (Nat.le_of_eq (distance_nil_right _)) (List.length_take_le e c)
      · simp only [List.drop_nil, distance_nil_right, List.length_drop]
        omega
  | case3 c x d ih =>
      obtain ⟨m, n, hm, hn, hfirst, hsecond⟩ := ih he
      refine ⟨m + 1, n + 1, by simpa, by simpa, ?_, by simpa using hsecond⟩
      simpa [distance_cons_cons] using hfirst
  | case4 x c y d hne ihc ihd =>
      cases e with
      | zero => exact ⟨0, 0, by simp, by simp, by simp, by simp [distance_cons_cons, hne]⟩
      | succ e =>
          by_cases hle : distance c (y :: d) ≤ distance (x :: c) d
          · obtain ⟨m, n, hm, hn, hfirst, hsecond⟩ := @ihc e (by omega)
            have hmore := distance_append_le [x] (c.take m) [] ((y :: d).take n)
            refine ⟨m + 1, n, by simpa, hn, ?_, ?_⟩
            · simp only [List.take_succ_cons]
              simp only [List.singleton_append, List.nil_append, distance_nil_right, List.length_singleton] at hmore
              omega
            · rw [List.drop_succ_cons]
              omega
          · obtain ⟨m, n, hm, hn, hfirst, hsecond⟩ := @ihd e (by omega)
            have hmore := distance_append_le [] ((x :: c).take m) [y] (d.take n)
            refine ⟨m, n + 1, hm, by simpa, ?_, ?_⟩
            · simp only [List.take_succ_cons]
              simp only [List.singleton_append, List.nil_append, distance_nil_left, List.length_singleton] at hmore
              omega
            · rw [List.drop_succ_cons]
              omega

end DocSplice.Diff
