import Mathlib.Order.Nat
import DocSplice.Diff.Frontier
import DocSplice.Proofs.Distance

/-!
# Furthest points

On the grid of two sequences, `movesTo` counts the moves to the right and down that a point takes at least: those
within the grid make up the distance of the two beginnings, and beyond an end no move is free. Along a diagonal the
number does not fall, so that the points which `d` moves reach are those up to a furthest one (`Point.Furthest`).
A frontier holds the furthest point of each diagonal: one more move leads from it to where the next frontier begins
(`Frontier.begins_advance`), and free moves lead on from there to the furthest points (`Frontier.Has.slide`).
-/
namespace DocSplice.Diff

variable {α : Type} {old new : List α} {x y d i : ℕ}

/-- A free move leads on from the point. -/
def IsFree (old new : List α) (x y : ℕ) : Prop := ∃ a, old[x]? = some a ∧ new[y]? = some a

theorem isFree_iff : IsFree old new x y ↔ ∃ (hx : x < old.length) (hy : y < new.length), old[x] = new[y] := by
  simp only [IsFree, List.getElem?_eq_some_iff]
  constructor
  · intro h
    obtain ⟨a, ⟨hx, hold⟩, hy, hnew⟩ := h
    exact ⟨hx, hy, hold.trans hnew.symm⟩
  · intro h
    obtain ⟨hx, hy, heq⟩ := h
    exact ⟨old[x], ⟨hx, rfl⟩, hy, heq.symm⟩

namespace Frontier

/-! ## The points of the next frontier -/

variable {f : Frontier α} {p q : Point α}

/-- The frontier has a point for each diagonal that `d` moves reach, from the highest one down. -/
structure Has (P : ℕ → ℕ → Point α → Prop) (d : ℕ) (f : Frontier α) : Prop where
  length : f.length = d + 1
  point : ∀ i p, f[i]? = some p → P d i p

theorem length_between (p : Point α) (f : Frontier α) : (advance.between p f).length = f.length + 1 := by
  induction f generalizing p with
  | nil => rfl
  | cons q f ih => simp [advance.between, ih]

theorem length_advance (hf : f ≠ []) : (advance f).length = f.length + 1 := by
  obtain ⟨p, f, rfl⟩ := List.exists_cons_of_ne_nil hf
  simp [advance, length_between]

theorem of_getElem?_between (h : (advance.between p f)[i]? = some q) :
    ((∃ below, f[i]? = some below ∧ q = below.right) ∨ ∃ above, (p :: f)[i]? = some above ∧ q = above.down) ∧
      (∀ below, f[i]? = some below → below.x < q.x) ∧ ∀ above, (p :: f)[i]? = some above → above.x ≤ q.x := by
  induction f generalizing p i with
  | nil =>
      cases i with
      | zero =>
          obtain rfl : p.down = q := by simpa [advance.between] using h
          simp [Point.down]
      | succ i => simp [advance.between] at h
  | cons below f ih =>
      cases i with
      | zero =>
          obtain rfl : (if below.x < p.x then p.down else below.right) = q := by simpa [advance.between] using h
          split_ifs with hx
          · simp [Point.down, hx]
          · simp [Point.right]
            omega
      | succ i =>
          rw [advance.between, List.getElem?_cons_succ] at h
          simpa using ih h

/-- Each point of the next frontier is one move away from the point below or above it, and no less far than from
either of them. -/
theorem of_getElem?_advance (h : (advance f)[i]? = some q) :
    ((∃ below, f[i]? = some below ∧ q = below.right) ∨ ∃ j above, i = j + 1 ∧ f[j]? = some above ∧ q = above.down) ∧
      (∀ below, f[i]? = some below → below.x < q.x) ∧ ∀ j, i = j + 1 → ∀ above, f[j]? = some above → above.x ≤ q.x := by
  cases f with
  | nil => simp [advance] at h
  | cons p f =>
      cases i with
      | zero =>
          obtain rfl : p.right = q := by simpa [advance] using h
          simp [Point.right]
      | succ i =>
          rw [advance, List.getElem?_cons_succ] at h
          simpa using of_getElem?_between h

end Frontier

variable [DecidableEq α]

/-! ## Moves -/

/-- The number of moves to the right and down that lead to a point of the grid at least. -/
def movesTo (old new : List α) (x y : ℕ) : ℕ :=
  distance (old.take x) (new.take y) + (x - old.length) + (y - new.length)

theorem movesTo_of_le (hx : x ≤ old.length) (hy : y ≤ new.length) :
    movesTo old new x y = distance (old.take x) (new.take y) := by
  rw [movesTo]
  omega

theorem movesTo_zero_left (old new : List α) (y : ℕ) : movesTo old new 0 y = y := by
  simp only [movesTo, List.take_zero, distance_nil_left, List.length_take]
  omega

theorem movesTo_zero_right (old new : List α) (x : ℕ) : movesTo old new x 0 = x := by
  simp only [movesTo, List.take_zero, distance_nil_right, List.length_take]
  omega

/-- Beyond the end of the old sequence, each move to the right counts. -/
theorem movesTo_right_of_le (hx : old.length ≤ x) : movesTo old new (x + 1) y = movesTo old new x y + 1 := by
  simp only [movesTo, List.take_of_length_le hx, List.take_of_length_le (hx.trans (Nat.le_succ x))]
  omega

/-- Beyond the end of the new sequence, each move down counts. -/
theorem movesTo_down_of_le (hy : new.length ≤ y) : movesTo old new x (y + 1) = movesTo old new x y + 1 := by
  simp only [movesTo, List.take_of_length_le hy, List.take_of_length_le (hy.trans (Nat.le_succ y))]
  omega

/-- Within the grid, a point between equal elements is reached from the one before it by a free move. -/
theorem movesTo_succ_succ (hx : x < old.length) (hy : y < new.length) :
    movesTo old new (x + 1) (y + 1) = if old[x] = new[y] then movesTo old new x y
      else min (movesTo old new x (y + 1)) (movesTo old new (x + 1) y) + 1 := by
  have hlast := distance_concat_concat old[x] new[y] (old.take x) (new.take y)
  rw [List.take_append_getElem hx, List.take_append_getElem hy] at hlast
  rw [movesTo_of_le hx hy, movesTo_of_le hx.le hy.le, movesTo_of_le hx.le hy, movesTo_of_le hx hy.le, hlast]

theorem movesTo_right_le (old new : List α) (x y : ℕ) : movesTo old new (x + 1) y ≤ movesTo old new x y + 1 := by
  by_cases hx : x < old.length
  · have h := distance_append_le (old.take x) [old[x]] (new.take y) []
    rw [List.append_nil, List.take_append_getElem hx, distance_nil_right, List.length_singleton] at h
    simp only [movesTo]
    omega
  · exact (movesTo_right_of_le (Nat.le_of_not_lt hx)).le

theorem movesTo_down_le (old new : List α) (x y : ℕ) : movesTo old new x (y + 1) ≤ movesTo old new x y + 1 := by
  by_cases hy : y < new.length
  · have h := distance_append_le (old.take x) [] (new.take y) [new[y]]
    rw [List.append_nil, List.take_append_getElem hy, distance_nil_left, List.length_singleton] at h
    simp only [movesTo]
    omega
  · exact (movesTo_down_of_le (Nat.le_of_not_lt hy)).le

/-- Further down a diagonal no fewer moves lead. -/
theorem movesTo_le_succ (old new : List α) (x y : ℕ) : movesTo old new x y ≤ movesTo old new (x + 1) (y + 1) := by
  by_cases hx : x < old.length
  · by_cases hy : y < new.length
    · have h := (distance_front_le old[x] new[y] (old.take x) (new.take y)).2.2
      rw [List.take_append_getElem hx, List.take_append_getElem hy] at h
      rwa [movesTo_of_le hx hy, movesTo_of_le hx.le hy.le]
    · have h := (distance_front_le old[x] old[x] (old.take x) (new.take y)).1
      rw [List.take_append_getElem hx] at h
      rw [movesTo_down_of_le (Nat.le_of_not_lt hy)]
      simp only [movesTo]
      omega
  · have h : movesTo old new x y ≤ movesTo old new x (y + 1) + 1 := by
      by_cases hy : y < new.length
      · have h := (distance_front_le new[y] new[y] (old.take x) (new.take y)).2.1
        rw [List.take_append_getElem hy] at h
        simp only [movesTo]
        omega
      · rw [movesTo_down_of_le (Nat.le_of_not_lt hy)]
        omega
    rwa [movesTo_right_of_le (Nat.le_of_not_lt hx)]

theorem movesTo_le_add (old new : List α) (x y n : ℕ) : movesTo old new x y ≤ movesTo old new (x + n) (y + n) := by
  induction n with
  | zero => exact Nat.le_refl _
  | succ n ih => exact ih.trans (movesTo_le_succ old new (x + n) (y + n))

/-- A point cannot be further from the main diagonal than moves lead to it. -/
theorem le_movesTo_add (old new : List α) (x y : ℕ) : x ≤ movesTo old new x y + y ∧ y ≤ movesTo old new x y + x := by
  have h := length_le_distance_add (old.take x) (new.take y)
  simp only [List.length_take] at h
  rw [movesTo]
  omega

/-- From any point, the rest of the grid can be crossed by as many moves as there are elements left. -/
theorem distance_le_movesTo (old new : List α) (x y : ℕ) :
    distance old new + (x - old.length) + (y - new.length) ≤
      movesTo old new x y + (old.length - x) + (new.length - y) := by
  have hparts := distance_le_parts old new x y
  have hrest := distance_le_add_length (old.drop x) (new.drop y)
  simp only [List.length_drop] at hrest
  rw [movesTo]
  omega

/-! ## Free moves -/

theorem IsFree.movesTo_succ_succ (h : IsFree old new x y) : movesTo old new (x + 1) (y + 1) = movesTo old new x y := by
  obtain ⟨hx, hy, heq⟩ := isFree_iff.1 h
  rw [DocSplice.Diff.movesTo_succ_succ hx hy, if_pos heq]

/-- Free moves along elements that stand in both sequences. -/
theorem movesTo_free {free u v : List α} (hold : old.drop x = free ++ u) (hnew : new.drop y = free ++ v) :
    movesTo old new (x + free.length) (y + free.length) = movesTo old new x y := by
  induction free generalizing x y with
  | nil => rfl
  | cons a free ih =>
      have hfree : IsFree old new x y := by
        refine ⟨a, ?_, ?_⟩
        · rw [← List.head?_drop, hold, List.cons_append, List.head?_cons]
        · rw [← List.head?_drop, hnew, List.cons_append, List.head?_cons]
      have hrest := @ih (x + 1) (y + 1) (by rw [← List.drop_drop, hold]; rfl) (by rw [← List.drop_drop, hnew]; rfl)
      rw [hfree.movesTo_succ_succ] at hrest
      rw [List.length_cons, Nat.add_comm free.length, ← Nat.add_assoc, ← Nat.add_assoc, hrest]

/-- **The last move to a point** leads to the right or down, or is free. -/
theorem exists_last_move (h : movesTo old new x y ≤ d) :
    x = 0 ∧ y = 0 ∨ (∃ w, x = w + 1 ∧ movesTo old new w y < d) ∨ (∃ z, y = z + 1 ∧ movesTo old new x z < d) ∨
      ∃ w z, x = w + 1 ∧ y = z + 1 ∧ IsFree old new w z ∧ movesTo old new w z ≤ d := by
  match x, y with
  | 0, 0 => exact .inl ⟨rfl, rfl⟩
  | 0, z + 1 =>
      rw [movesTo_zero_left] at h
      exact .inr (.inr (.inl ⟨z, rfl, by rw [movesTo_zero_left]; omega⟩))
  | w + 1, 0 =>
      rw [movesTo_zero_right] at h
      exact .inr (.inl ⟨w, rfl, by rw [movesTo_zero_right]; omega⟩)
  | w + 1, z + 1 =>
      by_cases hw : w < old.length
      · by_cases hz : z < new.length
        · rw [movesTo_succ_succ hw hz] at h
          split_ifs at h with heq
          · exact .inr (.inr (.inr ⟨w, z, rfl, rfl, isFree_iff.2 ⟨hw, hz, heq⟩, h⟩))
          · have hbefore : movesTo old new w (z + 1) < d ∨ movesTo old new (w + 1) z < d := by omega
            rcases hbefore with h | h
            · exact .inr (.inl ⟨w, rfl, h⟩)
            · exact .inr (.inr (.inl ⟨z, rfl, h⟩))
        · rw [movesTo_down_of_le (Nat.le_of_not_lt hz)] at h
          exact .inr (.inr (.inl ⟨z, rfl, h⟩))
      · rw [movesTo_right_of_le (Nat.le_of_not_lt hw)] at h
        exact .inr (.inl ⟨w, rfl, h⟩)

namespace Point

/-- Free moves lead from the one point to the other, along elements that stand in both sequences, and end there. -/
structure SlidesTo (p q : Point α) (free : List α) : Prop where
  old_eq : p.old = free ++ q.old
  new_eq : p.new = free ++ q.new
  x_eq : q.x = p.x + free.length
  y_eq : q.y = p.y + free.length
  ends : ∀ a, q.old.head? = some a → q.new.head? ≠ some a

theorem exists_slidesTo_go (x y : ℕ) (old new : List α) :
    ∃ free, SlidesTo ⟨x, y, old, new⟩ (slide.go x y old new) free := by
  induction old generalizing x y new with
  | nil => exact ⟨[], rfl, rfl, rfl, rfl, by simp [slide.go]⟩
  | cons a old ih =>
      cases new with
      | nil => exact ⟨[], rfl, rfl, rfl, rfl, by simp [slide.go]⟩
      | cons b new =>
          rw [slide.go]
          split_ifs with hab
          · subst hab
            obtain ⟨free, h⟩ := ih (x + 1) (y + 1) new
            have hx : _ = x + 1 + free.length := h.x_eq
            have hy : _ = y + 1 + free.length := h.y_eq
            refine ⟨a :: free, congrArg (a :: ·) h.old_eq, congrArg (a :: ·) h.new_eq, ?_, ?_, h.ends⟩
            · simp only [hx, List.length_cons]
              omega
            · simp only [hy, List.length_cons]
              omega
          · refine ⟨[], rfl, rfl, rfl, rfl, ?_⟩
            intro c hold hnew
            exact hab ((Option.some.inj hold).trans (Option.some.inj hnew).symm)

/-- A point slides along the free moves that it has. -/
theorem exists_slidesTo (p : Point α) : ∃ free, p.SlidesTo p.slide free := exists_slidesTo_go p.x p.y p.old p.new

/-! ## The furthest point of a diagonal -/

/-- The point lies on the diagonal that comes `i` places behind the highest one that `d` moves reach, and carries what
is left of the two sequences behind it. -/
structure LiesOn (old new : List α) (d i : ℕ) (p : Point α) : Prop where
  diagonal : p.x + 2 * i = p.y + d
  old_eq : p.old = old.drop p.x
  new_eq : p.new = new.drop p.y

/-- The point is the furthest one on its diagonal that `d` moves reach. -/
structure Furthest (old new : List α) (d i : ℕ) (p : Point α) : Prop extends LiesOn old new d i p where
  movesTo_le_iff : ∀ x y, x + 2 * i = y + d → (movesTo old new x y ≤ d ↔ x ≤ p.x)

/-- The point can be reached by `d` moves, and free moves lead on to any further one on its diagonal that can. -/
structure Begins (old new : List α) (d i : ℕ) (p : Point α) : Prop extends LiesOn old new d i p where
  movesTo_le : movesTo old new p.x p.y ≤ d
  le_or_free : ∀ x y, x + 2 * i = y + d → movesTo old new x y ≤ d →
    x ≤ p.x ∨ ∃ w z, x = w + 1 ∧ y = z + 1 ∧ IsFree old new w z ∧ movesTo old new w z ≤ d

/-- Free moves do not leave the diagonal. -/
theorem LiesOn.slide {p : Point α} (h : p.LiesOn old new d i) : p.slide.LiesOn old new d i := by
  obtain ⟨free, hold, hnew, hx, hy, -⟩ := p.exists_slidesTo
  have hrest : ∀ {c rest : List α} {k : ℕ}, c.drop k = free ++ rest → rest = c.drop (k + free.length) := by
    intro c rest k hdrop
    rw [← List.drop_drop, hdrop, List.drop_left]
  rw [h.old_eq] at hold
  rw [h.new_eq] at hnew
  refine ⟨?_, hx ▸ hrest hold, hy ▸ hrest hnew⟩
  have hdiagonal := h.diagonal
  omega

theorem LiesOn.movesTo_slide {p : Point α} (h : p.LiesOn old new d i) :
    movesTo old new p.slide.x p.slide.y = movesTo old new p.x p.y := by
  obtain ⟨free, hold, hnew, hx, hy, -⟩ := p.exists_slidesTo
  rw [hx, hy, movesTo_free (h.old_eq ▸ hold) (h.new_eq ▸ hnew)]

/-- **Free moves lead to the furthest point.** -/
theorem Begins.slide {p : Point α} (h : p.Begins old new d i) : p.slide.Furthest old new d i := by
  obtain ⟨hdiagonal, hold_eq, hnew_eq⟩ := h.toLiesOn.slide
  obtain ⟨_, _, _, _, _, hend⟩ := p.exists_slidesTo
  have hle := h.toLiesOn.movesTo_slide.trans_le h.movesTo_le
  refine ⟨⟨hdiagonal, hold_eq, hnew_eq⟩, ?_⟩
  intro x y hxy
  constructor
  · -- a further point would be reached by a free move from the one where free moves end
    intro hmoves
    induction x generalizing y with
    | zero => exact Nat.zero_le _
    | succ w ih =>
        rcases h.le_or_free _ y hxy hmoves with hpx | ⟨_, z, hw, rfl, hfree, hmoves⟩
        · omega
        · obtain rfl := Nat.succ.inj hw
          have hwx := ih z (by omega) hmoves
          refine Nat.lt_of_le_of_ne hwx ?_
          rintro rfl
          obtain ⟨a, ha, ha'⟩ := hfree
          obtain rfl : z = p.slide.y := by omega
          refine hend a ?_ ?_
          · rw [hold_eq, List.head?_drop, ha]
          · rw [hnew_eq, List.head?_drop, ha']
  · intro hpx
    obtain ⟨n, hn⟩ := Nat.exists_eq_add_of_le hpx
    have hny : p.slide.y = y + n := by omega
    rw [hn, hny] at hle
    exact (movesTo_le_add old new x y n).trans hle

/-! ## One more move from a furthest point -/

namespace Furthest

variable {p : Point α}

theorem movesTo_le (h : p.Furthest old new d i) : movesTo old new p.x p.y ≤ d :=
  (h.movesTo_le_iff p.x p.y h.diagonal).2 (Nat.le_refl _)

/-- A move to the right leads to the next diagonal above. -/
theorem right (h : p.Furthest old new d i) : p.right.LiesOn old new (d + 1) i := by
  have hdiagonal := h.diagonal
  refine ⟨?_, ?_, h.new_eq⟩
  · simp only [Point.right]
    omega
  · simp only [Point.right, h.old_eq, List.tail_drop]

/-- A move down leads to the next diagonal below. -/
theorem down (h : p.Furthest old new d i) : p.down.LiesOn old new (d + 1) (i + 1) := by
  have hdiagonal := h.diagonal
  refine ⟨?_, h.old_eq, ?_⟩
  · simp only [Point.down]
    omega
  · simp only [Point.down, h.new_eq, List.tail_drop]

theorem movesTo_right_le (h : p.Furthest old new d i) : movesTo old new p.right.x p.right.y ≤ d + 1 :=
  (Diff.movesTo_right_le old new p.x p.y).trans (Nat.succ_le_succ h.movesTo_le)

theorem movesTo_down_le (h : p.Furthest old new d i) : movesTo old new p.down.x p.down.y ≤ d + 1 :=
  (Diff.movesTo_down_le old new p.x p.y).trans (Nat.succ_le_succ h.movesTo_le)

end Furthest

end Point

/-! ## From one frontier to the next -/

namespace Frontier

variable {f : Frontier α}

/-- After its free moves, a frontier is furthest. -/
theorem Has.slide (h : Has (Point.Begins old new) d f) : Has (Point.Furthest old new) d (f.map Point.slide) := by
  refine ⟨by rw [List.length_map, h.length], ?_⟩
  intro i p hp
  rw [List.getElem?_map, Option.map_eq_some_iff] at hp
  obtain ⟨q, hq, rfl⟩ := hp
  exact (h.point i q hq).slide

/-- The frontier has a point on each diagonal that moves can lead to. -/
theorem Has.exists_point {P : ℕ → ℕ → Point α → Prop} (h : Has P d f) (hxy : x + 2 * i = y + d)
    (hmoves : movesTo old new x y ≤ d) : ∃ p, f[i]? = some p := by
  have hy := (le_movesTo_add old new x y).2
  have hi : i < f.length := by
    rw [h.length]
    omega
  exact ⟨f[i], List.getElem?_eq_getElem hi⟩

/-- Without moves, all begins at the corner of the grid. -/
theorem begins_start (old new : List α) : Has (Point.Begins old new) 0 [⟨0, 0, old, new⟩] := by
  refine ⟨rfl, ?_⟩
  intro i p hp
  obtain ⟨rfl, rfl⟩ : i = 0 ∧ ⟨0, 0, old, new⟩ = p := by
    cases i <;> simp_all
  refine ⟨⟨rfl, rfl, rfl⟩, by simp [movesTo_zero_left], ?_⟩
  intro x y _ hmoves
  rcases exists_last_move hmoves with ⟨rfl, -⟩ | ⟨w, -, hw⟩ | ⟨z, -, hz⟩ | hfree
  · exact .inl (Nat.le_refl 0)
  · omega
  · omega
  · exact .inr hfree

/-- **One more move leads from a furthest frontier to where the next one begins.** -/
theorem begins_advance (h : Has (Point.Furthest old new) d f) : Has (Point.Begins old new) (d + 1) (advance f) := by
  have hne : f ≠ [] := List.ne_nil_of_length_pos (by rw [h.length]; omega)
  refine ⟨by rw [length_advance hne, h.length], ?_⟩
  intro i q hq
  obtain ⟨hreached, hbelow, habove⟩ := of_getElem?_advance hq
  have hlies : q.LiesOn old new (d + 1) i ∧ movesTo old new q.x q.y ≤ d + 1 := by
    rcases hreached with ⟨below, hp, rfl⟩ | ⟨j, above, rfl, hp, rfl⟩
    · exact ⟨(h.point i below hp).right, (h.point i below hp).movesTo_right_le⟩
    · exact ⟨(h.point j above hp).down, (h.point j above hp).movesTo_down_le⟩
  refine ⟨hlies.1, hlies.2, ?_⟩
  -- the last move came from a point on a diagonal next to this one, which lies no further than the frontier there
  intro x y hxy hmoves
  rcases exists_last_move hmoves with ⟨rfl, -⟩ | ⟨w, rfl, hw⟩ | ⟨z, rfl, hz⟩ | hfree
  · exact .inl (Nat.zero_le _)
  · obtain ⟨p, hp⟩ := h.exists_point (i := i) (by omega) (Nat.le_of_lt_succ hw)
    have hwp := ((h.point i p hp).movesTo_le_iff w y (by omega)).1 (Nat.le_of_lt_succ hw)
    have := hbelow p hp
    exact .inl (by omega)
  · have hx := (le_movesTo_add old new x z).1
    obtain ⟨j, rfl⟩ := Nat.exists_eq_succ_of_ne_zero (by omega : i ≠ 0)
    obtain ⟨p, hp⟩ := h.exists_point (i := j) (by omega) (Nat.le_of_lt_succ hz)
    have hxp := ((h.point j p hp).movesTo_le_iff x z (by omega)).1 (Nat.le_of_lt_succ hz)
    have := habove j rfl p hp
    exact .inl (by omega)
  · exact .inr hfree

end Frontier

end DocSplice.Diff
