import DocSplice.Proofs.Furthest

/-!
# Where the two searches meet

The point where the frontier from the start and the one from the end overlap divides two sequences into parts that have
the halves of their distance between them (`Halves`). No overlap comes too early: what it joins is a way across the
grid (`distance_le_of_facing`). None comes late either, since a shortest way has a point in its middle that both
frontiers have reached (`exists_facing`). So two searches always meet, and on a shortest way (`exists_meeting`).
-/
namespace DocSplice.Diff

variable {α : Type} {n m r r' i j : ℕ}

/-! ## Points that face each other -/

namespace Frontier

/-- The points that `facing` pairs are those which lie on one diagonal, seen from the start and from the end. -/
theorem mem_facing_iff {β : Type} {own : List β} {opposite : Frontier α} {p : β} {q : Point α}
    (hown : own.length = r + 1) (hopposite : opposite.length = r' + 1)
    (hrounds : (n + m) % 2 = 0 ∧ r = r' ∨ (n + m) % 2 = 1 ∧ r = r' + 1) :
    (p, q) ∈ facing n m own opposite ↔
      ∃ i j, own[i]? = some p ∧ opposite[j]? = some q ∧ 2 * (i + j) + n = r + r' + m := by
  simp only [facing, List.mem_iff_getElem?, List.getElem?_zip_eq_some, List.getElem?_drop]
  constructor
  · rintro ⟨k, hp, hq⟩
    obtain ⟨hi, -⟩ := List.getElem?_eq_some_iff.1 hp
    obtain ⟨hj, -⟩ := List.getElem?_eq_some_iff.1 hq
    rw [List.length_reverse] at hj
    rw [List.getElem?_reverse hj] at hq
    exact ⟨_, _, hp, hq, by omega⟩
  · rintro ⟨i, j, hp, hq, hij⟩
    obtain ⟨hi, -⟩ := List.getElem?_eq_some_iff.1 hp
    obtain ⟨hj, -⟩ := List.getElem?_eq_some_iff.1 hq
    have hplace : (m - n + 1) / 2 + (i - (m - n + 1) / 2) = i := by omega
    have hopposed : opposite.length - 1 - ((n - m) / 2 + (i - (m - n + 1) / 2)) = j := by omega
    refine ⟨i - (m - n + 1) / 2, by rwa [hplace], ?_⟩
    rwa [List.getElem?_reverse (by omega), hopposed]

end Frontier

variable [DecidableEq α] {c d old new : List α} {p q : Point α} {x y : ℕ}

/-- The way from a point on, seen from the end. -/
theorem movesTo_reverse (hx : x ≤ c.length) (hy : y ≤ d.length) :
    movesTo c.reverse d.reverse (c.length - x) (d.length - y) = distance (c.drop x) (d.drop y) := by
  rw [movesTo_of_le (by simp) (by simp), List.take_reverse, List.take_reverse, distance_reverse,
    Nat.sub_sub_self hx, Nat.sub_sub_self hy]

/-- **Points that face each other and overlap join to a way across the grid.** If no shorter way exists, the first of
them lies within the grid, and the two parts of the way are no longer than the moves to the two points. -/
theorem distance_le_of_facing (hp : p.Furthest c d r i) (hq : q.Furthest c.reverse d.reverse r' j)
    (hfacing : 2 * (i + j) + c.length = r + r' + d.length) (hmeet : c.length ≤ p.x + q.x)
    (hmin : r + r' ≤ distance c d) :
    p.x ≤ c.length ∧ p.y ≤ d.length ∧ distance (c.take p.x) (d.take p.y) ≤ r ∧
      distance (c.drop p.x) (d.drop p.y) ≤ r' := by
  have hpdiagonal := hp.diagonal
  have hqdiagonal := hq.diagonal
  have hpmoves := hp.movesTo_le
  have hqmoves := hq.movesTo_le
  -- from a point beyond the grid, the facing one is too far away to be reached
  have hcross := distance_le_movesTo c d p.x p.y
  have haside := le_movesTo_add c.reverse d.reverse q.x q.y
  have hx : p.x ≤ c.length := by omega
  have hy : p.y ≤ d.length := by omega
  refine ⟨hx, hy, ?_, ?_⟩
  · rwa [← movesTo_of_le hx hy]
  · rw [← movesTo_reverse hx hy, hq.movesTo_le_iff _ _ (by omega)]
    omega

/-- **A shortest way has a point that both frontiers have reached**, if they have taken all its moves together. -/
theorem exists_facing {f g : Frontier α} (hf : Frontier.Has (Point.Furthest c d) r f)
    (hg : Frontier.Has (Point.Furthest c.reverse d.reverse) r' g) (h : distance c d = r + r') :
    ∃ i j p q, f[i]? = some p ∧ g[j]? = some q ∧ 2 * (i + j) + c.length = r + r' + d.length ∧
      c.length ≤ p.x + q.x := by
  obtain ⟨x, y, hx, hy, hfirst, hsecond⟩ := exists_divided (c := c) (d := d) (e := r) (by omega)
  have hforward : movesTo c d x y = r := by rw [movesTo_of_le hx hy, hfirst]
  have hbackward : movesTo c.reverse d.reverse (c.length - x) (d.length - y) = r' := by
    rw [movesTo_reverse hx hy]
    omega
  -- the numbers of moves say on which diagonal of either frontier the point lies
  have hforwardSide := le_movesTo_add c d x y
  have hbackwardSide := le_movesTo_add c.reverse d.reverse (c.length - x) (d.length - y)
  have hforwardParity := distance_mod_two (c.take x) (d.take y)
  have hbackwardParity := distance_mod_two (c.drop x) (d.drop y)
  simp only [List.length_take, List.length_drop] at hforwardParity hbackwardParity
  have hi : x + 2 * ((y + r - x) / 2) = y + r := by omega
  have hj : c.length - x + 2 * ((d.length - y + r' - (c.length - x)) / 2) = d.length - y + r' := by omega
  obtain ⟨p, hp⟩ := hf.exists_point hi hforward.le
  obtain ⟨q, hq⟩ := hg.exists_point hj hbackward.le
  have hxp := ((hf.point _ p hp).movesTo_le_iff _ _ hi).1 hforward.le
  have hxq := ((hg.point _ q hq).movesTo_le_iff _ _ hj).1 hbackward.le
  exact ⟨_, _, p, q, hp, hq, by omega, by omega⟩

/-! ## The meeting point -/

/-- The point divides the sequences into parts that have the halves of their distance between them. -/
structure Halves (c d : List α) (x y : ℕ) : Prop where
  old_le : x ≤ c.length
  new_le : y ≤ d.length
  first : distance (c.take x) (d.take y) = (distance c d + 1) / 2
  second : distance (c.drop x) (d.drop y) = distance c d / 2

theorem halves_of_le (hx : x ≤ c.length) (hy : y ≤ d.length) (hfirst : distance (c.take x) (d.take y) ≤ r)
    (hsecond : distance (c.drop x) (d.drop y) ≤ r') (hmin : r + r' ≤ distance c d) (hrounds : r = r' ∨ r = r' + 1) :
    Halves c d x y := by
  have hparts := distance_le_parts c d x y
  refine ⟨hx, hy, ?_, ?_⟩ <;> omega

namespace Search

variable {s : Search α}

/-- What a search holds before its round `r`. -/
structure IsAt (old new : List α) (r : ℕ) (s : Search α) : Prop where
  forwardStarts : Frontier.Has (Point.Begins old new) r s.forwardStarts
  backwardStarts : Frontier.Has (Point.Begins old.reverse new.reverse) r s.backwardStarts
  backward : r = 0 ∧ s.backward = [] ∨
    ∃ r', r = r' + 1 ∧ Frontier.Has (Point.Furthest old.reverse new.reverse) r' s.backward

theorem isAt_start (old new : List α) : (start old new).IsAt old new 0 :=
  ⟨Frontier.begins_start old new, Frontier.begins_start old.reverse new.reverse, .inl ⟨rfl, rfl⟩⟩

/-- The search after one round. -/
def next (s : Search α) : Search α :=
  ⟨s.forwardStarts.map Point.slide, s.backwardStarts.map Point.slide,
    Frontier.advance (s.forwardStarts.map Point.slide), Frontier.advance (s.backwardStarts.map Point.slide)⟩

theorem IsAt.next (h : s.IsAt old new r) : s.next.IsAt old new (r + 1) :=
  ⟨Frontier.begins_advance h.forwardStarts.slide, Frontier.begins_advance h.backwardStarts.slide,
    .inr ⟨r, rfl, h.backwardStarts.slide⟩⟩

/-! ## One round -/

/-- The pairs that the forward half of a round looks through. -/
def ahead (n m : ℕ) (s : Search α) : List ((Point α × Point α) × Point α) :=
  Frontier.facing n m (s.forwardStarts.zip (s.forwardStarts.map Point.slide)) s.backward

/-- The pairs that the backward half of a round looks through. -/
def behind (n m : ℕ) (s : Search α) : List (Point α × Point α) :=
  Frontier.facing n m (s.backwardStarts.map Point.slide) (s.forwardStarts.map Point.slide)

theorem mem_ahead_iff {begun : Point α} (h : s.IsAt old new r) (hodd : (old.length + new.length) % 2 = 1) :
    ((begun, p), q) ∈ ahead old.length new.length s ↔ ∃ r' i j, r = r' + 1 ∧ s.forwardStarts[i]? = some begun ∧
      begun.slide = p ∧ s.backward[j]? = some q ∧ 2 * (i + j) + old.length = r + r' + new.length := by
  rcases h.backward with ⟨rfl, hnil⟩ | ⟨r', rfl, hbackward⟩
  · simp [ahead, hnil, Frontier.facing]
  · have hlength : (s.forwardStarts.zip (s.forwardStarts.map Point.slide)).length = r' + 1 + 1 := by
      simp [h.forwardStarts.length]
    rw [ahead, Frontier.mem_facing_iff hlength hbackward.length (.inr ⟨hodd, rfl⟩)]
    simp only [List.getElem?_zip_eq_some, List.getElem?_map, Option.map_eq_some_iff]
    constructor
    · rintro ⟨i, j, ⟨hbegun, _, hsame, hp⟩, hq, hij⟩
      obtain rfl := Option.some.inj (hsame.symm.trans hbegun)
      exact ⟨r', i, j, rfl, hbegun, hp, hq, hij⟩
    · rintro ⟨r'', i, j, hr, hbegun, hp, hq, hij⟩
      obtain rfl := Nat.succ.inj hr
      exact ⟨i, j, ⟨hbegun, begun, hbegun, hp⟩, hq, hij⟩

theorem mem_behind_iff (h : s.IsAt old new r) (heven : (old.length + new.length) % 2 = 0) :
    (p, q) ∈ behind old.length new.length s ↔ ∃ i j, (s.backwardStarts.map Point.slide)[i]? = some p ∧
      (s.forwardStarts.map Point.slide)[j]? = some q ∧ 2 * (i + j) + old.length = r + r + new.length :=
  Frontier.mem_facing_iff h.backwardStarts.slide.length h.forwardStarts.slide.length (.inl ⟨heven, rfl⟩)

/-- Where the forward half of a round finds an overlap, free moves end that began in the middle of a shortest way. -/
theorem halves_of_mem_ahead {begun : Point α} (h : s.IsAt old new r) (hodd : (old.length + new.length) % 2 = 1)
    (hmin : 2 * r ≤ distance old new + 1) (hmem : ((begun, p), q) ∈ ahead old.length new.length s)
    (hmeet : old.length ≤ p.x + q.x) : Halves old new begun.x begun.y := by
  obtain ⟨r', i, j, rfl, hbegun, rfl, hq, hij⟩ := (mem_ahead_iff h hodd).1 hmem
  obtain ⟨-, hzero⟩ | ⟨_, hr, hbackward⟩ := h.backward
  · simp [hzero] at hq
  obtain rfl := Nat.succ.inj hr
  have hbegins := h.forwardStarts.point i begun hbegun
  obtain ⟨hx, hy, -, hsecond⟩ :=
    distance_le_of_facing hbegins.slide (hbackward.point j q hq) hij hmeet (by omega)
  obtain ⟨free, hold, hnew, hslidx, hslidy, -⟩ := begun.exists_slidesTo
  have hfirst := hbegins.movesTo_le
  rw [movesTo_of_le (by omega) (by omega)] at hfirst
  -- the free moves cost nothing, so that the rest of the way is no longer from where they began
  have hfree : distance (old.drop begun.x) (new.drop begun.y) =
      distance (old.drop begun.slide.x) (new.drop begun.slide.y) := by
    rw [← hbegins.old_eq, ← hbegins.new_eq, ← hbegins.slide.old_eq, ← hbegins.slide.new_eq]
    rw [hold, hnew, distance_append_left]
  exact halves_of_le (by omega) (by omega) hfirst (hfree ▸ hsecond) (by omega) (.inr rfl)

/-- Where the backward half of a round finds an overlap, a shortest way has its middle. -/
theorem halves_of_mem_behind (h : s.IsAt old new r) (heven : (old.length + new.length) % 2 = 0)
    (hmin : 2 * r ≤ distance old new + 1) (hmem : (p, q) ∈ behind old.length new.length s)
    (hmeet : old.length ≤ p.x + q.x) : Halves old new (old.length - p.x) (new.length - p.y) := by
  obtain ⟨i, j, hp, hq, hij⟩ := (mem_behind_iff h heven).1 hmem
  have hparity := distance_mod_two old new
  have hforward : q.Furthest old.reverse.reverse new.reverse.reverse r j := by
    simpa using h.forwardStarts.slide.point j q hq
  obtain ⟨hx, hy, hsecond, hfirst⟩ := distance_le_of_facing (h.backwardStarts.slide.point i p hp) hforward
    (by simpa using hij) (by simpa using hmeet) (by rw [distance_reverse]; omega)
  rw [List.length_reverse] at hx hy
  rw [List.take_reverse, List.take_reverse, distance_reverse] at hsecond
  rw [List.drop_reverse, List.drop_reverse, distance_reverse] at hfirst
  exact halves_of_le (Nat.sub_le _ _) (Nat.sub_le _ _) hfirst hsecond (by omega) (.inl rfl)

/-- Each round that has gone on far enough for a shortest way finds an overlap. -/
theorem exists_mem_ahead (h : s.IsAt old new r) (hodd : (old.length + new.length) % 2 = 1)
    (hr : distance old new + 1 = 2 * r) :
    ∃ pair ∈ ahead old.length new.length s, old.length ≤ pair.1.2.x + pair.2.x := by
  obtain ⟨rfl, -⟩ | ⟨r', rfl, hbackward⟩ := h.backward
  · omega
  obtain ⟨i, j, p, q, hp, hq, hij, hmeet⟩ := exists_facing h.forwardStarts.slide hbackward (by omega)
  rw [List.getElem?_map, Option.map_eq_some_iff] at hp
  obtain ⟨begun, hbegun, rfl⟩ := hp
  exact ⟨((begun, begun.slide), q), (mem_ahead_iff h hodd).2 ⟨r', i, j, rfl, hbegun, rfl, hq, hij⟩, hmeet⟩

theorem exists_mem_behind (h : s.IsAt old new r) (heven : (old.length + new.length) % 2 = 0)
    (hr : distance old new = 2 * r) :
    ∃ pair ∈ behind old.length new.length s, old.length ≤ pair.1.x + pair.2.x := by
  obtain ⟨j, i, q, p, hq, hp, hij, hmeet⟩ :=
    exists_facing h.forwardStarts.slide h.backwardStarts.slide (by omega)
  exact ⟨(p, q), (mem_behind_iff h heven).2 ⟨i, j, hp, hq, by omega⟩, by simpa [Nat.add_comm] using hmeet⟩

/-- The point that a round finds. -/
def found? (n m : ℕ) (s : Search α) : Option (ℕ × ℕ) :=
  if (n + m) % 2 = 1 then
    ((ahead n m s).find? fun p => n ≤ p.1.2.x + p.2.x).map fun p => (p.1.1.x, p.1.1.y)
  else ((behind n m s).find? fun p => n ≤ p.1.x + p.2.x).map fun p => (n - p.1.x, m - p.1.y)

theorem meeting?_succ (n m rounds : ℕ) (s : Search α) :
    Search.meeting? n m (rounds + 1) s =
      match found? n m s with
      | some found => some found
      | none => Search.meeting? n m rounds s.next := rfl

/-- No round finds a point that is not the middle of a shortest way. -/
theorem halves_of_found? (h : s.IsAt old new r) (hmin : 2 * r ≤ distance old new + 1)
    (hfound : found? old.length new.length s = some (x, y)) : Halves old new x y := by
  rw [found?] at hfound
  split_ifs at hfound with hodd <;> obtain ⟨pair, hpair, heq⟩ := Option.map_eq_some_iff.1 hfound
  all_goals
    obtain ⟨rfl, rfl⟩ := Prod.mk.inj heq
    have hmem := List.mem_of_find?_eq_some hpair
    have hmeet := List.find?_some hpair
    simp only [decide_eq_true_eq] at hmeet
  · exact halves_of_mem_ahead h hodd hmin hmem hmeet
  · exact halves_of_mem_behind h (by omega) hmin hmem hmeet

/-- The round finds a point in which the two frontiers have taken all moves of a shortest way. -/
theorem found?_ne_none (h : s.IsAt old new r) (hr : (distance old new + 1) / 2 = r) :
    found? old.length new.length s ≠ none := by
  have hparity := distance_mod_two old new
  rw [found?]
  split_ifs with hodd
  · obtain ⟨pair, hmem, hmeet⟩ := exists_mem_ahead h hodd (by omega)
    simpa using ⟨_, _, _, hmem, hmeet⟩
  · obtain ⟨pair, hmem, hmeet⟩ := exists_mem_behind h (by omega) (by omega)
    simpa using ⟨_, _, hmem, hmeet⟩

/-- A search finds the middle of a shortest way if it has not yet gone past it and has rounds enough left. -/
theorem exists_meeting_of_isAt {rounds : ℕ} (h : s.IsAt old new r) (hmin : 2 * r ≤ distance old new + 1)
    (hrounds : distance old new + 1 < 2 * (r + rounds)) :
    ∃ x y, Search.meeting? old.length new.length rounds s = some (x, y) ∧ Halves old new x y := by
  induction rounds generalizing r s with
  | zero => omega
  | succ rounds ih =>
      rw [meeting?_succ]
      cases hfound : found? old.length new.length s with
      | some point => exact ⟨point.1, point.2, rfl, halves_of_found? h hmin hfound⟩
      | none =>
          have hr : (distance old new + 1) / 2 ≠ r := fun hr => found?_ne_none h hr hfound
          exact ih h.next (by omega) (by omega)

end Search

/-- **The two searches meet in the middle of a shortest way across the grid.** -/
theorem exists_meeting (old new : List α) : ∃ x y, meeting? old new = some (x, y) ∧ Halves old new x y := by
  have hlength := distance_le_add_length old new
  exact Search.exists_meeting_of_isAt (Search.isAt_start old new) (by omega) (by omega)

end DocSplice.Diff
