import DocSplice.Diff.Step

/-!
# Where two searches meet

Two sequences are compared on a grid: a move to the right deletes an element of the old sequence, a move
down inserts one of the new, and equal elements give a free diagonal move. A frontier holds, for each
diagonal that `d` moves can reach, the furthest point on it. One frontier grows from the start, another
from the end; where they overlap on a diagonal, a shortest way passes.
-/
namespace DocSplice.Diff

/-- A point of the grid, with what is left of the two sequences behind it. -/
structure Point (α : Type) where
  x : Nat
  y : Nat
  old : List α
  new : List α
deriving Repr

variable {α : Type}

namespace Point

/-- The point after deleting an element. -/
def right (p : Point α) : Point α := ⟨p.x + 1, p.y, p.old.tail, p.new⟩

/-- The point after inserting an element. -/
def down (p : Point α) : Point α := ⟨p.x, p.y + 1, p.old, p.new.tail⟩

/-- The point after all free moves. -/
def slide [DecidableEq α] (p : Point α) : Point α := go p.x p.y p.old p.new
where
  go (x y : Nat) : List α → List α → Point α
    | a :: old, b :: new => if a = b then go (x + 1) (y + 1) old new else ⟨x, y, a :: old, b :: new⟩
    | old, new => ⟨x, y, old, new⟩

end Point

/-- A frontier lists its points from the highest diagonal to the lowest. -/
abbrev Frontier (α : Type) := List (Point α)

namespace Frontier

/-- The points that one more move reaches, before free moves: on each diagonal the further one of the
point above moved down and the point below moved to the right, and the latter if they are level. -/
def advance : Frontier α → Frontier α
  | [] => []
  | p :: rest => p.right :: between p rest
where
  between (above : Point α) : Frontier α → Frontier α
    | [] => [above.down]
    | below :: rest => (if below.x < above.x then above.down else below.right) :: between below rest

/-- Pairs the points of one frontier with those of the opposite one that lie on the same diagonal, for
sequences of `n` and `m` elements. -/
def facing {β : Type} (n m : Nat) (own : List β) (opposite : Frontier α) : List (β × Point α) :=
  (own.drop ((m - n + 1) / 2)).zip (opposite.reverse.drop ((n - m) / 2))

end Frontier

variable [DecidableEq α]

/-- The two frontiers of a search, and the points at which their next round begins. -/
structure Search (α : Type) where
  forward : Frontier α
  backward : Frontier α
  forwardStarts : Frontier α
  backwardStarts : Frontier α

namespace Search

/-- The search before its first round. -/
def start (old new : List α) : Search α :=
  ⟨[], [], [⟨0, 0, old, new⟩], [⟨0, 0, old.reverse, new.reverse⟩]⟩

/-- Runs up to `rounds` rounds. Sequences whose lengths differ by an odd number meet in the forward half
of a round, at the point where its free moves began, the others in the backward half, at the point where
its free moves ended. -/
def meeting? (n m : Nat) : Nat → Search α → Option (Nat × Nat)
  | 0, _ => none
  | rounds + 1, s =>
    let odd := (n + m) % 2 = 1
    let forward := s.forwardStarts.map Point.slide
    let backward := s.backwardStarts.map Point.slide
    let ahead := (Frontier.facing n m (s.forwardStarts.zip forward) s.backward).find?
      fun p => n ≤ p.1.2.x + p.2.x
    let behind := (Frontier.facing n m backward forward).find? fun p => n ≤ p.1.x + p.2.x
    match (if odd then ahead.map fun p => (p.1.1.x, p.1.1.y)
      else behind.map fun p => (n - p.1.x, m - p.1.y)) with
    | some found => some found
    | none => meeting? n m rounds ⟨forward, backward, Frontier.advance forward, Frontier.advance backward⟩

end Search

/-- The point of the grid where the two searches meet. -/
def meeting? (old new : List α) : Option (Nat × Nat) :=
  let n := old.length
  let m := new.length
  Search.meeting? n m ((n + m + 1) / 2 + 1) (Search.start old new)

end DocSplice.Diff
