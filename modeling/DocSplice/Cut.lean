/-!
# Cutting a list at a place

A `Pattern` says how many elements it takes at the head of a list. `cutFirst` and `cutLast` cut a list
around the first or the last place where a pattern fits. The statements say that a cut loses nothing.
-/
namespace DocSplice

variable {α : Type}

/-- A pattern gives the number of elements it takes at the head of a list, if it fits there. -/
abbrev Pattern (α : Type) := List α → Option Nat

/-- The pattern that fits one fixed word. -/
def Pattern.word [BEq α] (w : List α) : Pattern α := fun t =>
  if w.isPrefixOf t then some w.length else none

/-- The pattern that fits one element with the given property. -/
def Pattern.one (p : α → Bool) : Pattern α
  | [] => none
  | a :: _ => if p a then some 1 else none

/-- A list cut around one place. -/
structure Cut (α : Type) where
  before : List α
  hit : List α
  after : List α
deriving DecidableEq, Repr

namespace Cut

/-- The list that was cut. -/
def whole (c : Cut α) : List α := c.before ++ c.hit ++ c.after

/-- The cut behind the elements `seen`, last one first, that takes `n` elements of the rest. -/
def here (seen rest : List α) (n : Nat) : Cut α := ⟨seen.reverse, rest.take n, rest.drop n⟩

@[simp] theorem whole_here (seen rest : List α) (n : Nat) :
    (here seen rest n).whole = seen.reverse ++ rest := by simp [here, whole]

end Cut

/-- Cuts the list at the first place where the pattern fits. -/
def cutFirst (p : Pattern α) (t : List α) : Option (Cut α) := go [] t
where
  go (seen : List α) : List α → Option (Cut α)
    | [] => (p []).map (Cut.here seen [])
    | c :: r =>
      match p (c :: r) with
      | some n => some (Cut.here seen (c :: r) n)
      | none => go (c :: seen) r

/-- Cuts the list at the last place where the pattern fits. -/
def cutLast (p : Pattern α) (t : List α) : Option (Cut α) := go none [] t
where
  go (best : Option (List α × List α × Nat)) (seen : List α) : List α → Option (Cut α)
    | [] => (((p []).map fun n => (seen, [], n)).or best).map fun b => Cut.here b.1 b.2.1 b.2.2
    | c :: r => go (((p (c :: r)).map fun n => (seen, c :: r, n)).or best) (c :: seen) r

theorem cutFirst.whole_go {p : Pattern α} {seen t : List α} {c : Cut α} (h : go p seen t = some c) :
    c.whole = seen.reverse ++ t := by
  induction t generalizing seen with
  | nil =>
    obtain ⟨n, -, rfl⟩ := Option.map_eq_some_iff.1 h
    simp
  | cons x r ih =>
    unfold go at h
    split at h
    · cases h; simp
    · simpa using ih h

/-- Cutting at the first place loses nothing. -/
theorem whole_of_cutFirst {p : Pattern α} {t : List α} {c : Cut α} (h : cutFirst p t = some c) :
    c.whole = t := by simpa using cutFirst.whole_go h

theorem cutLast.whole_go {p : Pattern α} {best : Option (List α × List α × Nat)} {seen t : List α}
    {c : Cut α} (hb : ∀ b, best = some b → b.1.reverse ++ b.2.1 = seen.reverse ++ t)
    (h : go p best seen t = some c) : c.whole = seen.reverse ++ t := by
  induction t generalizing best seen with
  | nil =>
    obtain ⟨b, hb', rfl⟩ := Option.map_eq_some_iff.1 h
    cases hp : p [] with
    | none => rw [hp] at hb'; simpa using hb b (by simpa using hb')
    | some n => rw [hp] at hb'; cases hb'; simp
  | cons x r ih =>
    have := ih ?_ h
    · simpa using this
    · intro b hbest
      cases hp : p (x :: r) with
      | none => rw [hp] at hbest; simpa using hb b (by simpa using hbest)
      | some n => rw [hp] at hbest; cases hbest; simp

/-- Cutting at the last place loses nothing. -/
theorem whole_of_cutLast {p : Pattern α} {t : List α} {c : Cut α} (h : cutLast p t = some c) :
    c.whole = t := by simpa using cutLast.whole_go (by simp) h

end DocSplice
