/-!
# Steps of a comparison

A comparison of two sequences is a list of steps, each of which keeps, deletes or inserts a number of
elements. A step also carries the places in the two sequences where it was found.
-/
namespace DocSplice.Diff

/-- What a step does. -/
inductive Kind where
  | keep
  | delete
  | insert
deriving DecidableEq, Repr

/-- A step: what it does, the places it was found at, and the number of its elements. -/
structure Step where
  kind : Kind
  oldAt : Nat
  newAt : Nat
  len : Nat
deriving DecidableEq, Repr

namespace Step

/-- The number of elements that the step takes from the old sequence. -/
def oldLen (s : Step) : Nat := if s.kind = .insert then 0 else s.len

/-- The number of elements that the step takes from the new sequence. -/
def newLen (s : Step) : Nat := if s.kind = .delete then 0 else s.len

/-- The step with its places `n` further up. -/
def back (s : Step) (n : Nat) : Step := { s with oldAt := s.oldAt - n, newAt := s.newAt - n }

/-- The step with its places `n` further down. -/
def forth (s : Step) (n : Nat) : Step := { s with oldAt := s.oldAt + n, newAt := s.newAt + n }

/-- The step with `n` more elements at its end. -/
def grow (s : Step) (n : Nat) : Step := { s with len := s.len + n }

/-- The step with `n` fewer elements at its end. -/
def shrink (s : Step) (n : Nat) : Step := { s with len := s.len - n }

/-- The steps of one run: none if it is empty. -/
def run (kind : Kind) (oldAt newAt len : Nat) : List Step :=
  if len = 0 then [] else [⟨kind, oldAt, newAt, len⟩]

/-- The number of elements of the steps together. -/
def total (steps : List Step) : Nat := steps.foldr (fun s n => s.len + n) 0

end Step

variable {α : Type}

/-- The stretch of `len` elements from the place `start` on. -/
def stretch (l : List α) (start len : Nat) : List α := (l.drop start).take len

variable [DecidableEq α]

/-- The length of the longest common beginning of two sequences. -/
def commonLength (a b : List α) : Nat := go 0 a b
where
  go (n : Nat) : List α → List α → Nat
    | x :: a, y :: b => if x = y then go (n + 1) a b else n
    | _, _ => n

/-- The length of the longest common end of two sequences. -/
def commonEndLength (a b : List α) : Nat := commonLength a.reverse b.reverse

theorem commonLength.go_eq (n : Nat) (a b : List α) : go n a b = n + commonLength a b := by
  induction a generalizing n b with
  | nil => simp [go, commonLength]
  | cons x a ih =>
    cases b with
    | nil => simp [go, commonLength]
    | cons y b =>
      by_cases h : x = y
      · simp only [go, commonLength, h, if_true]
        rw [ih, ih (n := 0 + 1)]
        omega
      · simp [go, commonLength, h]

@[simp] theorem commonLength_nil_left (b : List α) : commonLength [] b = 0 := rfl

@[simp] theorem commonLength_nil_right (a : List α) : commonLength a [] = 0 := by
  cases a <;> rfl

theorem commonLength_cons (x y : α) (a b : List α) :
    commonLength (x :: a) (y :: b) = if x = y then commonLength a b + 1 else 0 := by
  by_cases h : x = y
  · simp only [commonLength, commonLength.go, h, if_true]
    rw [commonLength.go_eq]
    simp [commonLength, Nat.add_comm]
  · simp [commonLength, commonLength.go, h]

/-- The common beginning stands in both sequences. -/
theorem take_commonLength (a b : List α) : a.take (commonLength a b) = b.take (commonLength a b) := by
  induction a generalizing b with
  | nil => simp
  | cons x a ih =>
    cases b with
    | nil => simp
    | cons y b =>
      by_cases h : x = y
      · subst h; simp [commonLength_cons, ih]
      · simp [commonLength_cons, h]

end DocSplice.Diff
