import DocSplice.Diff.Step

/-!
# Compaction of a script

A change can slide over equal elements: an inserted stretch may move up past a kept one whose end equals
its own end, and down past one whose beginning equals its own beginning. Each deletion, then each
insertion, is moved up as far as it goes and then down again. On the way it changes places with changes
of the other kind, merges with those of its own, and kept stretches that run empty are dropped.
-/
namespace DocSplice.Diff

variable {α : Type} [DecidableEq α]

/-- A script seen from one of its steps; the steps before it stand nearest first. -/
structure Focus where
  before : List Step
  this : Step
  after : List Step
deriving Repr

/-- The steps with `s` in front, unless it is empty. -/
def consNonempty (s : Step) (rest : List Step) : List Step := if s.len = 0 then rest else s :: rest

/-- The number of elements and of steps, which bounds how often a step can move. -/
def weight (steps : List Step) : Nat := steps.foldr (fun s n => s.len + 1 + n) 0

namespace Focus

/-- Moves the step up as far as it goes. -/
def up (old new : List α) : Nat → Focus → Focus
  | 0, f => f
  | fuel + 1, f =>
    match f.before with
    | [] => f
    | prev :: before =>
      if prev.kind = .keep then
        let n := commonEndLength (stretch old prev.oldAt prev.len) (stretch new f.this.newAt f.this.newLen)
        if 0 < n then
          let after := match f.after with
            | next :: rest =>
              if next.kind = .keep then (next.back n).grow n :: rest
              else ⟨.keep, prev.oldAt + prev.len - n, f.this.newAt + f.this.newLen - n, n⟩ :: f.after
            | [] => [⟨.keep, prev.oldAt + prev.len - n, f.this.newAt + f.this.newLen - n, n⟩]
          up old new fuel ⟨consNonempty (prev.shrink n) before, f.this.back n, after⟩
        else if prev.len = 0 then up old new fuel { f with before := before }
        else f
      else if prev.kind = f.this.kind then
        up old new fuel { f with before := before, this := prev.grow f.this.len }
      else up old new fuel { f with before := before, after := prev :: f.after }

/-- Moves the step down as far as it goes. -/
def down (old new : List α) : Nat → Focus → Focus
  | 0, f => f
  | fuel + 1, f =>
    match f.after with
    | [] => f
    | next :: after =>
      if next.kind = .keep then
        let n := commonLength (stretch old next.oldAt next.len) (stretch new f.this.newAt f.this.newLen)
        if 0 < n then
          let before := match f.before with
            | prev :: rest =>
              if prev.kind = .keep then prev.grow n :: rest
              else ⟨.keep, next.oldAt, f.this.newAt, n⟩ :: f.before
            | [] => [⟨.keep, next.oldAt, f.this.newAt, n⟩]
          down old new fuel ⟨before, f.this.forth n, consNonempty ((next.forth n).shrink n) after⟩
        else if next.len = 0 then down old new fuel { f with after := after }
        else f
      else if next.kind = f.this.kind then
        down old new fuel { f with after := after, this := f.this.grow next.len }
      else down old new fuel { f with before := next :: f.before, after := after }

end Focus

/-- Moves every step of one kind up and then down, from the first to the last. The steps already passed
stand in `before`, the nearest first. -/
def compactKind (old new : List α) (kind : Kind) : Nat → (before after : List Step) → List Step
  | 0, before, after => before.reverse ++ after
  | _ + 1, before, [] => before.reverse
  | fuel + 1, before, this :: after =>
    if this.kind = kind then
      let f := Focus.up old new (weight before) ⟨before, this, after⟩
      let f := Focus.down old new (weight f.after) f
      compactKind old new kind fuel (f.this :: f.before) f.after
    else compactKind old new kind fuel (this :: before) after

/-- The compacted script of two sequences. -/
def compact (old new : List α) (steps : List Step) : List Step :=
  let moved := compactKind old new .delete (2 * (weight steps + 1).pow 2) [] steps
  compactKind old new .insert (2 * (weight moved + 1).pow 2) [] moved

end DocSplice.Diff
