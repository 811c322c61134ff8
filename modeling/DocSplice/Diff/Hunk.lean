import DocSplice.Diff.Step

/-!
# Hunks

The steps of a script are joined into stretches that are kept or changed. Changes that stand close
together make one hunk, with up to three kept elements before and after it.
-/
namespace DocSplice.Diff

/-- A stretch of a comparison: kept on both sides, or old elements that give way to new ones. -/
inductive Stretch where
  | keep (oldAt newAt len : Nat)
  | change (oldAt oldLen newAt newLen : Nat)
deriving DecidableEq, Repr

namespace Stretch

/-- Where the stretch begins in the old sequence. -/
def oldStart : Stretch → Nat
  | keep i _ _ => i
  | change i _ _ _ => i

/-- Where the stretch begins in the new sequence. -/
def newStart : Stretch → Nat
  | keep _ j _ => j
  | change _ _ j _ => j

/-- Where the stretch ends in the old sequence. -/
def oldEnd : Stretch → Nat
  | keep i _ n => i + n
  | change i n _ _ => i + n

/-- Where the stretch ends in the new sequence. -/
def newEnd : Stretch → Nat
  | keep _ j n => j + n
  | change _ _ j m => j + m

/-- Joins a run of steps that are all kept or all changes. A change stands where its first deletion was
found in the old sequence and where its first insertion was found in the new one; a change of one kind
only stands where its first step was found. -/
def ofRun (first : Step) (run : List Step) : Stretch :=
  if first.kind = .keep then keep first.oldAt first.newAt (Step.total run)
  else
    let deleted := run.filter (·.kind = .delete)
    let inserted := run.filter (·.kind = .insert)
    change (deleted.headD first).oldAt (Step.total deleted)
      (inserted.headD first).newAt (Step.total inserted)

/-- Joins the steps of a script into stretches. -/
def ofSteps (steps : List Step) : List Stretch :=
  (steps.splitBy fun a b => (a.kind == .keep) == (b.kind == .keep)).filterMap fun run =>
    run.head?.map fun first => ofRun first run

end Stretch

/-- A hunk lists its stretches. -/
abbrev Hunk := List Stretch

namespace Hunk

/-- The number of kept elements that a hunk shows on either side of a change. -/
def radius : Nat := 3

/-- Shortens a kept stretch at the beginning to its last elements. -/
def trimStart : List Stretch → List Stretch
  | .keep i j n :: rest => .keep (i + (n - radius)) (j + (n - radius)) (min n radius) :: rest
  | l => l

/-- Shortens a kept stretch at the end to its first elements. -/
def trimEnd (l : List Stretch) : List Stretch :=
  match l.reverse with
  | .keep i j n :: rest => (.keep i j (min n radius) :: rest).reverse
  | _ => l

/-- Cuts the stretches inside each kept one that is longer than two hunks show of it. The last hunk is
left out if it holds no change. -/
def cut (stretches : List Stretch) : List Hunk := go [] [] stretches
where
  go (done : List Hunk) (pending : List Stretch) : List Stretch → List Hunk
    | [] =>
      match pending with
      | [] | [.keep ..] => done.reverse
      | _ => (pending.reverse :: done).reverse
    | .keep i j n :: rest =>
      if radius * 2 < n then
        let skipped := n - radius
        go ((.keep i j radius :: pending).reverse :: done) [.keep (i + skipped) (j + skipped) radius] rest
      else go done (.keep i j n :: pending) rest
    | s :: rest => go done (s :: pending) rest

/-- The hunks of a comparison. -/
def ofStretches (stretches : List Stretch) : List Hunk := cut (trimEnd (trimStart stretches))

end Hunk
end DocSplice.Diff
