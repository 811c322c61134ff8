import DocSplice.Diff.Frontier

/-!
# Edit scripts

The script of two sequences keeps their common beginning and end. What is left between them is deleted or
inserted if the other side is empty, and is else divided at the point where the two searches meet.
-/
namespace DocSplice.Diff

variable {α : Type} [DecidableEq α]

/-- The steps from `old` to `new`, which stand at the places `i` and `j`. The first argument bounds how
often a stretch is divided. -/
def scriptFrom : Nat → (i j : Nat) → (old new : List α) → List Step
  | depth, i, j, old, new =>
    let p := commonLength old new
    let old := old.drop p
    let new := new.drop p
    let s := commonEndLength old new
    let old := old.take (old.length - s)
    let new := new.take (new.length - s)
    let i' := i + p
    let j' := j + p
    let middle :=
      if old = [] then Step.run .insert i' j' new.length
      else if new = [] then Step.run .delete i' j' old.length
      else match depth with
        | 0 => Step.run .delete i' j' old.length ++ Step.run .insert i' j' new.length
        | depth + 1 =>
          match meeting? old new with
          | none => Step.run .delete i' j' old.length ++ Step.run .insert i' j' new.length
          | some (x, y) =>
            scriptFrom depth i' j' (old.take x) (new.take y)
              ++ scriptFrom depth (i' + x) (j' + y) (old.drop x) (new.drop y)
    Step.run .keep i j p ++ middle ++ Step.run .keep (i' + old.length) (j' + new.length) s

/-- The steps from the old sequence to the new one. -/
def script (old new : List α) : List Step := scriptFrom (old.length + new.length) 0 0 old new

end DocSplice.Diff
