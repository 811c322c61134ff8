import DocSplice.FileTree.Basic
import DocSplice.FileTree.Fault

/-!
# Resolving paths

A path is walked step by step from a directory. Links on the way are followed, and the last step is too
unless the caller asks for the link itself. A rule says which steps are refused. A walk ends at an entry,
or at a vacant place in a directory that exists.
-/
namespace DocSplice

/-- Where a walk ends. -/
inductive Destination where
  | found (place : Place) (entry : Entry)
  | vacant (place : Place)
deriving DecidableEq, Repr

namespace FileTree

/-- The greatest length of a name, in octets. -/
def nameLimit : Nat := 255

/-- The length that a path may not reach, in octets. -/
def pathLimit : Nat := 4096

/-- The number of links that one walk may follow. -/
def linkLimit : Nat := 40

/-- The steps that a link stands for. -/
def linkSteps (target : NativePath) : List NativePath.Step :=
  target.steps ++ if target.endsInSlash then [.here] else []

/-- The path from the root to a place. -/
def pathTo (place : Place) : NativePath :=
  if place = [] then [NativePath.slash] else place.flatMap fun n => NativePath.slash :: n

/-- Which steps from which directories are refused. -/
abbrev StepRule := Place → NativePath.Step → Option Refusal

/-- The rule for a path that is walked as a whole: each step needs the right to search the directory it
starts from, and a name has its limit. -/
def wholeRule (t : FileTree) : StepRule := fun dir step =>
  if t.denies dir .search then some .accessDenied
  else match step with
    | .name n => if nameLimit < n.length then some .nameTooLong else none
    | _ => none

/-- The rule for a path whose names are asked for one by one, each by its path from the root: that path
has its limit too, and a step without a name asks for nothing. -/
def singleRule (t : FileTree) : StepRule := fun dir step =>
  match step with
  | .name n => if pathLimit ≤ (pathTo (dir ++ [n])).length then some .nameTooLong else t.wholeRule dir step
  | _ => none

/-- Walks until the first link that is to be followed, and goes on there as `onLink` says. -/
def walkTo (t : FileTree) (rule : StepRule) (follow : Bool)
    (onLink : Place → List NativePath.Step → Except Refusal Destination) :
    Place → List NativePath.Step → Except Refusal Destination
  | dir, [] =>
    match t.lookup dir with
    | some e => .ok (.found dir e)
    | none => .error .notFound
  | dir, step :: rest =>
    match rule dir step, step with
    | some r, _ => .error r
    | none, .here => walkTo t rule follow onLink dir rest
    | none, .parent => walkTo t rule follow onLink dir.dropLast rest
    | none, .name n =>
      let place := dir ++ [n]
      match t.lookup place with
      | none => if rest = [] then .ok (.vacant place) else .error .notFound
      | some (.directory _) => walkTo t rule follow onLink place rest
      | some (.file mode content) =>
        if rest = [] then .ok (.found place (.file mode content)) else .error .notDirectory
      | some (.link target) =>
        if rest = [] ∧ follow = false then .ok (.found place (.link target))
        else onLink (if target.isAbsolute then [] else dir) (linkSteps target ++ rest)

/-- Walks and follows at most the given number of links. -/
def walk (t : FileTree) (rule : StepRule) (follow : Bool) :
    Nat → Place → List NativePath.Step → Except Refusal Destination
  | 0 => walkTo t rule follow fun _ _ => .error .tooManyLinks
  | links + 1 => walkTo t rule follow (walk t rule follow links)

/-- Walks a path from the working directory. A slash at the end asks for a directory, so that anything
else there is refused. -/
def resolveBy (t : FileTree) (rule : StepRule) (cwd : Place) (follow : Bool) (path : NativePath) :
    Except Refusal Destination :=
  if path = [] then .error .notFound
  else
    match t.walk rule follow linkLimit (if path.isAbsolute then [] else cwd) path.steps with
    | .error r => .error r
    | .ok (.vacant place) => .ok (.vacant place)
    | .ok (.found place (.directory mode)) => .ok (.found place (.directory mode))
    | .ok (.found place entry) =>
      if path.endsInSlash then .error .notDirectory else .ok (.found place entry)

/-- Walks a path as a whole from the working directory. -/
def resolve (t : FileTree) (cwd : Place) (follow : Bool) (path : NativePath) :
    Except Refusal Destination := t.resolveBy t.wholeRule cwd follow path

end FileTree
end DocSplice
