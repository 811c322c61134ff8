import DocSplice.Diff.Compaction
import DocSplice.Diff.Hunk
import DocSplice.Diff.Script
import DocSplice.Text.Line

/-!
# Unified diffs

The difference of two documents, line by line, in the unified format: two lines that name the files, then
the hunks, each under a header with its place and size on both sides. A line is marked as kept, removed or
added; a line without terminator is followed by a hint.
-/
namespace DocSplice.Diff

/-- How a line of a hunk is marked. -/
inductive Mark where
  | kept
  | removed
  | added
deriving DecidableEq, Repr

/-- The character in front of a line. -/
def Mark.sign : Mark → Char
  | kept => ' '
  | removed => '-'
  | added => '+'

/-- A line of a hunk. -/
structure HunkLine where
  mark : Mark
  text : Text
deriving DecidableEq, Repr

/-- The line as it is written. -/
def HunkLine.render (l : HunkLine) : Text :=
  l.mark.sign :: l.text
    ++ if Text.isTerminated l.text then [] else "\n\\ No newline at end of file\n".toList

/-- The lines that a stretch shows. -/
def Stretch.body (old new : List Text) : Stretch → List HunkLine
  | keep i _ n => (stretch old i n).map (⟨.kept, ·⟩)
  | change i n j m => (stretch old i n).map (⟨.removed, ·⟩) ++ (stretch new j m).map (⟨.added, ·⟩)

namespace Hunk

/-- The lines that a hunk shows. -/
def body (old new : List Text) (h : Hunk) : List HunkLine := h.flatMap (Stretch.body old new)

/-- A place and size in a header: the size is left out if it is one, and an empty side stands behind the
line before it. -/
def renderRange (start stop : Nat) : Text :=
  let len := stop - start
  if len = 1 then Text.ofNat (start + 1)
  else if len = 0 then Text.ofNat start ++ ",0".toList
  else Text.ofNat (start + 1) ++ ',' :: Text.ofNat len

/-- The header of a hunk, from the places of its first and last stretch. -/
def header (h : Hunk) : Text :=
  match h.head?, h.getLast? with
  | some first, some last =>
    "@@ -".toList ++ renderRange first.oldStart last.oldEnd ++ " +".toList
      ++ renderRange first.newStart last.newEnd ++ " @@\n".toList
  | _, _ => []

/-- The hunk as it is written. -/
def render (old new : List Text) (h : Hunk) : Text :=
  match h.body old new with
  | [] => []
  | lines => h.header ++ lines.flatMap HunkLine.render

end Hunk

/-- The hunks of two line lists. -/
def hunks (old new : List Text) : List Hunk :=
  Hunk.ofStretches (Stretch.ofSteps (compact old new (script old new)))

/-- The two lines that name the files. -/
def fileHeader (path : Text) : Text :=
  "--- a/".toList ++ path ++ "\n+++ b/".toList ++ path ++ ['\n']

/-- The difference of two versions of the document at a path; none if they are equal. -/
def unified (old new path : Text) : Text :=
  if old = new then []
  else
    let oldLines := old.terminatedLines
    let newLines := new.terminatedLines
    match hunks oldLines newLines with
    | [] => []
    | found => fileHeader path ++ found.flatMap (Hunk.render oldLines newLines)

end DocSplice.Diff
