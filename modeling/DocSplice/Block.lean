import DocSplice.Text.Blank
import DocSplice.Text.Line

/-!
# The examples block

The examples are shown as one block: every line without its blank end, behind an indent of four, with a
line feed before the first line and after the last. Examples without lines make a block of one empty
line.
-/
namespace DocSplice.Block

/-- What stands before every line of the block. -/
def indent : Text := [' ', ' ', ' ', ' ']

/-- The lines of the examples as the block shows them, indent apart. -/
def shownLines (examples : Text) : List Text := examples.lines.map Text.trimEnd

/-- The block that shows the examples. -/
def render (examples : Text) : Text :=
  let gap := '\n' :: indent
  gap ++ gap.intercalate (shownLines examples) ++ ['\n']

end DocSplice.Block
