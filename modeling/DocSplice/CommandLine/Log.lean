import DocSplice.CommandLine.Style
import DocSplice.Event

/-!
# The log

An event is logged on one line: its level, where it belongs, its message, and its fields.
-/
namespace DocSplice.CommandLine

/-- The style of a level. -/
def levelStyle : Level → Style
  | .debug => .blue
  | .info => .green
  | .warn => .yellow

/-- The line of an event in the log. -/
def logLine (colour : Bool) (e : Event) : Text :=
  let field (f : Text × Text) : Text :=
    ' ' :: Style.italic.paint colour f.1 ++ Style.dim.paint colour ['='] ++ f.2
  (levelStyle e.level).paint colour e.level.label ++ ' ' :: Style.dim.paint colour e.source
    ++ Style.dim.paint colour [':'] ++ ' ' :: e.message ++ e.fields.flatMap field ++ ['\n']

end DocSplice.CommandLine
