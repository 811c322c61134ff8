import DocSplice.CommandLine.Command
import DocSplice.CommandLine.Log

/-!
# A run of the program

From the arguments to what the program prints and the exit code. The exit code is 0 after success and
after help, 1 after an error, and 2 if the arguments are wrong. The events of a run are logged if the
arguments ask for it.
-/
namespace DocSplice.CommandLine

/-- The name of the program and its version. -/
def versionText : Text := "update-readme 0.1.0\n".toList

/-- The help on the arguments. -/
def helpText : Text :=
  ("Regenerate the examples section of a README from an examples file\n\n"
    ++ "Usage: update-readme [OPTIONS]\n\n"
    ++ "Options:\n"
    ++ "      --readme <PATH>    README to update [default: README.md]\n"
    ++ "      --examples <PATH>  File whose lines are spliced into the README [default: examples.txt]\n"
    ++ "      --policy <POLICY>  How the examples region is found and written back\n"
    ++ "                         [default: lookaround-replace]\n"
    ++ "                         [possible values: capture-and-reinsert, lookaround-replace]\n"
    ++ "      --dry-run          Print the pending change as a unified diff without writing\n"
    ++ "      --check            Exit with an error if the README is out of date, without writing\n"
    ++ "      --json             Print the update report as JSON\n"
    ++ "  -v, --verbose          Enable verbose output\n"
    ++ "  -h, --help             Print help\n"
    ++ "  -V, --version          Print version\n").toList

/-- What a message says about wrong arguments. -/
def UsageError.message : UsageError → Text
  | unknownArgument => "unexpected argument".toList
  | invalidValue => "invalid or missing value for an option".toList
  | conflict => "an option cannot be used twice, nor --dry-run with --check".toList
  | unexpectedValue => "unexpected value for an option".toList

/-- What a run prints and how it ends. -/
structure Output where
  stdout : Text
  stderr : Text
  exit : Nat
deriving DecidableEq, Repr

/-- The message about an error. -/
def errorLine (colour : Bool) (message : Text) : Text :=
  Style.boldRed.paint colour "error".toList ++ ": ".toList ++ message ++ ['\n']

/-- How a run ends that does nothing. -/
def Halt.output (colour : Bool) : Halt → Output
  | help => ⟨helpText, [], 0⟩
  | version => ⟨versionText, [], 0⟩
  | usage e => ⟨[], errorLine colour e.message, 2⟩

/-- How a run ends that did what the arguments ask for. -/
def Outcome.output (colour : Bool) (o : Outcome) : Output :=
  match o.error with
  | none => ⟨o.printed, [], 0⟩
  | some e => ⟨o.printed, errorLine colour e.message, 1⟩

variable {H : Type}

/-- Does what the arguments ask for, and reports first what that is. -/
def perform (pid : Nat) (colour : Bool) (a : Arguments) : Action H Outcome := do
  if a.verbose then Action.note .verbose else pure ()
  Action.note (.configured a.config.readme a.config.examples a.config.policy)
  runCommand pid colour a

/-- A process: its number and its working directory. -/
structure Process where
  pid : Nat
  cwd : Place
deriving Repr

/-- A run of the program on a tree, with the tree after it. -/
def runOn (p : Process) (colour : Bool) (args : List Text) (t : FileTree) : Output × FileTree :=
  match Arguments.parse args with
  | .error h => (h.output colour, t)
  | .ok a =>
    let act := perform p.pid colour a
    let r := act.run p.cwd t
    let log := if a.verbose then (act.events p.cwd t).flatMap (logLine colour) else []
    let o := r.1.output colour
    ({ o with stderr := log ++ o.stderr }, r.2)

end DocSplice.CommandLine
