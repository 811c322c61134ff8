import DocSplice.CommandLine.Arguments
import DocSplice.CommandLine.Style
import DocSplice.Diff.Unified
import DocSplice.Update.Run

/-!
# Commands

The three things that a run can do with a plan: write the document, show the difference, or check that
there is none. A check is refused for a policy that is not stable, before anything is read.
-/
namespace DocSplice.CommandLine

/-- Why a command failed. -/
inductive CommandError where
  | update (e : UpdateError)
  | stale (path : NativePath)
  | markersMissing (path : NativePath)
  | checkUnsupported (policy : Policy)
  | user (message : Text)
deriving DecidableEq, Repr

/-- What a message says about the error. -/
def CommandError.message : CommandError → Text
  | update e => e.message
  | stale path => path.shown ++ " is out of date; run update-readme to regenerate it".toList
  | markersMissing path => "no examples markers found in ".toList ++ path.shown
  | checkUnsupported policy =>
    "--check is not supported with the ".toList ++ policy.name
      ++ " policy, which changes the README each run".toList
  | user message => message

/-- What a command printed, and the error it ended with. -/
structure Outcome where
  printed : Text
  error : Option CommandError
deriving DecidableEq, Repr

namespace Outcome

/-- The command printed the text and succeeded. -/
def success (printed : Text) : Outcome := ⟨printed, none⟩

/-- The command printed nothing and failed. -/
def failure (e : CommandError) : Outcome := ⟨[], some e⟩

end Outcome

/-- A report as a command prints it. -/
def jsonOutput (r : Report) : Text := r.toJson ++ ['\n']

/-- What an update prints. -/
def updateOutput (colour : Bool) (r : Report) : Text :=
  let readme := Style.cyan.paint colour r.readme.text
  if !r.matched then
    Style.boldYellow.paint colour "WARN".toList ++ " No examples markers found in ".toList ++ readme
      ++ "; file left unchanged.\n".toList
  else if r.changed then
    Style.boldGreen.paint colour "OK".toList ++ " Updated ".toList ++ readme ++ " with ".toList
      ++ Text.ofNat r.exampleLines ++ " example line(s) from ".toList
      ++ Style.cyan.paint colour r.examples.text ++ ".\n".toList
  else
    Style.boldGreen.paint colour "OK".toList ++ ' ' :: readme ++ " is already up to date.\n".toList

/-- A line of a difference in the style that its beginning calls for. -/
def paintDiffLine (colour : Bool) (line : Text) : Text :=
  if line.startsWith "+++".toList || line.startsWith "---".toList then Style.bold.paint colour line
  else if line.startsWith "+".toList then Style.green.paint colour line
  else if line.startsWith "-".toList then Style.red.paint colour line
  else if line.startsWith "@@".toList then Style.cyan.paint colour line
  else line

/-- What a trial run prints: the difference line by line, if there is one. -/
def dryRunOutput (colour : Bool) (plan : Plan) (r : Report) : Text :=
  if plan.isStale then
    (Diff.unified plan.document plan.updated r.readme.text).lines.flatMap
      fun line => paintDiffLine colour line ++ ['\n']
  else
    Style.boldGreen.paint colour "OK".toList ++ " No changes needed for ".toList
      ++ Style.cyan.paint colour r.readme.text ++ ".\n".toList

/-- How a check ends, given the report. -/
def checkOutcome (colour json : Bool) (r : Report) : Outcome :=
  let printed :=
    if json then jsonOutput r
    else if r.matched && !r.changed then
      Style.boldGreen.paint colour "OK".toList ++ ' ' :: Style.cyan.paint colour r.readme.text
        ++ " is up to date.\n".toList
    else []
  if !r.matched then ⟨printed, some (.markersMissing r.readme.native)⟩
  else if r.changed then ⟨printed, some (.stale r.readme.native)⟩
  else .success printed

variable {H : Type}

/-- Updates the document. -/
def runUpdate (pid : Nat) (colour json : Bool) (c : Config) : Action H Outcome := do
  match ← Update.run pid c with
  | .error e => pure (.failure (.update e))
  | .ok r => pure (.success (if json then jsonOutput r else updateOutput colour r))

/-- Shows what an update would change. -/
def runDryRun (colour json : Bool) (c : Config) : Action H Outcome := do
  match ← Update.preview c with
  | .error e => pure (.failure (.update e))
  | .ok (plan, r) => pure (.success (if json then jsonOutput r else dryRunOutput colour plan r))

/-- Checks that an update would change nothing. -/
def runCheck (colour json : Bool) (c : Config) : Action H Outcome := do
  if c.policy.isStable then
    match ← Update.preview c with
    | .error e => pure (.failure (.update e))
    | .ok (_, r) => pure (checkOutcome colour json r)
  else pure (.failure (.checkUnsupported c.policy))

/-- Does what the arguments ask for. -/
def runCommand (pid : Nat) (colour : Bool) (a : Arguments) : Action H Outcome :=
  if a.check then runCheck colour a.json a.config
  else if a.dryRun then runDryRun colour a.json a.config
  else runUpdate pid colour a.json a.config

end DocSplice.CommandLine
