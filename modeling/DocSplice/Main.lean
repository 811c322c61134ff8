import DocSplice.CommandLine.Session

/-!
# The program

Performs a run on the real file system. Calls go to the system one by one, their failures become faults,
and everything else is decided by the library. The system is asked neither for the mode of a file nor to
store a file at once, since there is no way to ask.
-/
namespace DocSplice.Program

/-- A file that is open for writing. -/
structure OpenFile where
  path : String
  handle : IO.FS.Handle

/-- A path as the system takes it. -/
def systemPath (path : NativePath) : String := String.ofList path.shown

/-- The number that the system gave for an error. -/
def errorNumber : IO.Error → Nat
  | .alreadyExists _ n _ | .otherError n _ | .resourceBusy n _ | .resourceVanished n _
  | .unsupportedOperation n _ | .hardwareFault n _ | .unsatisfiedConstraints n _
  | .illegalOperation n _ | .protocolError n _ | .timeExpired n _ | .interrupted _ n _
  | .noFileOrDirectory _ n _ | .invalidArgument _ n _ | .permissionDenied _ n _
  | .resourceExhausted _ n _ | .inappropriateType _ n _ | .noSuchThing _ n _ => n.toNat
  | .unexpectedEof | .userError _ => 0

/-- The fault that an error stands for. Some calls give the number with its sign turned. -/
def faultOf (e : IO.Error) : Fault :=
  let given := errorNumber e
  let n := if given < Nat.pow 2 31 then given else Nat.pow 2 32 - given
  .refused (.ofNumber n)

/-- Makes a call on a path and turns an error into a fault. -/
def attempt {α : Type} (path : NativePath) (act : String → IO α) : IO (Except Fault α) := do
  if path.contains 0 then return .error .nulInPath
  try return .ok (← act (systemPath path))
  catch e => return .error (faultOf e)

/-- Makes a call on an open file and turns an error into a fault. -/
def attemptOpen {α : Type} (act : IO α) : IO (Except Fault α) := do
  try return .ok (← act)
  catch e => return .error (faultOf e)

/-- The octets as an array. -/
def pack (content : Octets) : ByteArray := ⟨content.toArray⟩

/-- Makes one call. -/
def perform (report : Event → IO Unit) : (c : Call OpenFile) → IO c.Answer
  | .read path => attempt path fun p => return (← IO.FS.readBinFile p).toList
  | .realPath path => attempt path fun p => return Utf8.encode (← IO.FS.realPath p).toString.toList
  | .probe path => attempt path fun p => do let _ ← IO.FS.Handle.mk p .readWrite
  | .create path => attempt path fun p => return ⟨p, ← IO.FS.Handle.mk p .write⟩
  | .lock file => attemptOpen file.handle.lock
  | .modeOf _ => return .error (.refused .notPermitted)
  | .setMode file mode =>
    let rights (n : Nat) : IO.AccessRight := ⟨n / 4 % 2 = 1, n / 2 % 2 = 1, n % 2 = 1⟩
    attemptOpen (IO.setAccessRights file.path ⟨rights (mode / 64), rights (mode / 8), rights mode⟩)
  | .write file content => attemptOpen (file.handle.write (pack content))
  | .sync file => attemptOpen file.handle.flush
  | .unlock file => attemptOpen file.handle.unlock
  | .rename source target => attempt source fun p => IO.FS.rename p (systemPath target)
  | .unlink path => attempt path fun p => IO.FS.removeFile p
  | .note event => report event

/-- Performs an action call by call. -/
def performAll {α : Type} (report : Event → IO Unit) : Action OpenFile α → IO α
  | .done a => return a
  | .call c next => do
    let answer ← perform report c
    performAll report (next answer)

/-- The number of this process. -/
def processNumber : IO Nat := do
  try
    let status ← IO.FS.readFile "/proc/self/stat"
    return ((String.ofList (status.toList.takeWhile Char.isDigit)).toNat?).getD 0
  catch _ => IO.monoMsNow

/-- Whether this run paints its output. -/
def coloursWanted : IO Bool := do
  let valueOf (name : String) : IO (Option Text) := return (← IO.getEnv name).map String.toList
  let terminal ← (← IO.getStdout).isTty
  return CommandLine.coloursWanted (← valueOf "CLICOLOR_FORCE") (← valueOf "NO_COLOR")
    (← valueOf "CLICOLOR") terminal

/-- Prints what a run printed and gives its exit code. -/
def finish (o : CommandLine.Output) : IO UInt32 := do
  IO.print (String.ofList o.stdout)
  IO.eprint (String.ofList o.stderr)
  return .ofNat o.exit

end DocSplice.Program

open DocSplice in
/-- Reads the arguments and does what they ask for. -/
def main (args : List String) : IO UInt32 := do
  let colour ← Program.coloursWanted
  match CommandLine.Arguments.parse (args.map String.toList) with
  | .error h => Program.finish (h.output colour)
  | .ok a =>
    let report (e : Event) : IO Unit := do
      if a.verbose then IO.eprint (String.ofList (CommandLine.logLine colour e))
    let outcome ← Program.performAll report (CommandLine.perform (← Program.processNumber) colour a)
    Program.finish (outcome.output colour)
