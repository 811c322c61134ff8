import DocSplice.Storage.Document
import DocSplice.Update.Report

/-!
# Running an update

An update reads the document and the examples, in this order, and computes a plan. Applying the plan is
the only step that writes. A document without markers is written back as it was.
-/
namespace DocSplice.Update

variable {H : Type}

/-- Reads one of the two documents. -/
def readInput (role : Role) (path : PortablePath) : Action H (Except UpdateError Text) :=
  (·.mapError (UpdateError.ofRead role path)) <$> Storage.readText path

/-- Reads both documents and computes the update. -/
def plan (c : Config) : Action H (Except UpdateError Plan) := do
  match ← readInput .readme c.readme with
  | .error e => pure (.error e)
  | .ok document =>
    match ← readInput .examples c.examples with
    | .error e => pure (.error e)
    | .ok examples =>
      let plan := Plan.make c.policy document examples
      Action.note (.ofSplice c.policy plan.block plan.splice)
      pure (.ok plan)

/-- Writes the updated document. -/
def apply (pid : Nat) (c : Config) (plan : Plan) : Action H (Except UpdateError Unit) :=
  (·.mapError UpdateError.storage) <$> Storage.writeText pid c.readme plan.updated

/-- Computes the update without writing. -/
def preview (c : Config) : Action H (Except UpdateError (Plan × Report)) :=
  (·.map fun p => (p, Report.ofPlan c p false)) <$> plan c

/-- Warns that a document has no markers. -/
def warnUnlessMatched (c : Config) (plan : Plan) : Action H Unit :=
  if plan.matched then pure () else Action.note (.leftUnchanged c.readme c.policy)

/-- Computes the update and writes the document. -/
def run (pid : Nat) (c : Config) : Action H (Except UpdateError Report) := do
  match ← plan c with
  | .error e => pure (.error e)
  | .ok p =>
    warnUnlessMatched c p
    match ← apply pid c p with
    | .error e => pure (.error e)
    | .ok () =>
      Action.note (.updated c.readme p.isStale)
      pure (.ok (Report.ofPlan c p true))

end DocSplice.Update
