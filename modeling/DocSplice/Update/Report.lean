import DocSplice.Plan
import DocSplice.Storage.Error
import DocSplice.Text.Quoted
import DocSplice.Update.Config

/-!
# Reports and errors of an update

A report sums up one update. Its JSON form has one field a line, behind two blanks.
-/
namespace DocSplice

/-- The summary of one update. -/
structure Report where
  readme : PortablePath
  examples : PortablePath
  policy : Policy
  exampleLines : Nat
  matched : Bool
  changed : Bool
  written : Bool
deriving DecidableEq, Repr

namespace Report

/-- The report on a plan. -/
def ofPlan (c : Config) (plan : Plan) (written : Bool) : Report :=
  { readme := c.readme
    examples := c.examples
    policy := c.policy
    exampleLines := plan.exampleLines
    matched := plan.matched
    changed := plan.isStale
    written := written }

/-- The fields of the JSON form, with their values as JSON. -/
def jsonFields (r : Report) : List (Text × Text) :=
  [("readme".toList, r.readme.text.quoteJson),
   ("examples".toList, r.examples.text.quoteJson),
   ("policy".toList, r.policy.name.quoteJson),
   ("example_lines".toList, Text.ofNat r.exampleLines),
   ("matched".toList, Text.ofBool r.matched),
   ("changed".toList, Text.ofBool r.changed),
   ("written".toList, Text.ofBool r.written)]

/-- The JSON form of the report. -/
def toJson (r : Report) : Text :=
  let line (f : Text × Text) : Text := "  ".toList ++ f.1.quoteJson ++ ": ".toList ++ f.2
  "\x7b\n".toList ++ ",\n".toList.intercalate (r.jsonFields.map line) ++ "\n\x7d".toList

end Report

/-- The two documents that an update reads. -/
inductive Role where
  | readme
  | examples
deriving DecidableEq, Repr

/-- What a message calls the document. -/
def Role.label : Role → Text
  | readme => "README".toList
  | examples => "examples file".toList

/-- Why an update failed. -/
inductive UpdateError where
  | missing (role : Role) (path : NativePath)
  | storage (e : StorageError)
deriving DecidableEq, Repr

namespace UpdateError

/-- What a message says about the error. -/
def message : UpdateError → Text
  | missing role path => role.label ++ " not found: ".toList ++ path.shown
  | storage e => e.message

/-- The error of reading a document: a file that does not exist is reported by its role. -/
def ofRead (role : Role) (path : PortablePath) (e : StorageError) : UpdateError :=
  if e.isNotFound then missing role path.native else storage e

end UpdateError
end DocSplice
