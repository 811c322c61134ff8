import DocSplice.Path.Portable
import DocSplice.Policy

/-!
# Configuration of an update

Which document is updated, where its examples come from, and how they are put in.
-/
namespace DocSplice

/-- What an update works on. -/
structure Config where
  readme : PortablePath
  examples : PortablePath
  policy : Policy
deriving DecidableEq, Repr

namespace Config

/-- The document that is updated if none is given. -/
def standardReadme : Text := "README.md".toList

/-- Where the examples come from if nothing is given. -/
def standardExamples : Text := "examples.txt".toList

/-- The configuration for two paths, with the standard policy. -/
def make (readme examples : PortablePath) : Config := ⟨readme, examples, Policy.standard⟩

/-- The configuration if nothing is given. -/
def standard : Config := make (.ofText standardReadme) (.ofText standardExamples)

end Config
end DocSplice
