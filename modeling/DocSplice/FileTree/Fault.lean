import DocSplice.FileTree.Refusal

/-!
# Faults of file access

Why a file call can fail: the system refuses it, the path holds a NUL, or the content is no text.
-/
namespace DocSplice

/-- Why a file call failed. -/
inductive Fault where
  | refused (r : Refusal)
  | nulInPath
  | notText
deriving DecidableEq, Repr

namespace Fault

/-- What a message says about the fault. -/
def message : Fault → Text
  | refused r => r.description ++ " (os error ".toList ++ Text.ofNat r.number ++ ")".toList
  | nulInPath => "file name contained an unexpected NUL byte".toList
  | notText => "stream did not contain valid UTF-8".toList

end Fault
end DocSplice
