import DocSplice.Path.Portable
import DocSplice.Splice

/-!
# Events

What an update reports about its own progress. An event has a level, the part of the program it belongs
to, a message, and fields with a name and a value.
-/
namespace DocSplice

/-- How much an event matters. -/
inductive Level where
  | debug
  | info
  | warn
deriving DecidableEq, Repr

/-- A step of an update that is worth reporting. -/
inductive Event where
  | verbose
  | configured (readme examples : PortablePath) (policy : Policy)
  | textRead (path : PortablePath) (octets : Nat)
  | textWritten (path : PortablePath) (octets : Nat)
  | markersMissing (policy : Policy)
  | spliced (policy : Policy) (region : Span) (blockLength : Nat)
  | leftUnchanged (readme : PortablePath) (policy : Policy)
  | updated (readme : PortablePath) (changed : Bool)
deriving DecidableEq, Repr

/-- The name of the level, five characters wide. -/
def Level.label : Level → Text
  | debug => "DEBUG".toList
  | info => " INFO".toList
  | warn => " WARN".toList

namespace Event

/-- How much the event matters. -/
def level : Event → Level
  | leftUnchanged .. => .warn
  | updated .. => .info
  | _ => .debug

/-- The part of the program that the event belongs to. -/
def source : Event → Text
  | verbose | configured .. => "update_readme".toList
  | textRead .. | textWritten .. => "readme_fs::io".toList
  | markersMissing .. | spliced .. => "readme_blocks::splice".toList
  | leftUnchanged .. | updated .. => "readme_core::updater".toList

/-- What happened. -/
def message : Event → Text
  | verbose => "Verbose mode enabled".toList
  | configured .. => "resolved configuration".toList
  | textRead .. => "read text file".toList
  | textWritten .. => "wrote text file".toList
  | markersMissing .. => "examples markers not found".toList
  | spliced .. => "spliced examples block".toList
  | leftUnchanged .. => "examples markers not found, README left unchanged".toList
  | updated .. => "README updated".toList

/-- The named values of the event. -/
def fields : Event → List (Text × Text)
  | verbose => []
  | configured readme examples policy =>
    [("readme".toList, readme.text), ("examples".toList, examples.text), ("policy".toList, policy.name)]
  | textRead path octets | textWritten path octets =>
    [("path".toList, path.text), ("bytes".toList, Text.ofNat octets)]
  | markersMissing policy => [("policy".toList, policy.name)]
  | spliced policy region blockLength =>
    [("policy".toList, policy.name), ("region_start".toList, Text.ofNat region.start),
     ("region_end".toList, Text.ofNat region.stop), ("block_len".toList, Text.ofNat blockLength)]
  | leftUnchanged readme policy => [("readme".toList, readme.text), ("policy".toList, policy.name)]
  | updated readme changed => [("readme".toList, readme.text), ("changed".toList, Text.ofBool changed)]

/-- What a splice reports. -/
def ofSplice (policy : Policy) (block : Text) (s : Splice) : Event :=
  match s.region with
  | none => markersMissing policy
  | some region => spliced policy region block.utf8Length

end Event
end DocSplice
