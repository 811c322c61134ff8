import DocSplice.Sections

/-!
# Policies

A policy says how the examples are found in a document and how they are written back. `replacing` puts a
block between the markers and keeps both. `stacking` writes the opening line a second time, so that each
update adds one. A policy is known by its name on the command line and in reports.
-/
namespace DocSplice

/-- How the examples are found and written back. -/
inductive Policy where
  | stacking
  | replacing
deriving DecidableEq, Repr, Inhabited

namespace Policy

/-- All policies, in the order in which messages list them. -/
def all : List Policy := [stacking, replacing]

/-- The policy that holds where none is given. -/
def standard : Policy := replacing

/-- The name of the policy. -/
def name : Policy → Text
  | stacking => "capture-and-reinsert".toList
  | replacing => "lookaround-replace".toList

/-- Whether the policy is meant to find nothing left to do after an update. -/
def isStable : Policy → Bool
  | stacking => false
  | replacing => true

/-- The policy with the given name. -/
def ofName? (n : Text) : Option Policy := all.find? fun p => p.name == n

theorem ofName?_name (p : Policy) : ofName? p.name = some p := by cases p <;> rfl

/-- The message about a name that no policy has. -/
def unknownName (n : Text) : Text :=
  "Unknown matching policy '".toList ++ n ++ "' (expected one of: ".toList
    ++ ", ".toList.intercalate (all.map name) ++ ")".toList

/-- The sections of a document as the policy sees them. -/
def sections? : Policy → Text → Option Sections
  | stacking => Sections.loose?
  | replacing => Sections.strict?

/-- The sections make up the document. -/
theorem document_of_sections? {p : Policy} {t : Text} {s : Sections} (h : p.sections? t = some s) :
    s.document = t := by
  cases p
  · exact Sections.document_of_loose? h
  · exact Sections.document_of_strict? h

/-- The document with a block in place of the body. -/
def fill (p : Policy) (s : Sections) (block : Text) : Text :=
  match p with
  | stacking => s.before ++ s.opening ++ s.opening ++ block ++ s.closing ++ s.after
  | replacing => s.before ++ s.opening ++ block ++ s.closing ++ s.after

/-- The text between the markers, if the document has them. -/
def body? (p : Policy) (document : Text) : Option Text := (p.sections? document).map (·.body)

end Policy
end DocSplice
