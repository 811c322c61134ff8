import DocSplice.Policy

/-!
# Splicing a block into a document

A splice puts a block in place of the text between the markers. A document without markers stays as it
is.
-/
namespace DocSplice

/-- A stretch of a document, in octets. -/
structure Span where
  start : Nat
  stop : Nat
deriving DecidableEq, Repr

/-- The outcome of a splice: the new document, and where the replaced text stood in the old one. -/
structure Splice where
  content : Text
  region : Option Span
deriving DecidableEq, Repr

namespace Splice

/-- Puts the block in place of the text between the markers. -/
def make (p : Policy) (document block : Text) : Splice :=
  match p.sections? document with
  | none => ⟨document, none⟩
  | some s => ⟨p.fill s block, some ⟨s.bodyStart, s.bodyEnd⟩⟩

/-- Whether the markers were found. -/
def matched (s : Splice) : Bool := s.region.isSome

/-- Whether the splice differs from the document. -/
def changes (s : Splice) (document : Text) : Bool := s.content != document

theorem make_eq_of_none {p : Policy} {document : Text} (h : p.sections? document = none)
    (block : Text) : make p document block = ⟨document, none⟩ := by simp [make, h]

theorem make_eq_of_some {p : Policy} {document : Text} {s : Sections}
    (h : p.sections? document = some s) (block : Text) :
    make p document block = ⟨p.fill s block, some ⟨s.bodyStart, s.bodyEnd⟩⟩ := by simp [make, h]

theorem matched_make (p : Policy) (document block : Text) :
    (make p document block).matched = (p.sections? document).isSome := by
  unfold make; split <;> simp_all [matched]

end Splice
end DocSplice
