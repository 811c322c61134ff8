import DocSplice.Marker
import DocSplice.Text.Line

/-!
# Sections of a document

A document is cut at its markers in one of two ways. `strict?` takes the first opening that ends its
line and the first closing behind it. `loose?` takes the last closing and, before it, the last whole
line that holds an opening, together with the line feeds behind that line. The statements say that the
sections make up the document.
-/
namespace DocSplice

/-- A document cut at its markers. -/
structure Sections where
  before : Text
  opening : Text
  body : Text
  closing : Text
  after : Text
deriving DecidableEq, Repr

namespace Sections

/-- The document that was cut. -/
def document (s : Sections) : Text := s.before ++ s.opening ++ s.body ++ s.closing ++ s.after

/-- Where the body begins, in octets. -/
def bodyStart (s : Sections) : Nat := s.before.utf8Length + s.opening.utf8Length

/-- Where the body ends, in octets. -/
def bodyEnd (s : Sections) : Nat := s.bodyStart + s.body.utf8Length

/-- The sections around the first strict opening and the first strict closing behind it. -/
def strict? (document : Text) : Option Sections :=
  (cutFirst Marker.strictOpening document).bind fun o =>
    (cutFirst Marker.strictClosing o.after).map fun c =>
      { before := o.before, opening := o.hit, body := c.before, closing := c.hit, after := c.after }

/-- The sections around the last loose closing and the last opening line before it. -/
def loose? (document : Text) : Option Sections :=
  (cutLast Marker.looseClosing document).bind fun c =>
    (cutLast Marker.looseOpening (Text.pieces c.before)).map fun o =>
      let rest := o.after.flatten
      { before := o.before.flatten
        opening := o.hit.flatten ++ rest.takeWhile (· == '\n')
        body := rest.dropWhile (· == '\n')
        closing := c.hit
        after := c.after }

theorem document_of_strict? {t : Text} {s : Sections} (h : strict? t = some s) : s.document = t := by
  obtain ⟨o, ho, h⟩ := Option.bind_eq_some_iff.1 h
  obtain ⟨c, hc, rfl⟩ := Option.map_eq_some_iff.1 h
  have ho := whole_of_cutFirst ho
  have hc := whole_of_cutFirst hc
  simp only [Cut.whole, document] at *
  simp [← ho, ← hc]

theorem document_of_loose? {t : Text} {s : Sections} (h : loose? t = some s) : s.document = t := by
  obtain ⟨c, hc, h⟩ := Option.bind_eq_some_iff.1 h
  obtain ⟨o, ho, rfl⟩ := Option.map_eq_some_iff.1 h
  have ho := congrArg List.flatten (whole_of_cutLast ho)
  have hc := whole_of_cutLast hc
  simp only [Cut.whole, document, List.flatten_append, Text.flatten_pieces] at *
  rw [← hc, ← ho]
  simp only [List.append_assoc]
  rw [← List.append_assoc (List.takeWhile _ _), List.takeWhile_append_dropWhile]

end Sections
end DocSplice
