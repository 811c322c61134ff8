import DocSplice.Cut
import DocSplice.Text.Basic

/-!
# Markers

The comments that bound the examples in a document: an opening and a closing. Both have a strict form,
which fits the comment as it is meant to be written, and a loose form. The loose opening is any line
that holds the words; the loose closing may have more than two dashes.
-/
namespace DocSplice.Marker

/-- What a line holds to be an opening line. -/
def openingWord : Text := "BEGIN EXAMPLES".toList

/-- The end of an opening line that is a comment of its own. -/
def openingTail : Text := "BEGIN EXAMPLES -->\n".toList

/-- The head of a closing comment. -/
def closingHead : Text := "<!-- END EXAMPLES".toList

/-- What follows the dashes of a closing comment. -/
def closingWord : Text := " END EXAMPLES".toList

/-- Fits the end of an opening line in its strict form. -/
def strictOpening : Pattern Char := .word openingTail

/-- Fits the head of a closing comment in its strict form. -/
def strictClosing : Pattern Char := .word closingHead

/-- Fits the head of a closing comment with two or more dashes. -/
def looseClosing : Pattern Char
  | '<' :: '!' :: '-' :: '-' :: r =>
    let more := (r.takeWhile (· == '-')).length
    if closingWord.isPrefixOf (r.drop more) then some (4 + more + closingWord.length) else none
  | _ => none

/-- Whether a piece of a document is a whole line that holds the words of an opening. -/
def isOpeningLine (piece : Text) : Bool :=
  piece.getLast? == some '\n' && (cutFirst (.word openingWord) piece).isSome

/-- Fits one opening line at the head of the pieces of a document. -/
def looseOpening : Pattern Text := .one isOpeningLine

end DocSplice.Marker
