/-!
# Documents

A document is the list of its characters. Places in a document are counted in the octets of its UTF-8
form.
-/
namespace DocSplice

/-- A document, character by character. -/
abbrev Text := List Char

namespace Text

/-- The number of octets that the text takes in UTF-8. -/
def utf8Length (t : Text) : Nat := t.foldr (fun c n => c.utf8Size + n) 0

@[simp] theorem utf8Length_nil : utf8Length [] = 0 := rfl

@[simp] theorem utf8Length_cons (c : Char) (t : Text) :
    utf8Length (c :: t) = c.utf8Size + utf8Length t := rfl

@[simp] theorem utf8Length_append (s t : Text) :
    utf8Length (s ++ t) = utf8Length s + utf8Length t := by
  induction s with
  | nil => simp
  | cons c s ih => simp [ih, Nat.add_assoc]

/-- Whether the text begins with the word. -/
def startsWith (t word : Text) : Bool := word.isPrefixOf t

/-- A number in decimal digits. -/
def ofNat (n : Nat) : Text := Nat.toDigits 10 n

/-- A truth value in words. -/
def ofBool (b : Bool) : Text := if b then "true".toList else "false".toList

end Text
end DocSplice
