import DocSplice.Text.Ranges

/-!
# Blank characters

The characters with the Unicode property White_Space, and the cut of the blank end of a text.
-/
namespace DocSplice.Text

/-- The ranges of the Unicode property White_Space. -/
def blankRanges : Ranges :=
  [(0x0009, 0x000D), (0x0020, 0x0020), (0x0085, 0x0085), (0x00A0, 0x00A0), (0x1680, 0x1680),
   (0x2000, 0x200A), (0x2028, 0x2029), (0x202F, 0x202F), (0x205F, 0x205F), (0x3000, 0x3000)]

/-- Whether the character has the property White_Space. -/
def isBlank (c : Char) : Bool := blankRanges.has c.toNat

/-- The text without the blank characters at its end. -/
def trimEnd (t : Text) : Text := (t.reverse.dropWhile isBlank).reverse

example : blankRanges.rising = true ∧ blankRanges.count = 25 := by decide

end DocSplice.Text
