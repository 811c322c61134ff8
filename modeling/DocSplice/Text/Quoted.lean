import DocSplice.Text.Combining
import DocSplice.Text.Glyphless
import DocSplice.Text.Ignorable

/-!
# Quoted text

Two quoted forms of a text. The JSON form escapes the quote, the backslash and the control characters
below U+0020, five of those by a letter. The diagnostic form shows a text inside a message: it has
letters for three control characters, `\0` for NUL, and the code point in braces for every other
character that could not be seen by itself.
-/
namespace DocSplice.Text

/-- The digit for a number below 16, in small letters. -/
def hexDigit (n : Nat) : Char := Nat.digitChar (n % 16)

/-- A character inside a JSON string. -/
def escapeJson (c : Char) : Text :=
  match c with
  | '"' => ['\\', '"']
  | '\\' => ['\\', '\\']
  | '\n' => ['\\', 'n']
  | '\r' => ['\\', 'r']
  | '\t' => ['\\', 't']
  | '\x08' => ['\\', 'b']
  | '\x0c' => ['\\', 'f']
  | c =>
    if c.toNat < 0x20 then ['\\', 'u', '0', '0', hexDigit (c.toNat / 16), hexDigit c.toNat] else [c]

/-- The text as a JSON string. -/
def quoteJson (t : Text) : Text := '"' :: t.flatMap escapeJson ++ ['"']

/-- Whether a character stands for itself in the diagnostic form: it must draw something, everywhere and
in a place of its own. Of the combining characters only the two halfwidth voicing marks have such a
place. -/
def isShown (c : Char) : Bool :=
  !isGlyphless c && !isIgnorable c && (!isCombining c || c == '\uff9e' || c == '\uff9f')

/-- A character inside the diagnostic form. -/
def escapeShown (c : Char) : Text :=
  match c with
  | '"' => ['\\', '"']
  | '\\' => ['\\', '\\']
  | '\n' => ['\\', 'n']
  | '\r' => ['\\', 'r']
  | '\t' => ['\\', 't']
  | '\x00' => ['\\', '0']
  | c =>
    if isShown c then [c] else ['\\', 'u', '{'] ++ Nat.toDigits 16 c.toNat ++ ['}']

/-- The text in its diagnostic form. -/
def quoteShown (t : Text) : Text := '"' :: t.flatMap escapeShown ++ ['"']

end DocSplice.Text
