import DocSplice.Text.Basic

/-!
# Styles of terminal text

A style is a list of numbers that a terminal understands between an escape and the letter `m`. Painted
text begins with its style and ends with the reset; where the text itself holds a reset, the style is set
again behind it.
-/
namespace DocSplice.CommandLine

/-- A way to show text on a terminal. -/
inductive Style where
  | bold
  | red
  | green
  | cyan
  | blue
  | yellow
  | dim
  | italic
  | boldRed
  | boldGreen
  | boldYellow
deriving DecidableEq, Repr

namespace Style

/-- The numbers of a style. -/
def code : Style → Text
  | bold => "1".toList
  | red => "31".toList
  | green => "32".toList
  | cyan => "36".toList
  | blue => "34".toList
  | yellow => "33".toList
  | dim => "2".toList
  | italic => "3".toList
  | boldRed => "1;31".toList
  | boldGreen => "1;32".toList
  | boldYellow => "1;33".toList

/-- What sets a style. -/
def opening (s : Style) : Text := '\x1b' :: '[' :: s.code ++ ['m']

/-- What resets every style. -/
def reset : Text := ['\x1b', '[', '0', 'm']

/-- The text with the style set again behind each reset in it. -/
def renew (s : Style) : Text → Text
  | '\x1b' :: '[' :: '0' :: 'm' :: r => reset ++ s.opening ++ renew s r
  | c :: r => c :: renew s r
  | [] => []

/-- The text in the style, if colours are wanted. -/
def paint (s : Style) (colour : Bool) (t : Text) : Text :=
  if colour then s.opening ++ s.renew t ++ reset else t

@[simp] theorem paint_false (s : Style) (t : Text) : s.paint false t = t := rfl

end Style

/-- Whether an environment variable is on: set to anything but zero. -/
def isOn (value : Option Text) : Option Bool := value.map (· != ['0'])

/-- Whether text is painted. A wish for colours goes before a wish against them, and without either only
a terminal gets colours, unless it is told not to. -/
def coloursWanted (force against terminalWish : Option Text) (terminal : Bool) : Bool :=
  if isOn force = some true then true
  else if (isOn against).isSome then false
  else (isOn terminalWish).getD true && terminal

end DocSplice.CommandLine
