import DocSplice.Datum.Double
import DocSplice.Text.Quoted

/-!
# Data values

A value of a data format: nothing, a truth value, a number, a text, a sequence, or an object with keys.
-/
namespace DocSplice

/-- A data value. A number is an integer or a finite double. -/
inductive Datum where
  | null
  | boolean (b : Bool)
  | integer (n : Int)
  | double (f : Float)
  | string (t : Text)
  | sequence (items : List Datum)
  | object (fields : List (Text × Datum))

namespace Datum

/-- An integer in decimal digits. -/
def renderInt (n : Int) : Text := (if n < 0 then ['-'] else []) ++ Text.ofNat n.natAbs

/-- What a message calls the value. -/
def kind : Datum → Text
  | null => "null".toList
  | boolean b => "boolean `".toList ++ Text.ofBool b ++ ['`']
  | integer n => "integer `".toList ++ renderInt n ++ ['`']
  | double f => "floating point `".toList ++ Double.render f ++ ['`']
  | string t => "string ".toList ++ t.quoteShown
  | sequence _ => "sequence".toList
  | object _ => "map".toList

end Datum
end DocSplice
