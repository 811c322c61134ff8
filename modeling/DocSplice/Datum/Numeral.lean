import DocSplice.Datum.Basic

/-!
# Numerals

A numeral is written with digits, perhaps after a minus sign, perhaps with a point and more digits, and
perhaps with a power of ten. One with neither point nor power stands for an integer if that fits in 64
bits. Any other stands for a double, and is read with one rounding a step: as many digits as fit in 64
bits make a whole number, and that is multiplied or divided by a power of ten. So the double is close to
the written number, but another one may be closer.
-/
namespace DocSplice

/-- The parts of a numeral. The digits are numbers below ten. -/
structure Numeral where
  negative : Bool
  whole : List Nat
  part : Option (List Nat)
  power : Option Int
deriving DecidableEq, Repr

namespace Numeral

/-- The digits that a text begins with, and the rest of it. -/
def cutDigits (t : Text) : List Nat × Text :=
  ((t.takeWhile Char.isDigit).map fun c => c.toNat - '0'.toNat, t.dropWhile Char.isDigit)

/-- Cuts a minus sign off. -/
def cutSign : Text → Bool × Text
  | '-' :: rest => (true, rest)
  | t => (false, t)

/-- Cuts off a point with the digits behind it. -/
def cutPart : Text → Option (List Nat) × Text
  | '.' :: rest => let (ds, t) := cutDigits rest; (some ds, t)
  | t => (none, t)

/-- The number that digits stand for. -/
def ofDigits (ds : List Nat) : Nat := ds.foldl (fun n d => 10 * n + d) 0

/-- The power of ten that a numeral ends with, or that there is none; nothing for any other text. -/
def power? : Text → Option (Option Int)
  | [] => some none
  | c :: rest =>
    let (negative, digits) := match rest with
      | '+' :: t => (false, t)
      | t => cutSign t
    let (ds, t) := cutDigits digits
    if (c = 'e' ∨ c = 'E') ∧ ds ≠ [] ∧ t = [] then
      some (some (if negative then -ofDigits ds else ofDigits ds))
    else none

/-- The parts of a text that is a numeral. -/
def ofText? (t : Text) : Option Numeral :=
  let (negative, t) := cutSign t
  let (whole, t) := cutDigits t
  let (part, t) := cutPart t
  if whole = [] ∨ (whole.head? = some 0 ∧ 1 < whole.length) ∨ part = some [] then none
  else (power? t).map fun e => ⟨negative, whole, part, e⟩

/-- Takes digits into a number as long as that stays below 2 ^ 64; the digits left over follow. -/
def gather (n : Nat) : List Nat → Nat × List Nat
  | [] => (n, [])
  | d :: rest => if 10 * n + d < Nat.pow 2 64 then gather (10 * n + d) rest else (n, d :: rest)

/-- A power of ten, of at most 308 zeros, as a double. -/
def tenTo (k : Nat) : Float := Float.ofScientific 1 false k

/-- The number without its last `k` places, which are cut off by at most 308 at a time. -/
def shrink (f : Float) (k : Nat) : Float :=
  if k ≤ 308 then f / tenTo k
  else if f == 0 then f
  else shrink (f / tenTo 308) (k - 308)
termination_by k

/-- The number times a power of ten; nothing beyond the greatest double. -/
def scale? (f : Float) (e : Int) : Option Float :=
  if e < 0 then some (shrink f e.natAbs)
  else if f == 0 then some f
  else if e ≤ 308 ∧ (f * tenTo e.toNat).isFinite then some (f * tenTo e.toNat)
  else none

/-- The double that a numeral stands for. -/
def double? (x : Numeral) : Option Float :=
  let part := x.part.getD []
  let (n, left) := gather 0 x.whole
  let (m, unread) := gather n part
  let e := (left.length : Int) - (part.length - unread.length) + x.power.getD 0
  (scale? m.toUInt64.toFloat e).map fun f => if x.negative then -f else f

/-- The integer of at most 64 bits that a numeral stands for. A zero with a minus sign is none, since an
integer would lose the sign. -/
def integer? (x : Numeral) : Option Int :=
  let n := ofDigits x.whole
  if x.part = none ∧ x.power = none then
    if x.negative then if 0 < n ∧ n ≤ Nat.pow 2 63 then some (-n) else none
    else if n < Nat.pow 2 64 then some n else none
  else none

/-- What a numeral stands for; nothing beyond the greatest double. -/
def datum? (x : Numeral) : Option Datum :=
  match x.integer? with
  | some n => some (.integer n)
  | none => x.double?.map .double

example : ofText? "-10.5e+07".toList = some ⟨true, [1, 0], some [5], some 7⟩ ∧ ofText? "01".toList = none
    ∧ ofText? "1.".toList = none ∧ ofText? "1e".toList = none := by decide

end Numeral
end DocSplice
