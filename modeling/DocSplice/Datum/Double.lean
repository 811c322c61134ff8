import DocSplice.Text.Basic

/-!
# The text of a double

A finite double is written with the fewest digits that read back as the same double, the nearest of those
if there are several, and of two equally near ones the even one. The point stands in its place where that takes few zeros; else it stands behind the
first digit, and a power of ten follows.
-/
namespace DocSplice.Double

/-- The size of a finite double as `m * 2 ^ q`. -/
def binary (f : Float) : Nat × Int :=
  let bits := f.toBits.toNat
  let e : Nat := bits / Nat.pow 2 52 % 2048
  let fraction : Nat := bits % Nat.pow 2 52
  if e = 0 then (fraction, -1074) else (Nat.pow 2 52 + fraction, (e : Int) - 1075)

/-- A ratio of two natural numbers, for a number times a power of a base. -/
def scaled (n base : Nat) (e : Int) : Nat × Nat :=
  if 0 ≤ e then (n * base.pow e.toNat, 1) else (n, base.pow (-e).toNat)

/-- The number of decimal digits before the point of a ratio of at least one tenth; zero or less for
smaller ones. -/
def decimalPlaces (num den : Nat) : Int :=
  let whole := num / den
  if whole ≠ 0 then ((Nat.toDigits 10 whole).length : Int)
  else
    let inverse := (den - 1) / num
    1 - ((Nat.toDigits 10 inverse).length : Int)

/-- The fewest digits for `m * 2 ^ q`, and the power of ten they are to be multiplied by. The numbers that
read back as this one lie half a step around it, and a quarter step below if it is a power of two. -/
def shortest (m : Nat) (q : Int) : Nat × Int :=
  let below := if m = Nat.pow 2 52 ∧ q ≠ -1074 then 1 else 2
  let (num, den) := scaled (4 * m) 2 (q - 2)
  let unit := (scaled 1 2 (q - 2)).1
  let low := num - below * unit
  let high := num + 2 * unit
  let places := decimalPlaces num den
  let fits (n : Nat) (e : Int) : Bool :=
    let (a, b) := scaled n 10 e
    let x := a * den
    if m % 2 = 0 then low * b ≤ x && x ≤ high * b else low * b < x && x < high * b
  let candidate (digits : Nat) : Option (Nat × Int) :=
    let e := places - digits
    let (a, b) := scaled 1 10 e
    let floor := num * b / (den * a)
    let rest := num * b - floor * (den * a)
    let isBelow := 2 * rest < den * a ∨ (2 * rest = den * a ∧ floor % 2 = 0)
    let nearer := if isBelow then [floor, floor + 1] else [floor + 1, floor]
    (nearer.find? fun n => fits n e).map fun n => (n, e)
  ((List.range 17).findSome? fun k => candidate (k + 1)).getD (0, 0)

/-- The text without the zeros at its end. -/
def trimZeros (t : Text) : Text := (t.reverse.dropWhile (· == '0')).reverse

/-- Digits behind a point that has `point` of them before it. A number from 10 ^ (-5) up to 10 ^ 16 has
the point in its place, with a zero where no digit would stand beside it; any other has one digit before
the point, if more follow, and the power of ten with its sign. -/
def layOut (digits : Text) (point : Int) : Text :=
  if point < -4 ∨ 16 < point then
    let power := point - 1
    let part := digits.drop 1
    digits.take 1 ++ (if part = [] then [] else '.' :: part)
      ++ 'e' :: (if power < 0 then '-' else '+') :: Text.ofNat power.natAbs
  else if point ≤ 0 then '0' :: '.' :: List.replicate point.natAbs '0' ++ digits
  else
    let part := digits.drop point.toNat
    digits.take point.toNat ++ List.replicate (point.toNat - digits.length) '0'
      ++ '.' :: (if part = [] then ['0'] else part)

/-- The text of a finite double. -/
def render (f : Float) : Text :=
  let (m, q) := binary f
  let sign : Text := if f.toBits.toNat / Nat.pow 2 63 = 1 then ['-'] else []
  if m = 0 then sign ++ "0.0".toList
  else
    let (n, e) := shortest m q
    let digits := Text.ofNat n
    sign ++ layOut (trimZeros digits) (digits.length + e)

example : layOut "15".toList 1 = "1.5".toList ∧ layOut ['7'] 16 = "7000000000000000.0".toList
    ∧ layOut ['7'] 17 = "7e+16".toList ∧ layOut "15".toList 17 = "1.5e+16".toList
    ∧ layOut ['6'] (-4) = "0.00006".toList ∧ layOut ['6'] (-5) = "6e-6".toList := by decide

end DocSplice.Double
