import DocSplice.Text.Basic

/-!
# UTF-8

Octets are read by a machine that takes one at a time and keeps the sequence it stands in. A stretch
that cannot be the beginning of a character ends at the first octet that does not fit, and that octet
is read afresh. Strict decoding refuses a text with such a stretch; lossy decoding shows each one as a
replacement character. The machine reads a joined input as it reads the parts (`feedAll_append`).
-/
namespace DocSplice

/-- A sequence of octets. -/
abbrev Octets := List UInt8

namespace Utf8

/-- A character that has begun: the bits read so far, the number of octets still missing, and the
range in which the next one must lie. -/
structure Partial where
  bits : Nat
  missing : Nat
  low : Nat
  high : Nat
deriving DecidableEq, Repr

/-- What a first octet of 128 or more begins. The ranges leave out over-long forms, surrogates and
numbers above U+10FFFF. -/
def Partial.ofLead? (n : Nat) : Option Partial :=
  if 0xC2 ≤ n ∧ n ≤ 0xDF then some ⟨n - 0xC0, 1, 0x80, 0xBF⟩
  else if n = 0xE0 then some ⟨0, 2, 0xA0, 0xBF⟩
  else if n = 0xED then some ⟨0xD, 2, 0x80, 0x9F⟩
  else if 0xE1 ≤ n ∧ n ≤ 0xEF then some ⟨n - 0xE0, 2, 0x80, 0xBF⟩
  else if n = 0xF0 then some ⟨0, 3, 0x90, 0xBF⟩
  else if n = 0xF4 then some ⟨4, 3, 0x80, 0x8F⟩
  else if 0xF1 ≤ n ∧ n ≤ 0xF3 then some ⟨n - 0xF0, 3, 0x80, 0xBF⟩
  else none

/-- What has been read, the last item first, and the character that has begun. An item is a character,
or `none` for a stretch that is none. -/
structure Reader where
  items : List (Option Char)
  begun : Option Partial
deriving DecidableEq, Repr

namespace Reader

/-- Reads an octet where no character has begun. -/
def start (items : List (Option Char)) (n : Nat) : Reader :=
  if n < 0x80 then ⟨some (Char.ofNat n) :: items, none⟩
  else match Partial.ofLead? n with
    | some p => ⟨items, some p⟩
    | none => ⟨none :: items, none⟩

/-- Reads one octet. -/
def feed (r : Reader) (b : UInt8) : Reader :=
  match r.begun with
  | none => start r.items b.toNat
  | some p =>
    if p.low ≤ b.toNat ∧ b.toNat ≤ p.high then
      let bits := p.bits * 64 + (b.toNat - 0x80)
      if p.missing = 1 then ⟨some (Char.ofNat bits) :: r.items, none⟩
      else ⟨r.items, some ⟨bits, p.missing - 1, 0x80, 0xBF⟩⟩
    else start (none :: r.items) b.toNat

/-- Reads all octets in turn. -/
def feedAll (r : Reader) (bytes : Octets) : Reader := bytes.foldl feed r

theorem feedAll_append (r : Reader) (a b : Octets) : r.feedAll (a ++ b) = (r.feedAll a).feedAll b :=
  List.foldl_append

/-- The items in the order of the input; a character that has begun and is not complete is none. -/
def finish (r : Reader) : List (Option Char) :=
  (match r.begun with
    | none => r.items
    | some _ => none :: r.items).reverse

end Reader

/-- The items of an input: its characters, and `none` for each stretch that is none. -/
def items (bytes : Octets) : List (Option Char) := (Reader.feedAll ⟨[], none⟩ bytes).finish

/-- The text that the octets encode, if they encode one. -/
def decode? (bytes : Octets) : Option Text :=
  let found := items bytes
  if found.all Option.isSome then some (found.filterMap id) else none

/-- The text of the octets, with a replacement character for each stretch that encodes nothing. -/
def decodeLossy (bytes : Octets) : Text := (items bytes).map (·.getD '\uFFFD')

/-- The octets of one character. -/
def encodeChar (c : Char) : Octets :=
  let n := c.toNat
  let tail (k : Nat) : UInt8 := .ofNat (0x80 + k % 64)
  if n < 0x80 then [.ofNat n]
  else if n < 0x800 then [.ofNat (0xC0 + n / 64), tail n]
  else if n < 0x10000 then [.ofNat (0xE0 + n / 4096), tail (n / 64), tail n]
  else [.ofNat (0xF0 + n / 262144), tail (n / 4096), tail (n / 64), tail n]

/-- The octets of a text. -/
def encode (t : Text) : Octets := t.flatMap encodeChar

@[simp] theorem encode_nil : encode [] = [] := rfl

@[simp] theorem encode_append (s t : Text) : encode (s ++ t) = encode s ++ encode t := by
  simp [encode]

end Utf8
end DocSplice
