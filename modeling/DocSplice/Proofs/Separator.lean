import DocSplice.Proofs.NamedFile

/-!
# Separators in a path

An octet below 128 ends whatever character has begun: it is no part of one, and what stands behind it is read as if
nothing stood before it (`feed_of_lt`, `feedAll_behind`). So a text is decoded part by part between such octets
(`decodeLossy_append_cons`), also where a part ends inside of a character or begins with octets that belong to none.
The main statement says this of paths: both separators become a slash between the portable paths of the parts
(`ofNative_separated`).
-/
namespace DocSplice

namespace Utf8

variable {r : Reader} {b : UInt8} {p : Partial} {n : ℕ}

namespace Reader

/-! ## Octets below 128 -/

/-- Whatever has begun goes on with an octet of 128 or more. -/
def AsksHigh (r : Reader) : Prop := ∀ p, r.begun = some p → 0x80 ≤ p.low

theorem low_of_ofLead? (h : Partial.ofLead? n = some p) : 0x80 ≤ p.low := by
  rw [Partial.ofLead?] at h
  split_ifs at h <;> simp only [Option.some.injEq] at h <;> subst h <;> simp

theorem asksHigh_start (items : List (Option Char)) (n : ℕ) : (start items n).AsksHigh := by
  intro p hp
  rw [start] at hp
  split at hp
  · cases hp
  split at hp
  · next q hq =>
    rw [← Option.some.inj hp]
    exact low_of_ofLead? hq
  · cases hp

/-- One more octet. -/
theorem asksHigh_feed (r : Reader) (b : UInt8) : (r.feed b).AsksHigh := by
  rw [feed]
  split
  · exact asksHigh_start _ _
  split
  · dsimp only
    split
    · simp [AsksHigh]
    · intro p hp
      rw [← Option.some.inj hp]
  · exact asksHigh_start _ _

theorem AsksHigh.feedAll (h : r.AsksHigh) (bytes : Octets) : (r.feedAll bytes).AsksHigh := by
  induction bytes generalizing r with
  | nil => exact h
  | cons b bytes ih => exact ih (asksHigh_feed r b)

/-- An octet below 128 ends what has begun, and is a character of its own. -/
theorem feed_of_lt (h : r.AsksHigh) (hb : b.toNat < 0x80) :
    r.feed b = ⟨some (Char.ofNat b.toNat) :: r.finish.reverse, none⟩ := by
  obtain ⟨items, begun⟩ := r
  cases begun with
  | none => simp [feed, start, finish, hb]
  | some p =>
      have hlow : ¬(p.low ≤ b.toNat ∧ b.toNat ≤ p.high) := by
        have := h p rfl
        omega
      simp [feed, start, finish, hb, hlow]

/-! ## What has been read before -/

/-- The reader as it stands behind other items. -/
def behind (earlier : List (Option Char)) (r : Reader) : Reader := ⟨r.items ++ earlier, r.begun⟩

theorem start_append (items earlier : List (Option Char)) (n : ℕ) :
    start (items ++ earlier) n = (start items n).behind earlier := by
  simp only [start]
  split
  · rfl
  split <;> rfl

/-- What has been read before has no effect on how an octet is read. -/
theorem feed_behind (earlier : List (Option Char)) (r : Reader) (b : UInt8) :
    (r.behind earlier).feed b = (r.feed b).behind earlier := by
  obtain ⟨items, begun⟩ := r
  cases begun with
  | none => exact start_append items earlier b.toNat
  | some p =>
      simp only [feed, behind]
      split
      · split <;> rfl
      · exact start_append (none :: items) earlier b.toNat

theorem feedAll_behind (earlier : List (Option Char)) (r : Reader) (bytes : Octets) :
    (r.behind earlier).feedAll bytes = (r.feedAll bytes).behind earlier := by
  induction bytes generalizing r with
  | nil => rfl
  | cons b bytes ih =>
      have hfirst := feed_behind earlier r b
      simp only [feedAll, List.foldl_cons] at ih ⊢
      rw [hfirst, ih]

theorem finish_behind (earlier : List (Option Char)) (r : Reader) :
    (r.behind earlier).finish = earlier.reverse ++ r.finish := by
  obtain ⟨items, begun⟩ := r
  cases begun <;> simp [behind, finish]

end Reader

/-! ## Parts between octets below 128 -/

/-- The items of two parts with an octet below 128 between them are those of either part, and this character. -/
theorem items_append_cons (a b : Octets) {s : UInt8} (hs : s.toNat < 0x80) :
    Utf8.items (a ++ s :: b) = Utf8.items a ++ some (Char.ofNat s.toNat) :: Utf8.items b := by
  have hasks : (Reader.feedAll ⟨[], none⟩ a).AsksHigh :=
    Reader.AsksHigh.feedAll (r := ⟨[], none⟩) (by simp [Reader.AsksHigh]) a
  have hread : Reader.feedAll ⟨[], none⟩ (a ++ s :: b) =
      (Reader.feedAll ⟨[], none⟩ b).behind (some (Char.ofNat s.toNat) :: (Utf8.items a).reverse) := by
    rw [Reader.feedAll_append, ← Reader.feedAll_behind]
    change Reader.feedAll (Reader.feed _ s) b = _
    rw [Reader.feed_of_lt hasks hs]
    rfl
  rw [Utf8.items, hread, Reader.finish_behind]
  simp [Utf8.items]

/-- **Lossy decoding reads the parts on both sides of an octet below 128 each for itself.** -/
theorem decodeLossy_append_cons (a b : Octets) {s : UInt8} (hs : s.toNat < 0x80) :
    decodeLossy (a ++ s :: b) = decodeLossy a ++ Char.ofNat s.toNat :: decodeLossy b := by
  simp [decodeLossy, items_append_cons a b hs]

end Utf8

namespace NativePath

/-- The octet of a backslash. -/
def backslash : UInt8 := 0x5C

/-- Octets are portable if they decode and hold no backslash. -/
theorem isPortable_iff {path : NativePath} :
    IsPortable path ↔ (Utf8.decode? path).isSome = true ∧ backslash ∉ path := by
  rw [Option.isSome_iff_exists]
  constructor
  · intro h
    obtain ⟨text, rfl, htext⟩ := h
    refine ⟨⟨text, Utf8.decode?_encode text⟩, ?_⟩
    intro hmem
    obtain ⟨c, hc, hnum⟩ := Utf8.exists_mem_of_mem_encode (by decide) hmem
    have hchar : c = '\\' := Char.toNat_inj.1 hnum
    exact htext (hchar ▸ hc)
  · intro h
    obtain ⟨⟨text, htext⟩, hnot⟩ := h
    obtain rfl := Utf8.decode?_eq_some_iff.1 htext
    refine ⟨text, rfl, ?_⟩
    intro hmem
    exact hnot (List.mem_flatMap.2 ⟨'\\', hmem, by decide⟩)

end NativePath

namespace PortablePath

open NativePath

/-- The text of a portable path, taken as a path again, is the same portable path. -/
theorem ofNative_native (path : NativePath) : ofNative (ofNative path).native = ofNative path := by
  rw [native, ofNative, Utf8.decodeLossy_encode, ofNative, ofText_text]

/-- An octet that stands for a separator leaves a slash between the portable paths of the two parts. -/
theorem text_ofNative_append_cons (a b : NativePath) {s : UInt8} (hs : s = slash ∨ s = backslash) :
    (ofNative (a ++ s :: b)).text = (ofNative a).text ++ '/' :: (ofNative b).text := by
  have hlow : s.toNat < 0x80 := by rcases hs with rfl | rfl <;> decide
  have hslash : (ofText [Char.ofNat s.toNat]).text = ['/'] := by rcases hs with rfl | rfl <;> decide
  rw [ofNative, Utf8.decodeLossy_append_cons a b hlow, text_ofText_append,
    ← List.singleton_append, text_ofText_append, hslash]
  rfl

/-- **A path is made portable once and for all, and name by name.** The portable path holds no backslash and is its own
portable path. It is spelled by the octets that were given exactly if these decode and hold no backslash. Whatever
octets stand on either side of a separator, be it a slash or a backslash, are made portable each for themselves. -/
theorem ofNative_separated (a b : NativePath) :
    '\\' ∉ (ofNative a).text ∧
      ofNative (ofNative a).native = ofNative a ∧
      ((ofNative a).native = a ↔ (Utf8.decode? a).isSome = true ∧ backslash ∉ a) ∧
      (ofNative (a ++ [slash] ++ b)).text = (ofNative a).text ++ ['/'] ++ (ofNative b).text ∧
      (ofNative (a ++ [backslash] ++ b)).text = (ofNative a).text ++ ['/'] ++ (ofNative b).text := by
  have hslash := text_ofNative_append_cons a b (.inl rfl)
  have hbackslash := text_ofNative_append_cons a b (.inr rfl)
  refine ⟨not_mem_ofText _, ofNative_native a, native_ofNative_iff.trans isPortable_iff, ?_, ?_⟩
  · simpa using hslash
  · simpa using hbackslash

/-- The octets of one character with a separator among them are no character. -/
example : (ofNative [0xE2, 0x82, slash, 0xAC]).text = ['\uFFFD', '/', '\uFFFD'] := by decide

end PortablePath
end DocSplice
