import DocSplice.Text.Utf8
import Mathlib.Data.List.Basic
import Mathlib.Tactic.IntervalCases

/-!
# Encoding and decoding

The machine reads the octets of a text back as the characters of the text (`feedAll_encode`), so both ways of
decoding undo the encoding. A text takes as many octets as `utf8Length` counts. Strict decoding takes no octets but
those of a text (`decode?_eq_some_iff`): the machine has refused what it has read, or spells it (`Reader.IsExact`).

A character is read octet by octet: `ofLead?_two`, `ofLead?_three` and `ofLead?_four` say what its first
octet begins, and `feed_tail` what each further octet adds.
-/
namespace DocSplice.Utf8

/-- The octet that carries the lowest six bits of a number behind the first octet. -/
def tailOctet (k : ℕ) : UInt8 := .ofNat (0x80 + k % 64)

theorem toNat_tailOctet (k : ℕ) : (tailOctet k).toNat = 0x80 + k % 64 := by
  rw [tailOctet, UInt8.toNat_ofNat']
  omega

theorem toNat_ofNat_of_lt {k : ℕ} (h : k < 256) : (UInt8.ofNat k).toNat = k := by
  rw [UInt8.toNat_ofNat', Nat.mod_eq_of_lt h]

/-! ## First octets -/

theorem ofLead?_two {k : ℕ} (h₂ : 2 ≤ k) (h : k ≤ 0x1F) :
    Partial.ofLead? (0xC0 + k) = some ⟨k, 1, 0x80, 0xBF⟩ := by
  rw [Partial.ofLead?, if_pos (by omega)]
  simp

/-- The range of the second octet leaves out what fewer octets can write, and surrogates. -/
theorem ofLead?_three {k : ℕ} (h : k ≤ 0xF) :
    ∃ low high, Partial.ofLead? (0xE0 + k) = some ⟨k, 2, low, high⟩ ∧
      ∀ m < 64, (k = 0 → 32 ≤ m) → (k = 13 → m < 32) → low ≤ 0x80 + m ∧ 0x80 + m ≤ high := by
  interval_cases k <;> exact ⟨_, _, rfl, by omega⟩

/-- The range of the second octet leaves out what fewer octets can write, and numbers that are too large. -/
theorem ofLead?_four {k : ℕ} (h : k ≤ 4) :
    ∃ low high, Partial.ofLead? (0xF0 + k) = some ⟨k, 3, low, high⟩ ∧
      ∀ m < 64, (k = 0 → 16 ≤ m) → (k = 4 → m < 16) → low ≤ 0x80 + m ∧ 0x80 + m ≤ high := by
  interval_cases k <;> exact ⟨_, _, rfl, by omega⟩

/-! ## One character -/

theorem feed_lead {items : List (Option Char)} {b : UInt8} {p : Partial} (h : 0x80 ≤ b.toNat)
    (hb : Partial.ofLead? b.toNat = some p) : Reader.feed ⟨items, none⟩ b = ⟨items, some p⟩ := by
  simp [Reader.feed, Reader.start, hb, Nat.not_lt.2 h]

theorem feed_tail (items : List (Option Char)) (bits missing : ℕ) {low high k : ℕ}
    (hlow : low ≤ 0x80 + k % 64) (hhigh : 0x80 + k % 64 ≤ high) :
    Reader.feed ⟨items, some ⟨bits, missing, low, high⟩⟩ (tailOctet k) =
      if missing = 1 then ⟨some (Char.ofNat (bits * 64 + k % 64)) :: items, none⟩
      else ⟨items, some ⟨bits * 64 + k % 64, missing - 1, 0x80, 0xBF⟩⟩ := by
  simp [Reader.feed, toNat_tailOctet, hlow, hhigh]

/-- A further octet that may be any. -/
theorem feed_tail_any (items : List (Option Char)) (bits missing k : ℕ) :
    Reader.feed ⟨items, some ⟨bits, missing, 0x80, 0xBF⟩⟩ (tailOctet k) =
      if missing = 1 then ⟨some (Char.ofNat (bits * 64 + k % 64)) :: items, none⟩
      else ⟨items, some ⟨bits * 64 + k % 64, missing - 1, 0x80, 0xBF⟩⟩ :=
  feed_tail items bits missing (by omega) (by omega)

/-- The octets of a character are read as this character. -/
theorem feedAll_encodeChar (items : List (Option Char)) (c : Char) :
    Reader.feedAll ⟨items, none⟩ (encodeChar c) = ⟨some c :: items, none⟩ := by
  have hvalid : c.toNat < 0xD800 ∨ 0xDFFF < c.toNat ∧ c.toNat < 0x110000 := c.valid
  have hchar : ∀ n, n = c.toNat → Char.ofNat n = c := by
    intro n heq
    subst heq
    exact Char.ofNat_toNat c
  rw [encodeChar]
  generalize hn : c.toNat = n at hvalid hchar
  simp only
  split
  · next h₁ =>
    simp only [Reader.feedAll, List.foldl_cons, List.foldl_nil, Reader.feed, Reader.start]
    rw [toNat_ofNat_of_lt (by omega), if_pos h₁, hchar n rfl]
  split
  · next h₁ h₂ =>
    have hlead := toNat_ofNat_of_lt (k := 0xC0 + n / 64) (by omega)
    change Reader.feedAll _ [UInt8.ofNat (0xC0 + n / 64), tailOctet n] = _
    simp only [Reader.feedAll, List.foldl_cons, List.foldl_nil]
    rw [feed_lead (by omega) (hlead ▸ ofLead?_two (by omega) (by omega)), feed_tail_any, if_pos rfl,
      hchar _ (by omega)]
  split
  · next h₁ h₂ h₃ =>
    have hlead := toNat_ofNat_of_lt (k := 0xE0 + n / 4096) (by omega)
    obtain ⟨low, high, hofLead, hrange⟩ := ofLead?_three (k := n / 4096) (by omega)
    obtain ⟨hlow, hhigh⟩ := hrange (n / 64 % 64) (by omega) (by omega) (by omega)
    change Reader.feedAll _ [UInt8.ofNat (0xE0 + n / 4096), tailOctet (n / 64), tailOctet n] = _
    simp only [Reader.feedAll, List.foldl_cons, List.foldl_nil]
    rw [feed_lead (by omega) (hlead ▸ hofLead), feed_tail _ _ _ hlow hhigh, if_neg (by decide),
      feed_tail_any, if_pos (by decide), hchar _ (by omega)]
  · next h₁ h₂ h₃ =>
    have hlead := toNat_ofNat_of_lt (k := 0xF0 + n / 262144) (by omega)
    obtain ⟨low, high, hofLead, hrange⟩ := ofLead?_four (k := n / 262144) (by omega)
    obtain ⟨hlow, hhigh⟩ := hrange (n / 4096 % 64) (by omega) (by omega) (by omega)
    change Reader.feedAll _
      [UInt8.ofNat (0xF0 + n / 262144), tailOctet (n / 4096), tailOctet (n / 64), tailOctet n] = _
    simp only [Reader.feedAll, List.foldl_cons, List.foldl_nil]
    rw [feed_lead (by omega) (hlead ▸ hofLead), feed_tail _ _ _ hlow hhigh, if_neg (by decide),
      feed_tail_any, if_neg (by decide), feed_tail_any, if_pos (by decide), hchar _ (by omega)]

/-! ## Texts -/

/-- The octets of a text are read as its characters. -/
theorem feedAll_encode (items : List (Option Char)) (t : Text) :
    Reader.feedAll ⟨items, none⟩ (encode t) = ⟨(t.map some).reverse ++ items, none⟩ := by
  induction t generalizing items with
  | nil => rfl
  | cons c t ih =>
      have hcons : encode (c :: t) = encodeChar c ++ encode t := rfl
      rw [hcons, Reader.feedAll_append, feedAll_encodeChar, ih]
      simp

theorem items_encode (t : Text) : items (encode t) = t.map some := by
  simp [items, feedAll_encode, Reader.finish]

/-- Strict decoding undoes the encoding. -/
@[simp] theorem decode?_encode (t : Text) : decode? (encode t) = some t := by
  have hall : (t.map some).all Option.isSome = true := by simp
  simp only [decode?, items_encode, hall, if_true]
  simp [List.filterMap_map]

/-- Lossy decoding undoes the encoding. -/
@[simp] theorem decodeLossy_encode (t : Text) : decodeLossy (encode t) = t := by
  simp [decodeLossy, items_encode]

theorem length_encodeChar (c : Char) : (encodeChar c).length = c.utf8Size := by
  have hval : c.val.toNat = c.toNat := rfl
  simp only [encodeChar, Char.utf8Size, UInt32.le_iff_toNat_le, UInt32.toNat_ofNatLT, hval]
  grind

/-- A text takes as many octets as its characters together. -/
@[simp] theorem length_encode (t : Text) : (encode t).length = t.utf8Length := by
  induction t with
  | nil => rfl
  | cons c t ih =>
      have hcons : encode (c :: t) = encodeChar c ++ encode t := rfl
      rw [hcons, List.length_append, length_encodeChar, ih, Text.utf8Length_cons]

theorem encode_injective : Function.Injective encode := by
  intro s t h
  have := congrArg decode? h
  simpa using this

/-! ## Octets and characters below 128 -/

theorem le_toNat_of_mem_encodeChar {b : UInt8} {c : Char} (hc : 0x80 ≤ c.toNat)
    (h : b ∈ encodeChar c) : 0x80 ≤ b.toNat := by
  have hsize : c.toNat < 0x110000 := by
    have hvalid : c.toNat < 0xD800 ∨ 0xDFFF < c.toNat ∧ c.toNat < 0x110000 := c.valid
    omega
  have hlead : ∀ k < 256, 0x80 ≤ k → 0x80 ≤ (UInt8.ofNat k).toNat := by
    intro k hk hle
    rwa [toNat_ofNat_of_lt hk]
  have htail : ∀ k, 0x80 ≤ (tailOctet k).toNat := by
    intro k
    rw [toNat_tailOctet]
    omega
  rw [encodeChar] at h
  generalize c.toNat = n at *
  simp only [if_neg (Nat.not_lt.2 hc)] at h
  change b ∈ (if n < 0x800 then [UInt8.ofNat (0xC0 + n / 64), tailOctet n]
    else if n < 0x10000 then [UInt8.ofNat (0xE0 + n / 4096), tailOctet (n / 64), tailOctet n]
    else [UInt8.ofNat (0xF0 + n / 262144), tailOctet (n / 4096), tailOctet (n / 64), tailOctet n]) at h
  split_ifs at h <;> simp only [List.mem_cons, List.not_mem_nil, or_false] at h
  · rcases h with rfl | rfl
    · exact hlead _ (by omega) (by omega)
    · exact htail _
  · rcases h with rfl | rfl | rfl
    · exact hlead _ (by omega) (by omega)
    · exact htail _
    · exact htail _
  · rcases h with rfl | rfl | rfl | rfl
    · exact hlead _ (by omega) (by omega)
    · exact htail _
    · exact htail _
    · exact htail _

/-- An octet below 128 in the encoding of a text is a character of the text. -/
theorem exists_mem_of_mem_encode {b : UInt8} (hb : b.toNat < 0x80) {t : Text} (h : b ∈ encode t) :
    ∃ c ∈ t, c.toNat = b.toNat := by
  obtain ⟨c, hc, hbc⟩ := List.mem_flatMap.1 h
  refine ⟨c, hc, ?_⟩
  by_cases hlow : c.toNat < 0x80
  · rw [encodeChar] at hbc
    simp only [if_pos hlow, List.mem_singleton] at hbc
    rw [hbc, toNat_ofNat_of_lt (by omega)]
  · have hge := le_toNat_of_mem_encodeChar (Nat.not_lt.1 hlow) hbc
    omega

theorem toNat_charOfNat {n : ℕ} (h : n.isValidChar) : (Char.ofNat n).toNat = n := by
  rw [Char.ofNat, dif_pos h]
  rfl

/-- With `missing` octets still to come, of which the next one lies between `low` and `high`, whatever is
read is a character, and none below 128. -/
def Partial.IsWide (bits low high : ℕ) : ℕ → Prop
  | 0 => False
  | 1 => ∀ b, low ≤ b → b ≤ high →
      (bits * 64 + (b - 0x80)).isValidChar ∧ 0x80 ≤ bits * 64 + (b - 0x80)
  | missing + 2 => ∀ b, low ≤ b → b ≤ high → IsWide (bits * 64 + (b - 0x80)) 0x80 0xBF (missing + 1)

/-- A first octet of 128 or more never begins a character below 128. -/
theorem isWide_of_ofLead? {k : ℕ} {p : Partial} (h : Partial.ofLead? k = some p) :
    Partial.IsWide p.bits p.low p.high p.missing := by
  rw [Partial.ofLead?] at h
  split_ifs at h <;> simp only [Option.some.injEq] at h <;> subst h <;>
    simp only [Partial.IsWide, Nat.isValidChar] <;> omega

/-- What holds of a reader behind the octets it has read: the characters below 128 are among them. -/
structure Reader.IsFaithful (r : Reader) (bytes : Octets) : Prop where
  isWide : ∀ p, r.begun = some p → Partial.IsWide p.bits p.low p.high p.missing
  exists_mem : ∀ c, some c ∈ r.items → c.toNat < 0x80 → ∃ b ∈ bytes, b.toNat = c.toNat

theorem Reader.IsFaithful.start {items : List (Option Char)} {bytes : Octets} {b : UInt8}
    (hb : b ∈ bytes) (h : ∀ c, some c ∈ items → c.toNat < 0x80 → ∃ b ∈ bytes, b.toNat = c.toNat) :
    (Reader.start items b.toNat).IsFaithful bytes := by
  rw [Reader.start]
  split
  · next hlow =>
    refine ⟨by simp, ?_⟩
    intro c hc hlt
    rcases List.mem_cons.1 hc with hc | hc
    · have hvalid : b.toNat.isValidChar := Or.inl (by omega)
      refine ⟨b, hb, ?_⟩
      rw [Option.some.inj hc, toNat_charOfNat hvalid]
    · exact h c hc hlt
  split
  · next p hp =>
    refine ⟨?_, h⟩
    intro q hq
    cases hq
    exact isWide_of_ofLead? hp
  · refine ⟨by simp, ?_⟩
    intro c hc hlt
    exact h c (by simpa using hc) hlt

/-- One more octet. -/
theorem Reader.IsFaithful.feed {r : Reader} {bytes : Octets} (h : r.IsFaithful bytes) {b : UInt8}
    (hb : b ∈ bytes) : (r.feed b).IsFaithful bytes := by
  obtain ⟨items, begun⟩ := r
  cases begun with
  | none => exact .start hb h.exists_mem
  | some p =>
      obtain ⟨bits, missing, low, high⟩ := p
      have hwide : Partial.IsWide bits low high missing := h.isWide _ rfl
      rw [Reader.feed]
      simp only
      split
      · next hrange =>
        match missing, hwide with
        | 1, hwide =>
          have ⟨hvalid, hge⟩ := hwide b.toNat hrange.1 hrange.2
          rw [if_pos rfl]
          refine ⟨by simp, ?_⟩
          intro c hc hlt
          rcases List.mem_cons.1 hc with hc | hc
          · rw [Option.some.inj hc, toNat_charOfNat hvalid] at hlt
            omega
          · exact h.exists_mem c hc hlt
        | missing + 2, hwide =>
          rw [if_neg (by omega)]
          refine ⟨?_, h.exists_mem⟩
          intro q hq
          rw [← Option.some.inj hq]
          exact hwide b.toNat hrange.1 hrange.2
      · refine .start hb ?_
        intro c hc hlt
        exact h.exists_mem c (by simpa using hc) hlt

theorem Reader.IsFaithful.feedAll {r : Reader} {bytes : Octets} (h : r.IsFaithful bytes)
    {more : Octets} (hmore : ∀ b ∈ more, b ∈ bytes) : (r.feedAll more).IsFaithful bytes := by
  induction more generalizing r with
  | nil => exact h
  | cons b more ih =>
      exact ih (h.feed (hmore b List.mem_cons_self)) fun a ha => hmore a (List.mem_cons_of_mem b ha)

/-- Lossy decoding brings in no character below 128: each one it gives stands for an octet of its number. -/
theorem exists_mem_of_mem_decodeLossy {bytes : Octets} {c : Char} (hc : c.toNat < 0x80)
    (h : c ∈ decodeLossy bytes) : ∃ b ∈ bytes, b.toNat = c.toNat := by
  have hstart : Reader.IsFaithful ⟨[], none⟩ bytes := ⟨by simp, by simp⟩
  have hall := hstart.feedAll fun _ h => h
  obtain ⟨item, hitem, rfl⟩ := List.mem_map.1 h
  cases item with
  | none => exact absurd hc (by decide)
  | some c =>
      refine hall.exists_mem c ?_ hc
      revert hitem
      unfold items Reader.finish
      split <;> simp

/-! ## Octets that are a text -/

theorem ofNat_eq_of_toNat {k : ℕ} {b : UInt8} (h : k = b.toNat) : UInt8.ofNat k = b := by
  rw [h, UInt8.ofNat_toNat]

section Number

variable {n : ℕ} {a b c d : UInt8} (hn : n.isValidChar)

include hn

theorem encodeChar_ofNat_one (hhigh : n < 0x80) (ha : n = a.toNat) : encodeChar (Char.ofNat n) = [a] := by
  rw [encodeChar, toNat_charOfNat hn, if_pos hhigh, ofNat_eq_of_toNat ha]

theorem encodeChar_ofNat_two (hlow : 0x80 ≤ n) (hhigh : n < 0x800) (ha : 0xC0 + n / 64 = a.toNat)
    (hb : 0x80 + n % 64 = b.toNat) : encodeChar (Char.ofNat n) = [a, b] := by
  rw [encodeChar, toNat_charOfNat hn, if_neg (by omega), if_pos hhigh]
  simp only [ofNat_eq_of_toNat ha, ofNat_eq_of_toNat hb]

theorem encodeChar_ofNat_three (hlow : 0x800 ≤ n) (hhigh : n < 0x10000) (ha : 0xE0 + n / 4096 = a.toNat)
    (hb : 0x80 + n / 64 % 64 = b.toNat) (hc : 0x80 + n % 64 = c.toNat) : encodeChar (Char.ofNat n) = [a, b, c] := by
  rw [encodeChar, toNat_charOfNat hn, if_neg (by omega), if_neg (by omega), if_pos hhigh]
  simp only [ofNat_eq_of_toNat ha, ofNat_eq_of_toNat hb, ofNat_eq_of_toNat hc]

theorem encodeChar_ofNat_four (hlow : 0x10000 ≤ n) (ha : 0xF0 + n / 262144 = a.toNat)
    (hb : 0x80 + n / 4096 % 64 = b.toNat) (hc : 0x80 + n / 64 % 64 = c.toNat) (hd : 0x80 + n % 64 = d.toNat) :
    encodeChar (Char.ofNat n) = [a, b, c, d] := by
  rw [encodeChar, toNat_charOfNat hn, if_neg (by omega), if_neg (by omega), if_neg (by omega)]
  simp only [ofNat_eq_of_toNat ha, ofNat_eq_of_toNat hb, ofNat_eq_of_toNat hc, ofNat_eq_of_toNat hd]

end Number

/-- With `missing` octets still to come, of which the next one lies between `low` and `high`, whatever is read now
makes `bytes` the octets of a character. -/
def Partial.Spells (bytes : Octets) (bits low high : ℕ) : ℕ → Prop
  | 0 => False
  | 1 => ∀ b : UInt8, low ≤ b.toNat → b.toNat ≤ high →
      encodeChar (Char.ofNat (bits * 64 + (b.toNat - 0x80))) = bytes ++ [b]
  | missing + 2 => ∀ b : UInt8, low ≤ b.toNat → b.toNat ≤ high →
      Spells (bytes ++ [b]) (bits * 64 + (b.toNat - 0x80)) 0x80 0xBF (missing + 1)

/-- A first octet of 128 or more spells the character that it begins. -/
theorem spells_of_ofLead? {a : UInt8} {p : Partial} (h : Partial.ofLead? a.toNat = some p) :
    Partial.Spells [a] p.bits p.low p.high p.missing := by
  rw [Partial.ofLead?] at h
  split_ifs at h <;> simp only [Option.some.injEq] at h <;> subst h <;> simp only [Partial.Spells] <;> intros
  · apply encodeChar_ofNat_two <;> omega
  · apply encodeChar_ofNat_three <;> omega
  · apply encodeChar_ofNat_three <;> omega
  · apply encodeChar_ofNat_three <;> omega
  · apply encodeChar_ofNat_four <;> omega
  · apply encodeChar_ofNat_four <;> omega
  · apply encodeChar_ofNat_four <;> omega

/-- What holds of a reader behind the octets it has read: it has refused them, or they are the octets of the characters
it has read, and of the one that has begun. -/
inductive Reader.IsExact : Reader → Octets → Prop where
  | refused {r : Reader} {bytes : Octets} (h : none ∈ r.items) : IsExact r bytes
  | between (text : Text) : IsExact ⟨(text.map some).reverse, none⟩ (encode text)
  | within (text : Text) {begun : Octets} {p : Partial} (h : Partial.Spells begun p.bits p.low p.high p.missing) :
      IsExact ⟨(text.map some).reverse, some p⟩ (encode text ++ begun)

/-- A character that is complete. -/
theorem Reader.IsExact.complete (text : Text) {c : Char} {bytes : Octets} (h : encodeChar c = bytes) :
    IsExact ⟨some c :: (text.map some).reverse, none⟩ (encode text ++ bytes) := by
  have hmore := IsExact.between (text ++ [c])
  simpa [encode, h] using hmore

theorem mem_items_start {items : List (Option Char)} (h : none ∈ items) (n : ℕ) :
    none ∈ (Reader.start items n).items := by
  rw [Reader.start]
  split
  · simpa using h
  split <;> simp [h]

theorem mem_items_feed {r : Reader} (h : none ∈ r.items) (b : UInt8) : none ∈ (r.feed b).items := by
  rw [Reader.feed]
  split
  · exact mem_items_start h _
  split
  · dsimp only
    split <;> simp [h]
  · exact mem_items_start (by simp) _

/-- One more octet. -/
theorem Reader.IsExact.feed {r : Reader} {bytes : Octets} (h : r.IsExact bytes) (b : UInt8) :
    (r.feed b).IsExact (bytes ++ [b]) := by
  cases h with
  | refused h => exact .refused (mem_items_feed h b)
  | between text =>
      simp only [Reader.feed, Reader.start]
      split
      · next hlow => exact .complete text (encodeChar_ofNat_one (Or.inl (by omega)) hlow rfl)
      split
      · next p hp => exact .within text (spells_of_ofLead? hp)
      · exact .refused (by simp)
  | @within text begun p h =>
      obtain ⟨bits, missing, low, high⟩ := p
      simp only [Reader.feed]
      split
      · next hrange =>
        rw [List.append_assoc]
        match missing, h with
        | 1, h =>
          rw [if_pos rfl]
          exact .complete text (h b hrange.1 hrange.2)
        | missing + 2, h =>
          rw [if_neg (by omega)]
          exact .within text (h b hrange.1 hrange.2)
      · exact .refused (mem_items_start (by simp) _)

theorem Reader.IsExact.feedAll {r : Reader} {bytes : Octets} (h : r.IsExact bytes) (more : Octets) :
    (r.feedAll more).IsExact (bytes ++ more) := by
  induction more generalizing r bytes with
  | nil => rwa [List.append_nil]
  | cons b more ih =>
      have hmore := ih (h.feed b)
      rwa [List.append_assoc] at hmore

/-- Strict decoding takes the octets of a text, and no others. -/
theorem decode?_eq_some_iff {bytes : Octets} {text : Text} : decode? bytes = some text ↔ bytes = encode text := by
  constructor
  · intro h
    have hread := (Reader.IsExact.between []).feedAll bytes
    change (Reader.feedAll ⟨[], none⟩ bytes).IsExact bytes at hread
    simp only [decode?, items, Option.ite_none_right_eq_some, List.all_eq_true, Option.some.injEq] at h
    obtain ⟨hall, rfl⟩ := h
    have hnone : none ∉ (Reader.feedAll ⟨[], none⟩ bytes).finish := fun hmem => by simpa using hall none hmem
    generalize Reader.feedAll ⟨[], none⟩ bytes = r at hread hnone
    rw [Reader.finish] at hnone ⊢
    cases hread with
    | refused hmem =>
        refine absurd ?_ hnone
        split <;> simp [hmem]
    | between text => simp [List.filterMap_map]
    | within text hspells => simp at hnone
  · intro h
    rw [h, decode?_encode]

end DocSplice.Utf8
