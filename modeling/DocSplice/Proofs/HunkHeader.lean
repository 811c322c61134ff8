import DocSplice.Proofs.Patch

/-!
# What the headers of a unified diff say

A header names a place and a number of lines on either side of its hunk (`HeaderSays`), and can be read in one way
only. It is written from the places that the first and the last stretch of the hunk carry. A stretch carries its own
place on a side where it takes lines; where it takes none it may carry any place, and the header is true if and only
if this one is right as well (`tells_iff_noted`). Hunks that begin and end with kept lines have true headers, and all
hunks of a unified diff do so except where they begin or end with the texts (`unified_headers`).
-/
namespace DocSplice.Diff

/-! ## Reading a header -/

/-- The range names the line number `a` and `b` lines; a single line need not be counted. -/
def RangeSays (range : Text) (a b : ℕ) : Prop :=
  range = Text.ofNat a ++ ',' :: Text.ofNat b ∨ b = 1 ∧ range = Text.ofNat a

/-- The header names the line number `a` and `b` lines of the old text, `c` and `d` lines of the new one. -/
def HeaderSays (header : Text) (a b c d : ℕ) : Prop :=
  ∃ x y : Text, header = "@@ -".toList ++ x ++ " +".toList ++ y ++ " @@\n".toList ∧
    RangeSays x a b ∧ RangeSays y c d

section Reading

variable {a b c d a' b' c' d' : ℕ} {range header : Text}

theorem ofNat_injective : Function.Injective Text.ofNat :=
  Function.LeftInverse.injective (g := fun digits => Nat.ofDigitChars 10 digits 0) fun _ =>
    Nat.ofDigitChars_ten_toDigits

theorem notMem_ofNat (sep : Char) (hsep : sep.isDigit = false) (n : ℕ) : sep ∉ Text.ofNat n := by
  intro hmem
  have hdigit := Nat.isDigit_of_mem_toDigits (by decide) (by decide) hmem
  simp [hsep] at hdigit

/-- What stands in front of a separator is determined if the separator does not occur in it. -/
theorem eq_of_append_cons_eq {sep : Char} {s t u v : Text} (hs : sep ∉ s) (ht : sep ∉ t)
    (h : s ++ sep :: u = t ++ sep :: v) : s = t ∧ u = v := by
  have hfront := congrArg (List.takeWhile (· ≠ sep)) h
  rw [List.takeWhile_append_of_pos (by grind), List.takeWhile_append_of_pos (by grind)] at hfront
  obtain rfl : s = t := by simpa using hfront
  exact ⟨rfl, by simpa using h⟩

theorem rangeSays_inj (h : RangeSays range a b) (h' : RangeSays range a' b') : a = a' ∧ b = b' := by
  have hcomma := notMem_ofNat ',' rfl
  rcases h with h | ⟨rfl, h⟩ <;> rcases h' with h' | ⟨rfl, h'⟩
  · obtain ⟨hplace, hsize⟩ := eq_of_append_cons_eq (hcomma a) (hcomma a') (h.symm.trans h')
    exact ⟨ofNat_injective hplace, ofNat_injective hsize⟩
  · exact absurd (h'.symm.trans h ▸ List.mem_append_right _ List.mem_cons_self) (hcomma a')
  · exact absurd (h.symm.trans h' ▸ List.mem_append_right _ List.mem_cons_self) (hcomma a)
  · exact ⟨ofNat_injective (h.symm.trans h'), rfl⟩

theorem RangeSays.notMem {sep : Char} (hdigit : sep.isDigit = false) (hcomma : sep ≠ ',')
    (h : RangeSays range a b) : sep ∉ range := by
  have hsep := notMem_ofNat sep hdigit
  rcases h with rfl | ⟨-, rfl⟩
  · simp [hsep, hcomma]
  · exact hsep a

/-- A header says one thing only. -/
theorem headerSays_inj (h : HeaderSays header a b c d) (h' : HeaderSays header a' b' c' d') :
    (a = a' ∧ b = b') ∧ c = c' ∧ d = d' := by
  obtain ⟨x, y, hheader, hx, hy⟩ := h
  obtain ⟨x', y', hheader', hx', hy'⟩ := h'
  have hranges : x ++ ' ' :: '+' :: (y ++ ' ' :: "@@\n".toList) =
      x' ++ ' ' :: '+' :: (y' ++ ' ' :: "@@\n".toList) := by
    simpa using hheader.symm.trans hheader'
  have hspace {range : Text} {a b : ℕ} (h : RangeSays range a b) : ' ' ∉ range := h.notMem rfl (by decide)
  obtain ⟨rfl, hbehind⟩ := eq_of_append_cons_eq (hspace hx) (hspace hx') hranges
  obtain ⟨rfl, -⟩ := eq_of_append_cons_eq (hspace hy) (hspace hy') (List.cons_eq_cons.1 hbehind).2
  exact ⟨rangeSays_inj hx hx', rangeSays_inj hy hy'⟩

end Reading

/-! ## What the header of a hunk says -/

/-- The line number that stands for `count` lines behind `before` others: that of the first of them, or of the line
just before if there is none. -/
def lineNumber (before count : ℕ) : ℕ := if count = 0 then before else before + 1

theorem rangeSays_renderRange (start stop : ℕ) :
    RangeSays (Hunk.renderRange start stop) (lineNumber start (stop - start)) (stop - start) := by
  unfold Hunk.renderRange lineNumber
  dsimp only
  split_ifs with hone hzero hzero
  · omega
  · exact .inr ⟨hone, rfl⟩
  · rw [hzero]
    exact .inl rfl
  · exact .inl rfl

variable {old new : List Text} {i j k l : ℕ} {h : Hunk} {first last : Stretch} {p : Placed Hunk}

/-- A header says what the first and the last stretch carry. -/
theorem headerSays_header (hfirst : h.head? = some first) (hlast : h.getLast? = some last) :
    HeaderSays h.header (lineNumber first.oldStart (last.oldEnd - first.oldStart)) (last.oldEnd - first.oldStart)
      (lineNumber first.newStart (last.newEnd - first.newStart)) (last.newEnd - first.newStart) := by
  refine ⟨_, _, ?_, rangeSays_renderRange _ _, rangeSays_renderRange _ _⟩
  rw [Hunk.header, hfirst, hlast]

namespace Placed

/-- The number of old lines that the hunk shows. -/
def oldCount (old new : List Text) (p : Placed Hunk) : ℕ := (oldSide (p.hunk.body old new)).length

/-- The number of new lines that the hunk shows. -/
def newCount (old new : List Text) (p : Placed Hunk) : ℕ := (newSide (p.hunk.body old new)).length

/-- The header tells the truth: it counts the old and the new lines that the hunk shows and says where they stand. -/
def Tells (old new : List Text) (p : Placed Hunk) : Prop :=
  HeaderSays p.hunk.header (lineNumber p.oldBefore (p.oldCount old new)) (p.oldCount old new)
    (lineNumber p.newBefore (p.newCount old new)) (p.newCount old new)

/-- The first and the last stretch of the hunk carry the right places also on a side where they take no lines. -/
structure Noted (old new : List Text) (p : Placed Hunk) : Prop where
  oldStart : ∀ s ∈ p.hunk.head?, s.oldLen = 0 → s.oldStart = p.oldBefore
  newStart : ∀ s ∈ p.hunk.head?, s.newLen = 0 → s.newStart = p.newBefore
  oldEnd : ∀ s ∈ p.hunk.getLast?, s.oldLen = 0 → s.oldEnd - p.oldBefore = p.oldCount old new
  newEnd : ∀ s ∈ p.hunk.getLast?, s.newLen = 0 → s.newEnd - p.newBefore = p.newCount old new

theorem noted_iff (hfirst : p.hunk.head? = some first) (hlast : p.hunk.getLast? = some last) :
    p.Noted old new ↔
      ((first.oldLen = 0 → first.oldStart = p.oldBefore) ∧
        (last.oldLen = 0 → last.oldEnd - p.oldBefore = p.oldCount old new)) ∧
      (first.newLen = 0 → first.newStart = p.newBefore) ∧
        (last.newLen = 0 → last.newEnd - p.newBefore = p.newCount old new) := by
  constructor
  · intro h
    exact ⟨⟨h.oldStart _ hfirst, h.oldEnd _ hlast⟩, h.newStart _ hfirst, h.newEnd _ hlast⟩
  · intro h
    refine ⟨?_, ?_, ?_, ?_⟩
    all_goals
      intro s hs
      simp only [hfirst, hlast, Option.mem_some_iff] at hs
      subst hs
    exacts [h.1.1, h.2.1, h.1.2, h.2.2]

end Placed

/-- One side of a header: a stretch that takes lines there carries its own place. -/
theorem side_iff {start stop before count len len' : ℕ} (hstart : len ≠ 0 → start = before)
    (hstop : len' ≠ 0 → stop = before + count) :
    (lineNumber start (stop - start) = lineNumber before count ∧ stop - start = count) ↔
      (len = 0 → start = before) ∧ (len' = 0 → stop - before = count) := by
  unfold lineNumber
  split_ifs <;> omega

/-- The last of the stretches ends where they lead to, on a side where it takes elements. -/
theorem end_eq (hcovers : Covers old new i j h k l) (hlast : h.getLast? = some last) :
    (last.oldLen ≠ 0 → last.oldEnd = k) ∧ (last.newLen ≠ 0 → last.newEnd = l) := by
  obtain ⟨front, rfl⟩ := List.getLast?_eq_some_iff.1 hlast
  obtain ⟨a, b, -, hcovers⟩ := passage_append_iff.1 hcovers
  obtain ⟨fits, hcovers⟩ := passage_cons_iff.1 hcovers
  obtain ⟨rfl, rfl⟩ := passage_nil_iff.1 hcovers
  have hold := fits.oldStart
  have hnew := fits.newStart
  cases last <;>
    · simp only [Stretch.oldLen, Stretch.newLen, Stretch.oldStart, Stretch.newStart, Stretch.oldEnd,
        Stretch.newEnd] at hold hnew ⊢
      omega

/-- **The header of a placed hunk is true if and only if its first and last stretch carry the right places.** -/
theorem tells_iff_noted (hne : p.hunk ≠ []) (hcovers : Covers old new p.oldBefore p.newBefore p.hunk k l) :
    p.Tells old new ↔ p.Noted old new := by
  obtain ⟨first, rest, hhunk⟩ := List.exists_cons_of_ne_nil hne
  have hfirst : p.hunk.head? = some first := by rw [hhunk, List.head?_cons]
  obtain ⟨last, hlast⟩ : ∃ last, p.hunk.getLast? = some last := Option.isSome_iff_exists.1 (by simpa using hne)
  obtain ⟨hstart, -⟩ := passage_cons_iff.1 (hhunk ▸ hcovers)
  obtain ⟨hold, hnew⟩ := end_eq hcovers hlast
  have hsides : k = p.oldBefore + p.oldCount old new ∧ l = p.newBefore + p.newCount old new := length_sides hcovers
  obtain ⟨hk, hl⟩ := hsides
  have hsays := headerSays_header hfirst hlast
  rw [Placed.noted_iff hfirst hlast, ← side_iff hstart.oldStart fun hlen => (hold hlen).trans hk,
    ← side_iff hstart.newStart fun hlen => (hnew hlen).trans hl]
  constructor
  · intro htells
    exact headerSays_inj hsays htells
  · rintro ⟨⟨ha, hb⟩, hc, hd⟩
    rw [hb] at ha
    rw [hd] at hc
    rw [hb, hd] at hsays
    rwa [ha, hc] at hsays

/-- Kept stretches carry their places on both sides. -/
theorem noted_of_kept (hcovers : Covers old new p.oldBefore p.newBefore p.hunk k l)
    (hbegins : Hunk.BeginsKept p.hunk) (hends : Hunk.EndsKept p.hunk) : p.Noted old new := by
  obtain ⟨a, b, len, hfirst⟩ := hbegins
  obtain ⟨a', b', len', hlast⟩ := hends
  obtain ⟨_, _, fits⟩ := hcovers.exists_fits (List.mem_of_mem_head? hfirst)
  obtain ⟨_, _, fits'⟩ := hcovers.exists_fits (List.mem_of_mem_getLast? hlast)
  have hlen := (Stretch.fits_keep_iff.1 fits).1
  have hlen' := (Stretch.fits_keep_iff.1 fits').1
  rw [Placed.noted_iff hfirst hlast]
  simp only [Stretch.oldLen, Stretch.newLen]
  refine ⟨⟨?_, ?_⟩, ?_, ?_⟩ <;> omega

/-- **The headers of a unified diff are true exactly as their hunks' first and last stretches carry the right
places.** The hunks have their places in the lines of the two texts and are a patch from the ones to the others. They
begin and end with kept lines, and then have true headers, except where they begin or end with the texts. -/
theorem unified_headers (old new path : Text) (hne : old ≠ new) :
    let oldLines := old.terminatedLines
    let newLines := new.terminatedLines
    ∃ placed : List (Placed Hunk),
      placed.map (·.hunk) = hunks oldLines newLines ∧
        unified old new path = fileHeader path ++ placed.flatMap (fun p =>
          p.hunk.header ++ (p.hunk.body oldLines newLines).flatMap HunkLine.render) ∧
        PatchesAt 0 0 (placed.map (Placed.lines oldLines newLines)) oldLines newLines ∧
        ∀ p ∈ placed,
          (p.Tells oldLines newLines ↔ p.Noted oldLines newLines) ∧
            (p.hunk.BeginsKept → p.hunk.EndsKept → p.Tells oldLines newLines) ∧
            (p.hunk.BeginsKept ∨ p.oldBefore = 0 ∧ p.newBefore = 0) ∧
            (p.hunk.EndsKept ∨ p.oldBefore + p.oldCount oldLines newLines = oldLines.length ∧
              p.newBefore + p.newCount oldLines newLines = newLines.length) := by
  intro oldLines newLines
  obtain ⟨placed, hplaced, hpatches, hbordered⟩ := exists_placed_hunks oldLines newLines
  refine ⟨placed, hplaced, ?_, hpatches, ?_⟩
  · rw [(unified_eq path hne).1, ← hplaced, List.flatMap_map]
  · intro p hp
    obtain ⟨hhunk, hbegins, k, l, hcovers, hends⟩ := hbordered p hp
    have hiff := tells_iff_noted hhunk hcovers
    refine ⟨hiff, ?_, hbegins, hends.imp id ?_⟩
    · intro hfirst hlast
      exact hiff.2 (noted_of_kept hcovers hfirst hlast)
    · rintro ⟨rfl, rfl⟩
      obtain ⟨hold, hnew⟩ := length_sides hcovers
      exact ⟨hold.symm, hnew.symm⟩

/-- A line that is replaced between two others, which are kept. -/
theorem unified_headers_between_kept :
    unified "a\nb\nc\n".toList "a\nx\nc\n".toList "f".toList =
        "--- a/f\n+++ b/f\n@@ -1,3 +1,3 @@\n a\n-b\n+x\n c\n".toList ∧
      ∃ p : Placed Hunk, p.hunk = [.keep 0 0 1, .change 1 1 1 1, .keep 2 2 1] ∧
        p.Tells ["a\n".toList, "b\n".toList, "c\n".toList] ["a\n".toList, "x\n".toList, "c\n".toList] := by
  obtain ⟨placed, hplaced, -, -, hheaders⟩ :=
    unified_headers "a\nb\nc\n".toList "a\nx\nc\n".toList "f".toList (by decide)
  have hold : Text.terminatedLines "a\nb\nc\n".toList = ["a\n".toList, "b\n".toList, "c\n".toList] := by
    decide +kernel
  have hnew : Text.terminatedLines "a\nx\nc\n".toList = ["a\n".toList, "x\n".toList, "c\n".toList] := by
    decide +kernel
  have hfound : hunks (Text.terminatedLines "a\nb\nc\n".toList) (Text.terminatedLines "a\nx\nc\n".toList) =
      [[.keep 0 0 1, .change 1 1 1 1, .keep 2 2 1]] := by decide +kernel
  rw [hfound] at hplaced
  rw [hold, hnew] at hheaders
  obtain ⟨p, rfl, hp⟩ := List.map_eq_singleton_iff.1 hplaced
  refine ⟨by decide +kernel, p, hp, (hheaders p (List.mem_singleton_self p)).2.1 ?_ ?_⟩
  · exact ⟨0, 0, 1, by rw [hp]; rfl⟩
  · exact ⟨2, 2, 1, by rw [hp]; rfl⟩

/-- Compaction moves the insertion of `b` down past the deletion of `a` and the line that is kept. The two changes
keep the places they were found at when they pass each other, and the header misses a line on either side. -/
theorem unified_header_moved :
    unified "a\nb\n".toList "b\nb\n".toList "f".toList =
        "--- a/f\n+++ b/f\n@@ -1 +2 @@\n-a\n b\n+b\n".toList ∧
      ∀ a c : ℕ, ¬HeaderSays "@@ -1 +2 @@\n".toList a 2 c 2 := by
  have hsays : HeaderSays "@@ -1 +2 @@\n".toList 1 1 2 1 :=
    ⟨"1".toList, "2".toList, by decide, .inr ⟨rfl, by decide⟩, .inr ⟨rfl, by decide⟩⟩
  refine ⟨by decide +kernel, ?_⟩
  intro a c h
  exact absurd (headerSays_inj hsays h).1.2 (by decide)

end DocSplice.Diff
