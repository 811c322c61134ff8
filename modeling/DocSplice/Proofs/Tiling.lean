import DocSplice.Diff.Unified
import DocSplice.Proofs.Compacted
import DocSplice.Proofs.Stretches

/-!
# Hunks at their places

The hunks of two line lists have their places in them. The kept and the removed lines of a hunk stand in the old list,
the kept and the added ones in the new list, and what lies before, between and behind the hunks is the same in both
(`PatchesAt`). A comparison is cut inside of what is kept, so that a hunk begins and ends with kept lines unless it
begins or ends with the lists (`exists_placed_hunks`).
-/
namespace DocSplice.Diff

variable {old new o n : List Text} {i j i' j' k l : ℕ}

/-! ## The two sides of a hunk -/

/-- The lines of a hunk that stand in the old text. -/
def oldSide (lines : List HunkLine) : List Text := (lines.filter (·.mark ≠ .added)).map (·.text)

/-- The lines of a hunk that stand in the new text. -/
def newSide (lines : List HunkLine) : List Text := (lines.filter (·.mark ≠ .removed)).map (·.text)

theorem oldSide_append (a b : List HunkLine) : oldSide (a ++ b) = oldSide a ++ oldSide b := by
  simp [oldSide]

theorem newSide_append (a b : List HunkLine) : newSide (a ++ b) = newSide a ++ newSide b := by
  simp [newSide]

/-- Lines that all carry one mark, in the old text. -/
theorem oldSide_map (mark : Mark) (lines : List Text) :
    oldSide (lines.map (⟨mark, ·⟩)) = if mark = .added then [] else lines := by
  induction lines with
  | nil => simp [oldSide]
  | cons x lines ih => cases mark <;> simp_all [oldSide]

theorem newSide_map (mark : Mark) (lines : List Text) :
    newSide (lines.map (⟨mark, ·⟩)) = if mark = .removed then [] else lines := by
  induction lines with
  | nil => simp [newSide]
  | cons x lines ih => cases mark <;> simp_all [newSide]

variable {s : Stretch} {h pending rest stretches : List Stretch}

/-- A stretch shows what it takes from the old text. -/
theorem oldSide_stretchBody (fits : s.Fits old new i j) : oldSide (s.body old new) = stretch old i s.oldLen := by
  cases s with
  | keep k l len =>
      obtain ⟨-, rfl, -⟩ := Stretch.fits_keep_iff.1 fits
      simp [Stretch.body, oldSide_map, Stretch.oldLen]
  | change k len l len' =>
      simp only [Stretch.body, oldSide_append, oldSide_map, reduceCtorEq, if_false, if_true, List.append_nil]
      by_cases hlen : len = 0
      · simp [hlen, Stretch.oldLen]
      · rw [← fits.oldStart hlen]
        rfl

theorem newSide_stretchBody (fits : s.Fits old new i j) : newSide (s.body old new) = stretch new j s.newLen := by
  cases s with
  | keep k l len =>
      obtain ⟨-, rfl, -, -, -, hsame⟩ := Stretch.fits_keep_iff.1 fits
      simp [Stretch.body, newSide_map, Stretch.newLen, hsame]
  | change k len l len' =>
      simp only [Stretch.body, newSide_append, newSide_map, reduceCtorEq, if_false, if_true, List.nil_append]
      by_cases hlen : len' = 0
      · simp [hlen, Stretch.newLen]
      · rw [← fits.newStart hlen]
        rfl

theorem stretch_append_drop (old : List Text) (i len : ℕ) : stretch old i len ++ old.drop (i + len) = old.drop i := by
  rw [stretch, ← List.drop_drop, List.take_append_drop]

/-- A hunk shows what it leads over. -/
theorem sides_append_drop (hcovers : Covers old new i j h i' j') :
    oldSide (Hunk.body old new h) ++ old.drop i' = old.drop i ∧
      newSide (Hunk.body old new h) ++ new.drop j' = new.drop j := by
  induction hcovers with
  | nil => simp [Hunk.body, oldSide, newSide]
  | cons fits _ ih =>
      rw [Hunk.body, List.flatMap_cons, oldSide_append, newSide_append, oldSide_stretchBody fits,
        newSide_stretchBody fits, List.append_assoc, List.append_assoc]
      rw [Hunk.body] at ih
      rw [ih.1, ih.2, stretch_append_drop, stretch_append_drop]
      exact ⟨rfl, rfl⟩

/-- A hunk shows as many lines of either side as it leads over. -/
theorem length_sides (hcovers : Covers old new i j h i' j') :
    i' = i + (oldSide (Hunk.body old new h)).length ∧ j' = j + (newSide (Hunk.body old new h)).length := by
  induction hcovers with
  | nil => simp [Hunk.body, oldSide, newSide]
  | cons fits _ ih =>
      rw [Hunk.body] at ih
      rw [Hunk.body, List.flatMap_cons, oldSide_append, newSide_append, oldSide_stretchBody fits,
        newSide_stretchBody fits, List.length_append, List.length_append, length_stretch fits.old_le,
        length_stretch fits.new_le]
      omega

/-- A hunk that leads over something shows lines. -/
theorem body_ne_nil (hcovers : Covers old new i j h i' j') (hne : h ≠ []) : Hunk.body old new h ≠ [] := by
  obtain ⟨s, rest, rfl⟩ := List.exists_cons_of_ne_nil hne
  obtain ⟨fits, -⟩ := passage_cons_iff.1 hcovers
  intro hbody
  have hs : s.body old new = [] := (List.append_eq_nil_iff.1 hbody).1
  have hold := congrArg List.length (oldSide_stretchBody fits)
  have hnew := congrArg List.length (newSide_stretchBody fits)
  rw [hs, length_stretch fits.old_le] at hold
  rw [hs, length_stretch fits.new_le] at hnew
  have hpos := fits.pos
  simp only [oldSide, newSide, List.filter_nil, List.map_nil, List.length_nil] at hold hnew
  omega

/-! ## Places -/

/-- A hunk, and how many lines stand before it on either side. -/
structure Placed (β : Type) where
  oldBefore : ℕ
  newBefore : ℕ
  hunk : β

/-- The lines of a placed hunk stand at the same place. -/
def Placed.lines (old new : List Text) (p : Placed Hunk) : Placed (List HunkLine) :=
  ⟨p.oldBefore, p.newBefore, p.hunk.body old new⟩

/-- The hunks turn the first list into the second and stand where they are placed, in texts where `i` and `j` lines
stand before the two lists: both lists are the same up to the first hunk, between one hunk and the next, and behind the
last one, and a hunk has its old side in the first list and its new side in the second. -/
inductive PatchesAt : ℕ → ℕ → List (Placed (List HunkLine)) → List Text → List Text → Prop where
  | rest (i j : ℕ) (u : List Text) : PatchesAt i j [] u u
  | hunk {placed : List (Placed (List HunkLine))} {o n : List Text} (i j : ℕ) (u : List Text) (lines : List HunkLine)
      (behind : PatchesAt (i + u.length + (oldSide lines).length) (j + u.length + (newSide lines).length) placed o n) :
      PatchesAt i j (⟨i + u.length, j + u.length, lines⟩ :: placed) (u ++ oldSide lines ++ o) (u ++ newSide lines ++ n)

variable {placed : List (Placed (List HunkLine))}

namespace PatchesAt

theorem of_eq (i j : ℕ) (h : o = n) : PatchesAt i j [] o n := h ▸ .rest i j o

/-- Nothing changes for what stands in front of both lists. -/
theorem append_left (v : List Text) (h : PatchesAt (i + v.length) (j + v.length) placed o n) :
    PatchesAt i j placed (v ++ o) (v ++ n) := by
  cases h with
  | rest _ _ u => exact .rest ..
  | hunk _ _ u lines behind =>
      have hplaces : ∀ k : ℕ, k + v.length + u.length = k + (v ++ u).length := by simp [Nat.add_assoc]
      rw [hplaces, hplaces] at behind ⊢
      simpa only [List.append_assoc] using PatchesAt.hunk i j (v ++ u) lines behind

/-- What is the same on both sides can be passed over. -/
theorem skip {len : ℕ} (hold : i + len ≤ old.length) (hsame : stretch old i len = stretch new j len)
    (h : PatchesAt (i + len) (j + len) placed (old.drop (i + len)) (new.drop (j + len))) :
    PatchesAt i j placed (old.drop i) (new.drop j) := by
  rw [← stretch_append_drop old i len, ← stretch_append_drop new j len, ← hsame]
  refine append_left _ ?_
  rwa [length_stretch hold]

/-- A hunk is a patch for what it leads over. -/
theorem cover (hcovers : Covers old new i j h i' j')
    (behind : PatchesAt i' j' placed (old.drop i') (new.drop j')) :
    PatchesAt i j (⟨i, j, Hunk.body old new h⟩ :: placed) (old.drop i) (new.drop j) := by
  obtain ⟨hold, hnew⟩ := sides_append_drop hcovers
  obtain ⟨hi', hj'⟩ := length_sides hcovers
  rw [← hold, ← hnew]
  rw [hi', hj'] at behind ⊢
  exact .hunk i j [] _ behind

end PatchesAt

/-! ## Cutting a comparison into hunks -/

namespace Hunk

/-- The stretches begin with a kept one. -/
def BeginsKept (h : Hunk) : Prop := ∃ k l len, h.head? = some (.keep k l len)

/-- The stretches end with a kept one. -/
def EndsKept (h : Hunk) : Prop := ∃ k l len, h.getLast? = some (.keep k l len)

section Kept

variable {a b c : List Stretch} {k' l' len len' : ℕ}

theorem beginsKept_append_keep : BeginsKept (a ++ .keep k l len :: b) ↔ BeginsKept (a ++ .keep k' l' len' :: c) := by
  cases a <;> simp [BeginsKept]

theorem endsKept_append_keep : EndsKept (a ++ .keep k l len :: c) ↔ EndsKept (b ++ .keep k' l' len' :: c) := by
  cases c <;> simp [EndsKept, List.getLast?_cons]

end Kept

theorem cut.go_eq (done : List Hunk) (pending rest : List Stretch) :
    go done pending rest = done.reverse ++ go [] pending rest := by
  induction rest generalizing done pending with
  | nil =>
      simp only [go]
      split <;> simp
  | cons s rest ih =>
      cases s with
      | keep k l len =>
          simp only [go]
          split
          · rw [ih, ih [_]]
            simp
          · exact ih done _
      | change k len l len' => exact ih done _

/-- Stretches that end in a kept one, cut inside of it. -/
theorem covers_cut {len : ℕ} (hlen : radius * 2 < len)
    (hcovers : Covers old new i j (pending.reverse ++ .keep k l len :: rest) i' j') :
    ∃ skipped, Covers old new i j (.keep k l radius :: pending).reverse (k + radius) (l + radius) ∧
      k + radius + skipped ≤ old.length ∧
      stretch old (k + radius) skipped = stretch new (l + radius) skipped ∧
      k + radius + skipped = k + (len - radius) ∧ l + radius + skipped = l + (len - radius) ∧
      Covers old new (k + (len - radius)) (l + (len - radius))
        (.keep (k + (len - radius)) (l + (len - radius)) radius :: rest) i' j' := by
  obtain ⟨a, b, hpending, hcovers⟩ := passage_append_iff.1 hcovers
  obtain ⟨fits, hrest⟩ := passage_cons_iff.1 hcovers
  obtain ⟨-, rfl, rfl, hold, hnew, hsame⟩ := Stretch.fits_keep_iff.1 fits
  obtain ⟨skipped, rfl⟩ : ∃ skipped, len = radius + (skipped + radius) := ⟨len - 2 * radius, by omega⟩
  have hsub : radius + (skipped + radius) - radius = radius + skipped := by omega
  obtain ⟨hfirst, hlast⟩ := stretch_eq_of_add hold hnew hsame
  obtain ⟨hskipped, hlast⟩ := stretch_eq_of_add (by omega) (by omega) hlast
  have hradius : 0 < radius := by decide
  rw [hsub]
  refine ⟨skipped, ?_, by omega, hskipped, by omega, by omega, ?_⟩
  · rw [List.reverse_cons]
    refine passage_append_iff.2 ⟨_, _, hpending, .cons (Stretch.fits_keep_iff.2 ?_) (.nil _ _)⟩
    exact ⟨hradius, rfl, rfl, by omega, by omega, hfirst⟩
  · rw [← Nat.add_assoc, ← Nat.add_assoc]
    refine .cons (Stretch.fits_keep_iff.2 ⟨hradius, rfl, rfl, by omega, by omega, hlast⟩) ?_
    simpa [Stretch.oldLen, Stretch.newLen, Nat.add_assoc] using hrest

/-- A placed hunk leads on from its place, as part of stretches that lead from the point `i`, `j` to the point `i'`,
`j'`. It begins with a kept stretch if it does not begin where they do or if they begin with one, and so for its
end. -/
structure PartOf (old new : List Text) (i j : ℕ) (stretches : List Stretch) (i' j' : ℕ) (p : Placed Hunk) : Prop where
  ne_nil : p.hunk ≠ []
  begins : BeginsKept p.hunk ∨ p.oldBefore = i ∧ p.newBefore = j ∧ ¬BeginsKept stretches
  ends : ∃ k l, Covers old new p.oldBefore p.newBefore p.hunk k l ∧
    (EndsKept p.hunk ∨ k = i' ∧ l = j' ∧ ¬EndsKept stretches)

/-- The hunks that are still to come have their places in what the pending and the remaining stretches lead over,
and are a patch for it. -/
theorem exists_placed_go (pending : List Stretch) (hcovers : Covers old new i j (pending.reverse ++ rest) i' j')
    (hend : old.drop i' = new.drop j') :
    ∃ placed : List (Placed Hunk), placed.map (·.hunk) = cut.go [] pending rest ∧
      PatchesAt i j (placed.map (Placed.lines old new)) (old.drop i) (new.drop j) ∧
      ∀ p ∈ placed, PartOf old new i j (pending.reverse ++ rest) i' j' p := by
  induction rest generalizing pending i j with
  | nil =>
      rw [List.append_nil] at hcovers ⊢
      simp only [cut.go]
      split
      · obtain ⟨rfl, rfl⟩ := passage_nil_iff.1 hcovers
        exact ⟨[], rfl, .of_eq _ _ hend, by simp⟩
      · obtain ⟨fits, hcovers⟩ := passage_cons_iff.1 hcovers
        obtain ⟨rfl, rfl⟩ := passage_nil_iff.1 hcovers
        exact ⟨[], rfl, .skip fits.old_le (fits.same _ _ _ rfl) (.of_eq _ _ hend), by simp⟩
      · next hnil _ =>
        refine ⟨[⟨i, j, pending.reverse⟩], rfl, .cover hcovers (.of_eq _ _ hend), ?_⟩
        rw [List.forall_mem_singleton]
        exact ⟨mt List.reverse_eq_nil_iff.1 hnil, (em _).imp id fun hnot => ⟨rfl, rfl, hnot⟩,
          i', j', hcovers, (em _).imp id fun hnot => ⟨rfl, rfl, hnot⟩⟩
  | cons s rest ih =>
      have hpush : ∀ s : Stretch, pending.reverse ++ s :: rest = (s :: pending).reverse ++ rest := by simp
      cases s with
      | keep k l len =>
          rw [cut.go]
          split
          · next hlen =>
            obtain ⟨skipped, hhunk, hle, hsame, hold, hnew, hrest⟩ := covers_cut hlen hcovers
            obtain ⟨placed, hplaced, hpatches, hparts⟩ := ih [_] hrest
            rw [cut.go_eq]
            refine ⟨⟨i, j, (.keep k l radius :: pending).reverse⟩ :: placed, by simp [hplaced], ?_, ?_⟩
            · refine .cover hhunk (.skip hle hsame ?_)
              rwa [hold, hnew]
            · rw [List.forall_mem_cons]
              refine ⟨⟨by simp, ?_, _, _, hhunk, .inl ?_⟩, ?_⟩
              · refine (em _).imp id fun hnot => ⟨rfl, rfl, mt ?_ hnot⟩
                rw [List.reverse_cons]
                exact beginsKept_append_keep.1
              · simp [EndsKept]
              · intro p hp
                have hpart := hparts p hp
                obtain ⟨a, b, hcovers, hends⟩ := hpart.ends
                refine ⟨hpart.ne_nil, .inl (hpart.begins.resolve_right ?_), a, b, hcovers, ?_⟩
                · intro hbegins
                  exact hbegins.2.2 (by simp [BeginsKept])
                · refine hends.imp id fun hends => ⟨hends.1, hends.2.1, mt ?_ hends.2.2⟩
                  exact (endsKept_append_keep (b := [])).1
          · rw [hpush] at hcovers ⊢
            exact ih _ hcovers
      | change k len l len' =>
          rw [hpush] at hcovers ⊢
          exact ih _ hcovers

/-- Trimming passes over kept elements only. -/
theorem covers_trimStart (hle : i ≤ old.length) (hcovers : Covers old new i j stretches i' j') :
    ∃ len, i + len ≤ old.length ∧ stretch old i len = stretch new j len ∧
      Covers old new (i + len) (j + len) (trimStart stretches) i' j' ∧ (len = 0 ∨ BeginsKept (trimStart stretches)) := by
  unfold trimStart
  split
  · next k l len rest =>
    obtain ⟨fits, hrest⟩ := passage_cons_iff.1 hcovers
    obtain ⟨hlen, rfl, rfl, hold, hnew, hsame⟩ := Stretch.fits_keep_iff.1 fits
    have hsum : len = len - radius + min len radius := by omega
    have hmin : 0 < min len radius := lt_min hlen (by decide)
    rw [hsum] at hold hnew hsame
    obtain ⟨hskipped, hshown⟩ := stretch_eq_of_add hold hnew hsame
    refine ⟨len - radius, by omega, hskipped, .cons (Stretch.fits_keep_iff.2 ?_) ?_, .inr (by simp [BeginsKept])⟩
    · exact ⟨hmin, rfl, rfl, by omega, by omega, hshown⟩
    · simp only [Stretch.oldLen, Stretch.newLen, Nat.add_assoc] at hrest ⊢
      rwa [← hsum]
  · exact ⟨0, hle, by simp, hcovers, .inl rfl⟩

theorem covers_trimEnd (hcovers : Covers old new i j stretches i' j') (hend : old.drop i' = new.drop j') :
    ∃ k l, Covers old new i j (trimEnd stretches) k l ∧ old.drop k = new.drop l ∧
      (k = i' ∧ l = j' ∨ EndsKept (trimEnd stretches)) := by
  unfold trimEnd
  split
  · next k l len rest hreverse =>
    obtain rfl : stretches = rest.reverse ++ [.keep k l len] := by
      rw [← List.reverse_reverse stretches, hreverse, List.reverse_cons]
    obtain ⟨a, b, hrest, hlast⟩ := passage_append_iff.1 hcovers
    obtain ⟨fits, hlast⟩ := passage_cons_iff.1 hlast
    obtain ⟨hlen, rfl, rfl, hold, hnew, hsame⟩ := Stretch.fits_keep_iff.1 fits
    obtain ⟨rfl, rfl⟩ := passage_nil_iff.1 hlast
    have hsum : len = min len radius + (len - radius) := by omega
    have hmin : 0 < min len radius := lt_min hlen (by decide)
    simp only [Stretch.oldLen, Stretch.newLen] at hend
    rw [hsum] at hold hnew hsame hend
    obtain ⟨hshown, hskipped⟩ := stretch_eq_of_add hold hnew hsame
    refine ⟨k + min len radius, l + min len radius, ?_, ?_, .inr (by simp [EndsKept])⟩
    · rw [List.reverse_cons]
      refine passage_append_iff.2 ⟨_, _, hrest, .cons (Stretch.fits_keep_iff.2 ?_) (.nil _ _)⟩
      exact ⟨hmin, rfl, rfl, by omega, by omega, hshown⟩
    · rw [← stretch_append_drop old _ (len - radius), ← stretch_append_drop new _ (len - radius), hskipped,
        Nat.add_assoc, Nat.add_assoc, hend]
  · exact ⟨i', j', hcovers, hend, .inl ⟨rfl, rfl⟩⟩

/-- Trimming the end leaves the beginning kept. -/
theorem beginsKept_trimEnd (h : BeginsKept stretches) : BeginsKept (trimEnd stretches) := by
  unfold trimEnd
  split
  · next k l len rest hreverse =>
    obtain rfl : stretches = rest.reverse ++ [.keep k l len] := by
      rw [← List.reverse_reverse stretches, hreverse, List.reverse_cons]
    rw [List.reverse_cons]
    exact beginsKept_append_keep.1 h
  · exact h

end Hunk

/-- A placed hunk leads on from its place, and is bordered by kept stretches except where it begins or ends with the
texts. -/
structure Placed.Bordered (old new : List Text) (p : Placed Hunk) : Prop where
  ne_nil : p.hunk ≠ []
  begins : Hunk.BeginsKept p.hunk ∨ p.oldBefore = 0 ∧ p.newBefore = 0
  ends : ∃ k l, Covers old new p.oldBefore p.newBefore p.hunk k l ∧
    (Hunk.EndsKept p.hunk ∨ k = old.length ∧ l = new.length)

/-- **The hunks of two line lists have their places in them and are a patch from the one to the other.** -/
theorem exists_placed_hunks (old new : List Text) :
    ∃ placed : List (Placed Hunk), placed.map (·.hunk) = hunks old new ∧
      PatchesAt 0 0 (placed.map (Placed.lines old new)) old new ∧ ∀ p ∈ placed, p.Bordered old new := by
  have hcovers : Covers old new 0 0 (Stretch.ofSteps (compact old new (script old new))) old.length new.length :=
    covers_ofSteps (leads_compact (leads_script old new))
  obtain ⟨len, hle, hsame, hcovers, hbegins⟩ := Hunk.covers_trimStart (Nat.zero_le _) hcovers
  obtain ⟨k, l, hcovers, hend, hends⟩ := Hunk.covers_trimEnd hcovers (by simp)
  obtain ⟨placed, hplaced, hpatches, hparts⟩ := Hunk.exists_placed_go [] hcovers hend
  refine ⟨placed, hplaced, by simpa only [List.drop_zero] using hpatches.skip hle hsame, ?_⟩
  intro p hp
  have hpart := hparts p hp
  obtain ⟨k', l', hcovers', hends'⟩ := hpart.ends
  refine ⟨hpart.ne_nil, hpart.begins.imp id ?_, k', l', hcovers', hends'.imp id ?_⟩
  · rintro ⟨hold, hnew, hnot⟩
    obtain rfl := hbegins.resolve_right (mt Hunk.beginsKept_trimEnd hnot)
    exact ⟨hold, hnew⟩
  · rintro ⟨rfl, rfl, hnot⟩
    exact hends.resolve_right hnot

end DocSplice.Diff
