import DocSplice.Diff.Compaction
import DocSplice.Proofs.Passage

/-!
# Compaction keeps a script

Compaction rewrites a script in small places: a change slides past a kept stretch, two changes of one kind become
one, two of different kinds change places, and a kept stretch is split or joined. Each of these leads to the same
point as before (`leads_slide_up`, `leads_slide_down`, `leads_join`, `leads_swap`), so that a step can be moved up and
down (`Focus.leads_up`, `Focus.leads_down`) and a compacted script is a script again (`leads_compact`).
-/
namespace DocSplice.Diff

variable {α : Type} {old new : List α} {i j i' j' n : ℕ} {s s' : Step}
  {rest : List Step}

theorem take_stretch (c : List α) (i : ℕ) {m n : ℕ} (h : m ≤ n) : (stretch c i n).take m = stretch c i m := by
  rw [stretch, List.take_take, Nat.min_eq_left h, stretch]

theorem drop_stretch (c : List α) (i m n : ℕ) : (stretch c i n).drop m = stretch c (i + m) (n - m) := by
  rw [stretch, List.drop_take, List.drop_drop, stretch]

/-- An empty step is left out. -/
theorem leads_consNonempty_iff : Leads old new i j (consNonempty s rest) i' j' ↔
    if s.len = 0 then Leads old new i j rest i' j' else Leads old new i j (s :: rest) i' j' := by
  rw [consNonempty]
  split <;> rfl

theorem consNonempty_eq_append (s : Step) (rest : List Step) :
    consNonempty s rest = consNonempty s [] ++ rest := by
  rw [consNonempty, consNonempty]
  split <;> rfl

theorem reverse_consNonempty (s : Step) (rest : List Step) :
    (consNonempty s rest).reverse = rest.reverse ++ consNonempty s [] := by
  rw [consNonempty, consNonempty]
  split <;> simp

/-! ## Steps next to each other -/

/-- Two steps of one kind are one. -/
theorem leads_join (hkind : s.kind = s'.kind) (h : Leads old new i j [s, s'] i' j') :
    Leads old new i j [s.grow s'.len] i' j' := by
  obtain ⟨kind, a, b, p⟩ := s
  obtain ⟨kind', a', b', q⟩ := s'
  obtain rfl : kind = kind' := hkind
  simp only [passage_cons_iff, passage_nil_iff, Step.grow] at h ⊢
  cases kind with
  | keep =>
      simp only [Step.fits_keep_iff, Step.oldLen_keep, Step.newLen_keep] at h ⊢
      obtain ⟨⟨hp, rfl, rfl, -, -, hsame⟩, ⟨hq, rfl, rfl, hold, hnew, hsame'⟩, rfl, rfl⟩ := h
      refine ⟨⟨by omega, rfl, rfl, by omega, by omega, ?_⟩, by omega, by omega⟩
      rw [stretch_add, stretch_add, hsame, hsame']
  | delete =>
      simp only [Step.fits_delete_iff, Step.oldLen_delete, Step.newLen_delete] at h ⊢
      omega
  | insert =>
      simp only [Step.fits_insert_iff, Step.oldLen_insert, Step.newLen_insert] at h ⊢
      omega

/-- Two changes of different kinds change places. -/
theorem leads_swap (hs : s.kind ≠ .keep) (hs' : s'.kind ≠ .keep) (hkind : s.kind ≠ s'.kind)
    (h : Leads old new i j [s, s'] i' j') : Leads old new i j [s', s] i' j' := by
  obtain ⟨kind, a, b, p⟩ := s
  obtain ⟨kind', a', b', q⟩ := s'
  simp only [passage_cons_iff, passage_nil_iff] at h ⊢
  cases kind <;> cases kind' <;> simp_all [Step.fits_delete_iff, Step.fits_insert_iff] <;> omega

section Slide

variable [DecidableEq α] {kept inserted : Step}

/-- An insertion slides up past the end of a kept stretch that is also its own end. -/
theorem leads_slide_up (hkept : kept.kind = .keep) (hinserted : inserted.kind = .insert)
    (hn : n = commonEndLength (stretch old kept.oldAt kept.len) (stretch new inserted.newAt inserted.newLen))
    (hpos : 0 < n) (h : Leads old new i j [kept, inserted] i' j') :
    Leads old new i j (consNonempty (kept.shrink n) [inserted.back n,
      ⟨.keep, kept.oldAt + kept.len - n, inserted.newAt + inserted.newLen - n, n⟩]) i' j' := by
  obtain ⟨kind, a, b, p⟩ := kept
  obtain ⟨kind', c, d, q⟩ := inserted
  obtain rfl : kind = .keep := hkept
  obtain rfl : kind' = .insert := hinserted
  simp only [passage_cons_iff, passage_nil_iff, Step.fits_keep_iff, Step.fits_insert_iff, Step.oldLen_keep,
    Step.newLen_keep, Step.oldLen_insert, Step.newLen_insert, Nat.add_zero] at h hn ⊢
  obtain ⟨⟨hp, rfl, rfl, hold, hnew, hsame⟩, ⟨hq, rfl, -, hnew'⟩, rfl, rfl⟩ := h
  have hle := commonEndLength_le (stretch old a p) (stretch new (b + p) q)
  have hend := drop_commonEndLength (stretch old a p) (stretch new (b + p) q)
  rw [length_stretch hold, length_stretch (by omega), ← hn] at hle hend
  obtain ⟨p', rfl⟩ := Nat.exists_eq_add_of_le' hle.1
  obtain ⟨q', rfl⟩ := Nat.exists_eq_add_of_le' hle.2
  simp only [Nat.add_sub_cancel, drop_stretch, Nat.add_sub_cancel_left] at hend
  have hbehind : Leads old new (a + p') (b + p') [(Step.mk .insert c (b + (p' + n)) (q' + n)).back n,
      ⟨.keep, a + (p' + n) - n, b + (p' + n) + (q' + n) - n, n⟩] (a + (p' + n)) (b + (p' + n) + (q' + n)) := by
    simp only [Step.back, passage_cons_iff, passage_nil_iff, Step.fits_keep_iff, Step.fits_insert_iff,
      Step.oldLen_keep, Step.newLen_keep, Step.oldLen_insert, Step.newLen_insert, Nat.add_zero]
    refine ⟨by omega, ⟨hpos, by omega, by omega, by omega, by omega, ?_⟩, by omega, by omega⟩
    rw [hend]
    congr 1
    omega
  rw [leads_consNonempty_iff]
  simp only [Step.shrink, Nat.add_sub_cancel]
  split_ifs with hp'
  · simpa [hp'] using hbehind
  · refine passage_cons_iff.2 ⟨Step.fits_keep_iff.2 ⟨by omega, rfl, rfl, by omega, by omega, ?_⟩, hbehind⟩
    exact (stretch_eq_of_add hold hnew hsame).1

/-- An insertion slides down past the beginning of a kept stretch that is also its own beginning. -/
theorem leads_slide_down (hkept : kept.kind = .keep) (hinserted : inserted.kind = .insert)
    (hn : n = commonLength (stretch old kept.oldAt kept.len) (stretch new inserted.newAt inserted.newLen))
    (hpos : 0 < n) (h : Leads old new i j [inserted, kept] i' j') :
    Leads old new i j (⟨.keep, kept.oldAt, inserted.newAt, n⟩ :: inserted.forth n ::
      consNonempty ((kept.forth n).shrink n) []) i' j' := by
  obtain ⟨kind, a, b, p⟩ := kept
  obtain ⟨kind', c, d, q⟩ := inserted
  obtain rfl : kind = .keep := hkept
  obtain rfl : kind' = .insert := hinserted
  simp only [passage_cons_iff, passage_nil_iff, Step.fits_keep_iff, Step.fits_insert_iff, Step.oldLen_keep,
    Step.newLen_keep, Step.oldLen_insert, Step.newLen_insert, Nat.add_zero] at h hn
  obtain ⟨⟨hq, rfl, -, hnew⟩, ⟨hp, rfl, rfl, hold, hnew', hsame⟩, rfl, rfl⟩ := h
  have hle := commonLength_le (stretch old a p) (stretch new d q)
  have hstart := take_commonLength (stretch old a p) (stretch new d q)
  rw [length_stretch hold, length_stretch hnew, ← hn] at hle
  rw [← hn, take_stretch _ _ hle.1, take_stretch _ _ hle.2] at hstart
  obtain ⟨p', rfl⟩ := Nat.exists_eq_add_of_le hle.1
  have hrest : Leads old new (a + n) (d + q + n) (consNonempty (((Step.mk .keep a (d + q) (n + p')).forth n).shrink n)
      []) (a + (n + p')) (d + q + (n + p')) := by
    rw [leads_consNonempty_iff]
    simp only [Step.forth, Step.shrink, Nat.add_sub_cancel_left]
    split_ifs with hp'
    · simp [hp']
    · refine passage_cons_iff.2 ⟨Step.fits_keep_iff.2 ⟨by omega, rfl, rfl, by omega, by omega, ?_⟩, ?_⟩
      · exact (stretch_eq_of_add hold hnew' hsame).2
      · simp [Nat.add_assoc]
  refine passage_cons_iff.2 ⟨Step.fits_keep_iff.2 ⟨hpos, rfl, rfl, by omega, by omega, hstart⟩, ?_⟩
  refine passage_cons_iff.2 ⟨Step.fits_insert_iff.2 ⟨hq, rfl, ?_, ?_⟩, ?_⟩
  · simp only [Step.oldLen_keep]
    omega
  · simp only [Step.newLen_keep]
    omega
  · simpa [Step.forth, Nat.add_right_comm] using hrest

end Slide

/-- A kept stretch in front of steps, as part of the first of them if this one is kept. -/
def joinFirst (piece : Step) : List Step → List Step
  | next :: rest => if next.kind = .keep then (next.back piece.len).grow piece.len :: rest else piece :: next :: rest
  | [] => [piece]

/-- A kept stretch behind steps that stand nearest first, as part of the first of them if this one is kept. -/
def joinLast (piece : Step) : List Step → List Step
  | prev :: rest => if prev.kind = .keep then prev.grow piece.len :: rest else piece :: prev :: rest
  | [] => [piece]

theorem leads_joinFirst {piece : Step} (hpiece : piece.kind = .keep)
    (h : Leads old new i j (piece :: rest) i' j') : Leads old new i j (joinFirst piece rest) i' j' := by
  cases rest with
  | nil => exact h
  | cons next rest =>
      rw [joinFirst]
      split_ifs with hnext
      · have hgrow : (next.back piece.len).grow piece.len = piece.grow next.len := by
          obtain ⟨fits, h⟩ := passage_cons_iff.1 h
          obtain ⟨fits', -⟩ := passage_cons_iff.1 h
          obtain ⟨kind, a, b, p⟩ := piece
          obtain ⟨kind', a', b', q⟩ := next
          obtain rfl : kind = .keep := hpiece
          obtain rfl : kind' = .keep := hnext
          simp only [Step.fits_keep_iff, Step.oldLen_keep, Step.newLen_keep] at fits fits'
          simp only [Step.back, Step.grow, Step.mk.injEq, true_and]
          omega
        rw [hgrow]
        have h : Leads old new i j ([] ++ [piece, next] ++ rest) i' j' := h
        exact h.replace fun _ _ _ _ => leads_join (hpiece.trans hnext.symm)
      · exact h

theorem leads_joinLast {piece : Step} (hpiece : piece.kind = .keep)
    (h : Leads old new i j (piece :: rest).reverse i' j') : Leads old new i j (joinLast piece rest).reverse i' j' := by
  cases rest with
  | nil => exact h
  | cons prev rest =>
      rw [joinLast]
      split_ifs with hprev
      · have h : Leads old new i j (rest.reverse ++ [prev, piece] ++ []) i' j' := by simpa using h
        simpa using h.replace fun _ _ _ _ => leads_join (hprev.trans hpiece.symm)
      · exact h

/-! ## Moving a step -/

namespace Focus

/-- The script that is seen from one of its steps. -/
def steps (f : Focus) : List Step := f.before.reverse ++ f.this :: f.after

variable {before after : List Step} {this prev next : Step} {fuel : ℕ}

/-- A step before the one in view is not empty. -/
theorem pos_of_leads_before (h : Leads old new i j (steps ⟨prev :: before, this, after⟩) i' j') : 0 < prev.len := by
  rw [steps, List.reverse_cons, List.append_assoc] at h
  obtain ⟨k, l, -, h⟩ := passage_append_iff.1 h
  exact (passage_cons_iff.1 h).1.pos

theorem pos_of_leads_after (h : Leads old new i j (steps ⟨before, this, next :: after⟩) i' j') : 0 < next.len := by
  obtain ⟨k, l, -, h⟩ := passage_append_iff.1 h
  exact (passage_cons_iff.1 (passage_cons_iff.1 h).2).1.pos

/-- Only an insertion is a change that takes elements of the new sequence. -/
theorem kind_eq_insert (new : List α) (hkind : this.kind ≠ .keep)
    (hlen : 0 < (stretch new this.newAt this.newLen).length) : this.kind = .insert := by
  cases hthis : this.kind with
  | keep => exact absurd hthis hkind
  | delete => simp [Step.newLen, hthis] at hlen
  | insert => rfl

variable [DecidableEq α]

theorem up_cons (old new : List α) (fuel : ℕ) (before after : List Step) (this prev : Step) :
    up old new (fuel + 1) ⟨prev :: before, this, after⟩ =
      if prev.kind = .keep then
        let n := commonEndLength (stretch old prev.oldAt prev.len) (stretch new this.newAt this.newLen)
        if 0 < n then
          up old new fuel ⟨consNonempty (prev.shrink n) before, this.back n,
            joinFirst ⟨.keep, prev.oldAt + prev.len - n, this.newAt + this.newLen - n, n⟩ after⟩
        else if prev.len = 0 then up old new fuel ⟨before, this, after⟩
        else ⟨prev :: before, this, after⟩
      else if prev.kind = this.kind then up old new fuel ⟨before, prev.grow this.len, after⟩
      else up old new fuel ⟨before, this, prev :: after⟩ := by
  cases after <;> rfl

theorem down_cons (old new : List α) (fuel : ℕ) (before after : List Step) (this next : Step) :
    down old new (fuel + 1) ⟨before, this, next :: after⟩ =
      if next.kind = .keep then
        let n := commonLength (stretch old next.oldAt next.len) (stretch new this.newAt this.newLen)
        if 0 < n then
          down old new fuel ⟨joinLast ⟨.keep, next.oldAt, this.newAt, n⟩ before, this.forth n,
            consNonempty ((next.forth n).shrink n) after⟩
        else if next.len = 0 then down old new fuel ⟨before, this, after⟩
        else ⟨before, this, next :: after⟩
      else if next.kind = this.kind then down old new fuel ⟨before, this.grow next.len, after⟩
      else down old new fuel ⟨next :: before, this, after⟩ := by
  cases before <;> rfl

/-- A change that slides past the end of the kept stretch before it. -/
theorem leads_slid_up (hprev : prev.kind = .keep) (hkind : this.kind ≠ .keep)
    (hn : n = commonEndLength (stretch old prev.oldAt prev.len) (stretch new this.newAt this.newLen))
    (hpos : 0 < n) (h : Leads old new i j (steps ⟨prev :: before, this, after⟩) i' j') :
    Leads old new i j (steps ⟨consNonempty (prev.shrink n) before, this.back n,
      joinFirst ⟨.keep, prev.oldAt + prev.len - n, this.newAt + this.newLen - n, n⟩ after⟩) i' j' := by
  have hinsert : this.kind = .insert := by
    have := (commonEndLength_le (stretch old prev.oldAt prev.len) (stretch new this.newAt this.newLen)).2
    exact kind_eq_insert new hkind (by omega)
  have h : Leads old new i j (before.reverse ++ [prev, this] ++ after) i' j' := by simpa [steps] using h
  have hslid := h.replace fun _ _ _ _ => leads_slide_up hprev hinsert hn hpos
  rw [consNonempty_eq_append, List.append_assoc, List.append_assoc] at hslid
  obtain ⟨k, l, hbefore, hslid⟩ := passage_append_iff.1 hslid
  obtain ⟨k', l', hkept, hslid⟩ := passage_append_iff.1 hslid
  obtain ⟨fits, hslid⟩ := passage_cons_iff.1 hslid
  rw [steps, reverse_consNonempty, List.append_assoc]
  exact passage_append_iff.2 ⟨_, _, hbefore, passage_append_iff.2 ⟨_, _, hkept, .cons fits (leads_joinFirst rfl hslid)⟩⟩

/-- A change that slides past the beginning of the kept stretch after it. -/
theorem leads_slid_down (hnext : next.kind = .keep) (hkind : this.kind ≠ .keep)
    (hn : n = commonLength (stretch old next.oldAt next.len) (stretch new this.newAt this.newLen))
    (hpos : 0 < n) (h : Leads old new i j (steps ⟨before, this, next :: after⟩) i' j') :
    Leads old new i j (steps ⟨joinLast ⟨.keep, next.oldAt, this.newAt, n⟩ before, this.forth n,
      consNonempty ((next.forth n).shrink n) after⟩) i' j' := by
  have hinsert : this.kind = .insert := by
    have := (commonLength_le (stretch old next.oldAt next.len) (stretch new this.newAt this.newLen)).2
    exact kind_eq_insert new hkind (by omega)
  have h : Leads old new i j (before.reverse ++ [this, next] ++ after) i' j' := by simpa [steps] using h
  have hslid := h.replace fun _ _ _ _ => leads_slide_down hnext hinsert hn hpos
  rw [steps, consNonempty_eq_append]
  have hsplit : ∀ (piece s : Step) (a : List Step), before.reverse ++ (piece :: s :: a) ++ after =
      (piece :: before).reverse ++ (s :: (a ++ after)) := by simp
  rw [hsplit] at hslid
  obtain ⟨k, l, hbefore, hslid⟩ := passage_append_iff.1 hslid
  exact passage_append_iff.2 ⟨_, _, leads_joinLast rfl hbefore, hslid⟩

/-- A step that has moved up is still the same kind of change, and the script leads where it did. -/
theorem leads_up {f : Focus} (fuel : ℕ) (hkind : f.this.kind ≠ .keep) (h : Leads old new i j f.steps i' j') :
    Leads old new i j (up old new fuel f).steps i' j' ∧ (up old new fuel f).this.kind = f.this.kind := by
  induction fuel generalizing f with
  | zero => exact ⟨h, rfl⟩
  | succ fuel ih =>
      obtain ⟨before, this, after⟩ := f
      cases before with
      | nil => exact ⟨h, rfl⟩
      | cons prev before =>
          have hpair : Leads old new i j (before.reverse ++ [prev, this] ++ after) i' j' := by
            simpa [steps] using h
          rw [up_cons]
          dsimp only
          split_ifs with hkeep hn hempty hsame
          · exact ih hkind (leads_slid_up hkeep hkind rfl hn h)
          · exact absurd (pos_of_leads_before h) (by omega)
          · exact ⟨h, rfl⟩
          · have hjoined := hpair.replace fun _ _ _ _ => leads_join hsame
            obtain ⟨hleads, hkind'⟩ := @ih ⟨before, prev.grow this.len, after⟩ hkeep (by simpa [steps] using hjoined)
            exact ⟨hleads, hkind'.trans hsame⟩
          · have hswapped := hpair.replace fun _ _ _ _ => leads_swap hkeep hkind hsame
            exact ih hkind (by simpa [steps] using hswapped)

/-- A step that has moved down is still the same kind of change, and the script leads where it did. -/
theorem leads_down {f : Focus} (fuel : ℕ) (hkind : f.this.kind ≠ .keep) (h : Leads old new i j f.steps i' j') :
    Leads old new i j (down old new fuel f).steps i' j' := by
  induction fuel generalizing f with
  | zero => exact h
  | succ fuel ih =>
      obtain ⟨before, this, after⟩ := f
      cases after with
      | nil => exact h
      | cons next after =>
          have hpair : Leads old new i j (before.reverse ++ [this, next] ++ after) i' j' := by
            simpa [steps] using h
          rw [down_cons]
          dsimp only
          split_ifs with hkeep hn hempty hsame
          · exact ih hkind (leads_slid_down hkeep hkind rfl hn h)
          · exact absurd (pos_of_leads_after h) (by omega)
          · exact h
          · have hjoined := hpair.replace fun _ _ _ _ => leads_join hsame.symm
            exact ih hkind (by simpa [steps] using hjoined)
          · have hswapped := hpair.replace fun _ _ _ _ => leads_swap hkind hkeep (Ne.symm hsame)
            exact ih hkind (by simpa [steps] using hswapped)

end Focus

/-! ## The compacted script -/

variable [DecidableEq α]

theorem leads_compactKind {kind : Kind} (hkind : kind ≠ .keep) {fuel : ℕ} {before after : List Step}
    (h : Leads old new i j (before.reverse ++ after) i' j') :
    Leads old new i j (compactKind old new kind fuel before after) i' j' := by
  induction fuel generalizing before after with
  | zero => exact h
  | succ fuel ih =>
      cases after with
      | nil => simpa [compactKind] using h
      | cons this after =>
          rw [compactKind]
          split_ifs with hthis
          · have hup := Focus.leads_up (f := ⟨before, this, after⟩) (weight before) (hthis ▸ hkind) h
            have hdown := Focus.leads_down (weight (Focus.up old new (weight before) ⟨before, this, after⟩).after)
              (by rw [hup.2]; exact hthis ▸ hkind) hup.1
            exact ih (by simpa [Focus.steps] using hdown)
          · exact ih (by simpa using h)

/-- **A compacted script leads where the script does.** -/
theorem leads_compact {script : List Step} (h : Leads old new i j script i' j') :
    Leads old new i j (compact old new script) i' j' :=
  leads_compactKind (by simp) (by simpa using leads_compactKind (by simp) (by simpa using h))

end DocSplice.Diff
