import DocSplice.Proofs.Compacted
import DocSplice.Proofs.Meeting
import DocSplice.Proofs.Stretches

/-!
# Shortest scripts

A script deletes and inserts as few elements as the two sequences are apart (`changes_script`). Its common beginning and
end cost nothing, the searches divide what is left in the middle of a shortest way, and both parts of it are smaller, so
that the bound on the depth is never felt. Compaction moves changes and joins them, but keeps their number
(`changes_compact`).
-/
namespace DocSplice.Diff

variable {α : Type} {old new : List α} {depth k l fuel : ℕ} {steps : List Step} {s : Step}

/-! ## Changes -/

namespace Step

/-- The number of elements that the steps delete and insert. -/
def changes (steps : List Step) : ℕ := total (steps.filter (·.kind ≠ .keep))

@[simp] theorem changes_nil : changes [] = 0 := rfl

@[simp] theorem changes_cons (s : Step) (steps : List Step) :
    changes (s :: steps) = (if s.kind = .keep then 0 else s.len) + changes steps := by
  by_cases hs : s.kind = .keep <;> simp [changes, hs]

@[simp] theorem changes_append (a b : List Step) : changes (a ++ b) = changes a + changes b := by
  induction a with
  | nil => simp
  | cons s a ih => simp [ih, Nat.add_assoc]

@[simp] theorem changes_reverse (steps : List Step) : changes steps.reverse = changes steps := by
  induction steps with
  | nil => rfl
  | cons s steps ih => simp [ih, Nat.add_comm]

@[simp] theorem changes_run (kind : Kind) (i j n : ℕ) :
    changes (run kind i j n) = if kind = .keep then 0 else n := by
  rw [run]
  split_ifs <;> simp_all

/-- What is changed is deleted or inserted. -/
theorem changes_eq_total (steps : List Step) :
    changes steps = total (steps.filter (·.kind = .delete)) + total (steps.filter (·.kind = .insert)) := by
  induction steps with
  | nil => rfl
  | cons s steps ih =>
      rw [changes_cons, ih]
      cases hs : s.kind <;> simp [hs] <;> omega

end Step

open Step

/-! ## The script of two sequences -/

section Script

variable [DecidableEq α] {c d start stop rest rest' : List α}

theorem commonLength_le_append (a b c d : List α) : commonLength a b ≤ commonLength (a ++ c) (b ++ d) := by
  induction a generalizing b with
  | nil => simp
  | cons x a ih =>
      cases b with
      | nil => simp
      | cons y b =>
          simp only [List.cons_append, commonLength_cons]
          split_ifs
          · exact Nat.succ_le_succ (ih b)
          · exact Nat.le_refl 0

/-- What lies between the common beginning and the common end neither begins nor ends alike. -/
theorem common_eq_zero
    (hstart : commonLength (start ++ rest ++ stop) (start ++ rest' ++ stop) = start.length)
    (hstop : commonEndLength (rest ++ stop) (rest' ++ stop) = stop.length) :
    commonLength rest rest' = 0 ∧ commonEndLength rest rest' = 0 := by
  rw [List.append_assoc, List.append_assoc, commonLength_append_left] at hstart
  rw [commonEndLength_append_right] at hstop
  have hle := commonLength_le_append rest rest' stop stop
  omega

/-- Both parts of two sequences that are divided in the middle of a shortest way are smaller. -/
theorem Halves.length_lt {x y : ℕ} (h : Halves c d x y) (hmin : 2 ≤ distance c d) :
    (c.take x).length + (d.take y).length < c.length + d.length ∧
      (c.drop x).length + (d.drop y).length < c.length + d.length := by
  have hfirst := distance_le_add_length (c.take x) (d.take y)
  have hsecond := distance_le_add_length (c.drop x) (d.drop y)
  rw [h.first] at hfirst
  rw [h.second] at hsecond
  simp only [List.length_take, List.length_drop] at hfirst hsecond ⊢
  omega

/-- Between the common beginning and end, the steps of a script change no more than they must, if this holds of the
scripts of smaller sequences. -/
theorem changes_between (hstart : commonLength c d = 0) (hstop : commonEndLength c d = 0)
    (hdepth : c.length + d.length ≤ depth)
    (hpart : ∀ fewer, depth = fewer + 1 → ∀ {k l : ℕ} {c d : List α}, c.length + d.length ≤ fewer →
      changes (scriptFrom fewer k l c d) = distance c d) :
    changes (between depth k l c d) = distance c d := by
  unfold between
  split_ifs with hc hd
  · simp [hc]
  · simp [hd]
  · have hmin := two_le_distance hc hd hstart hstop
    cases depth with
    | zero =>
        have := List.length_pos_iff.2 hc
        omega
    | succ fewer =>
        obtain ⟨x, y, hmeeting, hhalves⟩ := exists_meeting c d
        obtain ⟨hfirst, hsecond⟩ := hhalves.length_lt hmin
        simp only [hmeeting, changes_append]
        rw [hpart fewer rfl (by omega), hpart fewer rfl (by omega), hhalves.first, hhalves.second]
        omega

theorem changes_scriptFrom_of_parts (hdepth : c.length + d.length ≤ depth)
    (hpart : ∀ fewer, depth = fewer + 1 → ∀ {k l : ℕ} {c d : List α}, c.length + d.length ≤ fewer →
      changes (scriptFrom fewer k l c d) = distance c d) :
    changes (scriptFrom depth k l c d) = distance c d := by
  obtain ⟨start, rest, rest', stop, rfl, rfl, hstart, hstop⟩ := exists_common c d
  rw [scriptFrom_eq rfl rfl hstart hstop]
  rw [List.append_assoc, List.append_assoc, List.drop_left, List.drop_left] at hstop
  obtain ⟨hbegin, hend⟩ := common_eq_zero hstart hstop
  simp only [List.length_append] at hdepth
  simp [changes_between hbegin hend (by omega) hpart]

theorem changes_scriptFrom (hdepth : c.length + d.length ≤ depth) :
    changes (scriptFrom depth k l c d) = distance c d := by
  induction depth generalizing k l c d with
  | zero =>
      refine changes_scriptFrom_of_parts hdepth fun fewer hfewer => ?_
      exact absurd hfewer (Nat.succ_ne_zero fewer).symm
  | succ depth ih =>
      refine changes_scriptFrom_of_parts hdepth fun fewer hfewer => ?_
      obtain rfl := Nat.succ.inj hfewer
      exact ih

/-- **A script changes as many elements as the two sequences are apart.** -/
theorem changes_script (old new : List α) : changes (script old new) = distance old new :=
  changes_scriptFrom (Nat.le_refl _)

end Script

/-! ## The compacted script -/

theorem changes_consNonempty (s : Step) (steps : List Step) :
    changes (consNonempty s steps) = changes (s :: steps) := by
  rw [consNonempty]
  split_ifs with hs
  · simp [hs]
  · rfl

theorem changes_joinFirst (hs : s.kind = .keep) (steps : List Step) : changes (joinFirst s steps) = changes steps := by
  cases steps with
  | nil => simp [joinFirst, hs]
  | cons next rest =>
      rw [joinFirst]
      split_ifs with hnext
      · simp [grow, back, hnext]
      · simp [hs]

theorem changes_joinLast (hs : s.kind = .keep) (steps : List Step) : changes (joinLast s steps) = changes steps := by
  cases steps with
  | nil => simp [joinLast, hs]
  | cons prev rest =>
      rw [joinLast]
      split_ifs with hprev
      · simp [grow, hprev]
      · simp [hs]

variable [DecidableEq α]

namespace Focus

theorem changes_steps (f : Focus) : changes f.steps = changes f.before + changes (f.this :: f.after) := by
  rw [steps, changes_append, changes_reverse]

/-- A step that moves up takes its changes with it. -/
theorem changes_up (f : Focus) : changes (up old new fuel f).steps = changes f.steps := by
  induction fuel generalizing f with
  | zero => rfl
  | succ fuel ih =>
      obtain ⟨before, this, after⟩ := f
      cases before with
      | nil => rfl
      | cons prev before =>
          rw [up_cons]
          dsimp only
          split_ifs with hkeep hn hempty hsame
          · simp [ih, changes_steps, changes_consNonempty, changes_joinFirst, shrink, back, hkeep]
          · simp [ih, changes_steps, hkeep]
          · rfl
          · rw [hsame] at hkeep
            simp only [ih, changes_steps, changes_cons, grow, hsame, hkeep, if_false]
            omega
          · simp only [ih, changes_steps, changes_cons, hkeep, if_false]
            omega

/-- A step that moves down takes its changes with it. -/
theorem changes_down (f : Focus) : changes (down old new fuel f).steps = changes f.steps := by
  induction fuel generalizing f with
  | zero => rfl
  | succ fuel ih =>
      obtain ⟨before, this, after⟩ := f
      cases after with
      | nil => rfl
      | cons next after =>
          rw [down_cons]
          dsimp only
          split_ifs with hkeep hn hempty hsame
          · simp [ih, changes_steps, changes_consNonempty, changes_joinLast, shrink, forth, hkeep]
          · simp [ih, changes_steps, hkeep]
          · rfl
          · rw [hsame] at hkeep
            simp only [ih, changes_steps, changes_cons, grow, hsame, hkeep, if_false]
            omega
          · simp only [ih, changes_steps, changes_cons, hkeep, if_false]
            omega

end Focus

theorem changes_compactKind (kind : Kind) (before after : List Step) :
    changes (compactKind old new kind fuel before after) = changes before + changes after := by
  induction fuel generalizing before after with
  | zero => simp [compactKind]
  | succ fuel ih =>
      cases after with
      | nil => simp [compactKind]
      | cons this after =>
          rw [compactKind]
          split_ifs with hthis
          · have hmoved := Focus.changes_steps (Focus.down old new
              (weight (Focus.up old new (weight before) ⟨before, this, after⟩).after)
              (Focus.up old new (weight before) ⟨before, this, after⟩))
            rw [Focus.changes_down, Focus.changes_up, Focus.changes_steps] at hmoved
            simp only [ih, changes_cons] at hmoved ⊢
            omega
          · simp only [ih, changes_cons]
            omega

/-- **A compacted script changes as many elements as the script does.** -/
theorem changes_compact (old new : List α) (steps : List Step) :
    changes (compact old new steps) = changes steps := by
  simp [compact, changes_compactKind]

end DocSplice.Diff
