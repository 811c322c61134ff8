import Mathlib.Data.List.SplitBy
import DocSplice.Diff.Hunk
import DocSplice.Proofs.Passage

/-!
# Stretches of a comparison

The stretches of a script can be taken one after the other, as its steps can, and lead to the same point
(`covers_ofSteps`): a run of kept steps is one stretch that is the same on both sides, and the places of a run of
changes are those of its first deletion and its first insertion.
-/
namespace DocSplice.Diff

variable {α : Type} {old new : List α} {i j i' j' k l n m : ℕ}

namespace Stretch

/-- The number of elements that the stretch takes from the old sequence. -/
def oldLen : Stretch → ℕ
  | keep _ _ n => n
  | change _ n _ _ => n

/-- The number of elements that the stretch takes from the new sequence. -/
def newLen : Stretch → ℕ
  | keep _ _ n => n
  | change _ _ _ m => m

/-- The stretch can be taken at the point: it takes something, it begins there so far as it takes elements, and
what it keeps is the same in both sequences. -/
structure Fits (old new : List α) (i j : ℕ) (s : Stretch) : Prop where
  pos : 0 < s.oldLen + s.newLen
  oldStart : s.oldLen ≠ 0 → s.oldStart = i
  newStart : s.newLen ≠ 0 → s.newStart = j
  old_le : i + s.oldLen ≤ old.length
  new_le : j + s.newLen ≤ new.length
  same : ∀ k l n, s = keep k l n → stretch old i n = stretch new j n

theorem fits_keep_iff : Fits old new i j (keep k l n) ↔ 0 < n ∧ k = i ∧ l = j ∧
    i + n ≤ old.length ∧ j + n ≤ new.length ∧ stretch old i n = stretch new j n := by
  constructor
  · intro h
    have hn : n ≠ 0 := by
      have := h.pos
      simp only [oldLen, newLen] at this
      omega
    exact ⟨Nat.pos_of_ne_zero hn, h.oldStart hn, h.newStart hn, h.old_le, h.new_le, h.same k l n rfl⟩
  · intro h
    rcases h with ⟨hn, rfl, rfl, hold, hnew, hsame⟩
    refine ⟨Nat.add_pos_left hn _, fun _ => rfl, fun _ => rfl, hold, hnew, ?_⟩
    intro _ _ _ heq
    cases heq
    exact hsame

end Stretch

/-- The stretches lead from the point `i`, `j` of two sequences to the point `i'`, `j'`. -/
abbrev Covers (old new : List α) (i j : ℕ) (stretches : List Stretch) (i' j' : ℕ) : Prop :=
  Passage (Stretch.Fits old new) Stretch.oldLen Stretch.newLen i j stretches i' j'

/-! ## Runs of steps -/

namespace Step

@[simp] theorem total_nil : total [] = 0 := rfl

@[simp] theorem total_cons (s : Step) (steps : List Step) : total (s :: steps) = s.len + total steps := rfl

end Step

variable {s first : Step} {run steps : List Step}

theorem Leads.le (h : Leads old new i j steps i' j') (hi : i ≤ old.length) (hj : j ≤ new.length) :
    i' ≤ old.length ∧ j' ≤ new.length := by
  induction h with
  | nil => exact ⟨hi, hj⟩
  | cons fits _ ih => exact ih fits.old_le fits.new_le

/-- Steps that are all kept keep as much on both sides. -/
theorem Leads.of_keep (hrun : ∀ s ∈ run, s.kind = .keep) (h : Leads old new i j run i' j') :
    i' = i + Step.total run ∧ j' = j + Step.total run ∧
      stretch old i (Step.total run) = stretch new j (Step.total run) := by
  induction h with
  | nil => simp
  | @cons i j i' j' s run fits _ ih =>
      obtain ⟨hs, hrun⟩ := List.forall_mem_cons.1 hrun
      obtain ⟨rfl, rfl, hsame⟩ := ih hrun
      simp only [Step.oldLen, Step.newLen, hs, reduceCtorEq, if_false, Step.total_cons] at hsame ⊢
      refine ⟨by omega, by omega, ?_⟩
      rw [stretch_add, stretch_add, fits.same hs, hsame]

/-- Steps that are all changes take what they delete from the old sequence and what they insert from the new
one; the first of either kind carries the point that the run starts from. -/
theorem Leads.of_changes (hrun : ∀ s ∈ run, s.kind ≠ .keep) (h : Leads old new i j run i' j') :
    i' = i + Step.total (run.filter (·.kind = .delete)) ∧ j' = j + Step.total (run.filter (·.kind = .insert)) ∧
      (∀ s ∈ (run.filter (·.kind = .delete)).head?, s.oldAt = i) ∧
      ∀ s ∈ (run.filter (·.kind = .insert)).head?, s.newAt = j := by
  induction h with
  | nil => simp
  | @cons i j i' j' s run fits _ ih =>
      obtain ⟨hs, hrun⟩ := List.forall_mem_cons.1 hrun
      obtain ⟨rfl, rfl, hold, hnew⟩ := ih hrun
      cases hkind : s.kind with
      | keep => exact absurd hkind hs
      | delete =>
          have hat := fits.oldAt (by simp [hkind])
          simp only [Step.oldLen, Step.newLen, hkind, reduceCtorEq, if_false, if_true, Nat.add_zero] at hnew ⊢
          simpa [hkind, hat, Nat.add_assoc] using hnew
      | insert =>
          have hat := fits.newAt (by simp [hkind])
          simp only [Step.oldLen, Step.newLen, hkind, reduceCtorEq, if_false, if_true, Nat.add_zero] at hold ⊢
          simpa [hkind, hat, Nat.add_assoc] using hold

/-- A run that is joined into one stretch leads where the stretch does. -/
theorem covers_ofRun (hrun : ∀ s ∈ first :: run, (s.kind = .keep ↔ first.kind = .keep))
    (h : Leads old new i j (first :: run) i' j') :
    Covers old new i j [Stretch.ofRun first (first :: run)] i' j' := by
  obtain ⟨fits, -⟩ := passage_cons_iff.1 h
  have hpos := fits.pos
  obtain ⟨hold, hnew⟩ := h.le (by have := fits.old_le; omega) (by have := fits.new_le; omega)
  rw [Stretch.ofRun]
  split_ifs with hfirst
  · have hkeep : ∀ s ∈ first :: run, s.kind = .keep := fun s hs => (hrun s hs).2 hfirst
    obtain ⟨rfl, rfl, hsame⟩ := Leads.of_keep hkeep h
    refine .cons (Stretch.fits_keep_iff.2 ⟨?_, fits.oldAt (by simp [hfirst]), fits.newAt (by simp [hfirst]),
      hold, hnew, hsame⟩) (.nil _ _)
    rw [Step.total_cons]
    omega
  · have hchange : ∀ s ∈ first :: run, s.kind ≠ .keep := fun s hs => mt (hrun s hs).1 hfirst
    obtain ⟨rfl, rfl, hdelete, hinsert⟩ := Leads.of_changes hchange h
    refine .cons ⟨?_, ?_, ?_, hold, hnew, ?_⟩ (.nil _ _)
    · cases hkind : first.kind with
      | keep => exact absurd hkind hfirst
      | delete =>
          have hle : first.len ≤ Step.total ((first :: run).filter (·.kind = .delete)) := by simp [hkind]
          exact Nat.add_pos_left (lt_of_lt_of_le hpos hle) _
      | insert =>
          have hle : first.len ≤ Step.total ((first :: run).filter (·.kind = .insert)) := by simp [hkind]
          exact Nat.add_pos_right _ (lt_of_lt_of_le hpos hle)
    · intro hlen
      cases hdeleted : (first :: run).filter (·.kind = .delete) with
      | nil => simp [Stretch.oldLen, hdeleted] at hlen
      | cons s _ => exact hdelete s (by simp [hdeleted])
    · intro hlen
      cases hinserted : (first :: run).filter (·.kind = .insert) with
      | nil => simp [Stretch.newLen, hinserted] at hlen
      | cons s _ => exact hinsert s (by simp [hinserted])
    · intro _ _ _ heq
      cases heq

/-! ## The stretches of a script -/

/-- Steps in a chain of equal ones are all equal to the first. -/
theorem forall_of_isChain {p : Step → Bool} (h : (first :: run).IsChain fun a b => (p a == p b) = true) :
    ∀ s ∈ first :: run, p s = p first := by
  induction run generalizing first with
  | nil => simp
  | cons next run ih =>
      obtain ⟨hnext, h⟩ := List.isChain_cons_cons.1 h
      have hnext : p first = p next := by simpa using hnext
      intro s hs
      rcases List.mem_cons.1 hs with rfl | hs
      · rfl
      · exact (ih h s hs).trans hnext.symm

/-- The steps of a run are all kept or all changes. -/
theorem kept_iff_of_isChain (h : (first :: run).IsChain fun a b => ((a.kind == .keep) == (b.kind == .keep)) = true) :
    ∀ s ∈ first :: run, (s.kind = .keep ↔ first.kind = .keep) := by
  intro s hs
  have hsame := forall_of_isChain (p := fun s => s.kind == .keep) h s hs
  rw [← beq_iff_eq, ← beq_iff_eq (a := first.kind), hsame]

theorem covers_runs {runs : List (List Step)} (hne : [] ∉ runs)
    (hchain : ∀ run ∈ runs, run.IsChain fun a b => ((a.kind == .keep) == (b.kind == .keep)) = true)
    (h : Leads old new i j runs.flatten i' j') :
    Covers old new i j (runs.filterMap fun run => run.head?.map fun first => Stretch.ofRun first run) i' j' := by
  induction runs generalizing i j with
  | nil => simpa using h
  | cons run runs ih =>
      obtain ⟨hrun, hruns⟩ := List.forall_mem_cons.1 hchain
      obtain ⟨hnil, hne'⟩ := not_or.1 (List.mem_cons.not.1 hne)
      cases run with
      | nil => exact absurd rfl hnil
      | cons first run =>
          rw [List.flatten_cons] at h
          obtain ⟨k, l, hfirst, hrest⟩ := passage_append_iff.1 h
          exact (passage_append_iff (a := [_])).2
            ⟨k, l, covers_ofRun (kept_iff_of_isChain hrun) hfirst, ih hne' hruns hrest⟩

/-- **The stretches of a script lead where its steps do.** -/
theorem covers_ofSteps (h : Leads old new i j steps i' j') :
    Covers old new i j (Stretch.ofSteps steps) i' j' := by
  refine covers_runs (List.nil_notMem_splitBy _ _) ?_ (by rwa [List.flatten_splitBy])
  intro run hrun
  exact List.isChain_of_mem_splitBy hrun

end DocSplice.Diff
