import Mathlib.Data.List.TakeDrop
import DocSplice.Diff.Script

/-!
# Passages between points of a comparison

A point of a comparison is a place in the old sequence and one in the new. A step can be taken at a point if it
carries the places of this point, as far as it takes elements there, and if what it keeps is the same on both sides
(`Step.Fits`). Steps that can be taken one after the other lead from one point to another (`Passage`, `Leads`); the
script of two sequences leads from their beginnings to their ends (`leads_script`).
-/
namespace DocSplice.Diff

variable {α : Type} {old new : List α} {i j k l i' j' n m : ℕ} {s : Step}

/-! ## Stretches of a sequence -/

theorem length_stretch (h : i + n ≤ old.length) : (stretch old i n).length = n := by
  rw [stretch, List.length_take, List.length_drop]
  omega

theorem stretch_add (old : List α) (i n m : ℕ) :
    stretch old i (n + m) = stretch old i n ++ stretch old (i + n) m := by
  rw [stretch, List.take_add, List.drop_drop, stretch, stretch]

@[simp] theorem stretch_zero (old : List α) (i : ℕ) : stretch old i 0 = [] := by
  rw [stretch, List.take_zero]

/-- Two equal stretches are equal from any element on. -/
theorem stretch_eq_of_add (hi : i + (n + m) ≤ old.length) (hj : j + (n + m) ≤ new.length)
    (h : stretch old i (n + m) = stretch new j (n + m)) :
    stretch old i n = stretch new j n ∧ stretch old (i + n) m = stretch new (j + n) m := by
  rw [stretch_add, stretch_add] at h
  exact List.append_inj h (by rw [length_stretch (by omega), length_stretch (by omega)])

section Common

variable [DecidableEq α]

theorem commonLength_le (c d : List α) : commonLength c d ≤ c.length ∧ commonLength c d ≤ d.length := by
  induction c generalizing d with
  | nil => simp
  | cons x c ih =>
      cases d with
      | nil => simp
      | cons y d =>
          rw [commonLength_cons]
          split
          · simpa using ih d
          · simp

theorem commonEndLength_le (c d : List α) :
    commonEndLength c d ≤ c.length ∧ commonEndLength c d ≤ d.length := by
  simpa [commonEndLength] using commonLength_le c.reverse d.reverse

/-- The common end stands in both sequences. -/
theorem drop_commonEndLength (c d : List α) :
    c.drop (c.length - commonEndLength c d) = d.drop (d.length - commonEndLength c d) := by
  have h := congrArg List.reverse (take_commonLength c.reverse d.reverse)
  simpa [List.reverse_take, commonEndLength] using h

end Common

/-! ## Steps that can be taken -/

/-- The step can be taken at the point: it takes something, it carries this point so far as it takes elements
there, and what it keeps is the same in both sequences. -/
structure Step.Fits (old new : List α) (i j : ℕ) (s : Step) : Prop where
  pos : 0 < s.len
  oldAt : s.kind ≠ .insert → s.oldAt = i
  newAt : s.kind ≠ .delete → s.newAt = j
  old_le : i + s.oldLen ≤ old.length
  new_le : j + s.newLen ≤ new.length
  same : s.kind = .keep → stretch old i s.len = stretch new j s.len

namespace Step

@[simp] theorem oldLen_keep (i j n : ℕ) : oldLen ⟨.keep, i, j, n⟩ = n := rfl

@[simp] theorem oldLen_delete (i j n : ℕ) : oldLen ⟨.delete, i, j, n⟩ = n := rfl

@[simp] theorem oldLen_insert (i j n : ℕ) : oldLen ⟨.insert, i, j, n⟩ = 0 := rfl

@[simp] theorem newLen_keep (i j n : ℕ) : newLen ⟨.keep, i, j, n⟩ = n := rfl

@[simp] theorem newLen_delete (i j n : ℕ) : newLen ⟨.delete, i, j, n⟩ = 0 := rfl

@[simp] theorem newLen_insert (i j n : ℕ) : newLen ⟨.insert, i, j, n⟩ = n := rfl

theorem fits_keep_iff : Fits old new i j ⟨.keep, k, l, n⟩ ↔ 0 < n ∧ k = i ∧ l = j ∧
    i + n ≤ old.length ∧ j + n ≤ new.length ∧ stretch old i n = stretch new j n := by
  constructor
  · intro h
    exact ⟨h.pos, h.oldAt (by simp), h.newAt (by simp), h.old_le, h.new_le, h.same rfl⟩
  · intro h
    rcases h with ⟨hn, rfl, rfl, hold, hnew, hsame⟩
    exact ⟨hn, fun _ => rfl, fun _ => rfl, hold, hnew, fun _ => hsame⟩

theorem fits_delete_iff : Fits old new i j ⟨.delete, k, l, n⟩ ↔
    0 < n ∧ k = i ∧ i + n ≤ old.length ∧ j ≤ new.length := by
  constructor
  · intro h
    exact ⟨h.pos, h.oldAt (by simp), h.old_le, h.new_le⟩
  · intro h
    rcases h with ⟨hn, rfl, hold, hnew⟩
    exact ⟨hn, fun _ => rfl, by simp, hold, hnew, by simp⟩

theorem fits_insert_iff : Fits old new i j ⟨.insert, k, l, n⟩ ↔
    0 < n ∧ l = j ∧ i ≤ old.length ∧ j + n ≤ new.length := by
  constructor
  · intro h
    exact ⟨h.pos, h.newAt (by simp), h.old_le, h.new_le⟩
  · intro h
    rcases h with ⟨hn, rfl, hold, hnew⟩
    exact ⟨hn, by simp, fun _ => rfl, hold, hnew, by simp⟩

end Step

/-! ## Passages -/

section Passage

variable {β : Type} {fits : ℕ → ℕ → β → Prop} {oldLen newLen : β → ℕ} {s : β} {a b steps : List β}

/-- Things that are taken one after the other, each at the point where the one before it has led to: they lead from
the point `i`, `j` to the point `i'`, `j'`. -/
inductive Passage (fits : ℕ → ℕ → β → Prop) (oldLen newLen : β → ℕ) : ℕ → ℕ → List β → ℕ → ℕ → Prop where
  | nil (i j : ℕ) : Passage fits oldLen newLen i j [] i j
  | cons {i j i' j' : ℕ} {s : β} {steps : List β} (h : fits i j s)
      (rest : Passage fits oldLen newLen (i + oldLen s) (j + newLen s) steps i' j') :
      Passage fits oldLen newLen i j (s :: steps) i' j'

@[simp] theorem passage_nil_iff : Passage fits oldLen newLen i j [] i' j' ↔ i' = i ∧ j' = j := by
  constructor
  · intro h
    cases h
    exact ⟨rfl, rfl⟩
  · intro h
    rcases h with ⟨rfl, rfl⟩
    exact .nil _ _

theorem passage_cons_iff : Passage fits oldLen newLen i j (s :: steps) i' j' ↔
    fits i j s ∧ Passage fits oldLen newLen (i + oldLen s) (j + newLen s) steps i' j' := by
  constructor
  · intro h
    cases h with
    | cons h rest => exact ⟨h, rest⟩
  · intro h
    exact .cons h.1 h.2

/-- A passage is taken in parts. -/
theorem passage_append_iff : Passage fits oldLen newLen i j (a ++ b) i' j' ↔
    ∃ k l, Passage fits oldLen newLen i j a k l ∧ Passage fits oldLen newLen k l b i' j' := by
  induction a generalizing i j with
  | nil =>
      simp only [List.nil_append, passage_nil_iff]
      constructor
      · intro h
        exact ⟨i, j, ⟨rfl, rfl⟩, h⟩
      · intro h
        rcases h with ⟨k, l, ⟨rfl, rfl⟩, h⟩
        exact h
  | cons s a ih =>
      simp only [List.cons_append, passage_cons_iff, ih]
      constructor
      · intro h
        rcases h with ⟨hs, k, l, ha, hb⟩
        exact ⟨k, l, ⟨hs, ha⟩, hb⟩
      · intro h
        rcases h with ⟨k, l, ⟨hs, ha⟩, hb⟩
        exact ⟨hs, k, l, ha, hb⟩

/-- Whatever is part of a passage can be taken somewhere. -/
theorem Passage.exists_fits (h : Passage fits oldLen newLen i j steps i' j') (hs : s ∈ steps) :
    ∃ k l, fits k l s := by
  obtain ⟨a, b, rfl⟩ := List.append_of_mem hs
  obtain ⟨k, l, -, h⟩ := passage_append_iff.1 h
  exact ⟨k, l, (passage_cons_iff.1 h).1⟩

/-- Part of a passage can be replaced by something else that leads to the same point. -/
theorem Passage.replace {steps' : List β}
    (hsteps : ∀ i j i' j', Passage fits oldLen newLen i j steps i' j' →
      Passage fits oldLen newLen i j steps' i' j')
    (h : Passage fits oldLen newLen i j (a ++ steps ++ b) i' j') :
    Passage fits oldLen newLen i j (a ++ steps' ++ b) i' j' := by
  obtain ⟨k, l, h, hb⟩ := passage_append_iff.1 h
  obtain ⟨k', l', ha, h⟩ := passage_append_iff.1 h
  exact passage_append_iff.2 ⟨k, l, passage_append_iff.2 ⟨k', l', ha, hsteps _ _ _ _ h⟩, hb⟩

end Passage

/-- The steps lead from the point `i`, `j` of two sequences to the point `i'`, `j'`. -/
abbrev Leads (old new : List α) (i j : ℕ) (steps : List Step) (i' j' : ℕ) : Prop :=
  Passage (Step.Fits old new) Step.oldLen Step.newLen i j steps i' j'

/-! ## The script of two sequences -/

section Script

/-- The second sequence stands at the place `i` of the whole one, and `k` is this place unless it is empty. -/
structure StandsAt (whole : List α) (i k : ℕ) (c : List α) : Prop where
  le : i ≤ whole.length
  isPrefix : c <+: whole.drop i
  place : c = [] ∨ k = i

variable {whole c d start rest rest' stop : List α} {depth x : ℕ}

namespace StandsAt

theorem add_length_le (h : StandsAt whole i k c) : i + c.length ≤ whole.length := by
  have hle := h.le
  have := h.isPrefix.length_le
  rw [List.length_drop] at this
  omega

theorem stretch_eq (h : StandsAt whole i k c) : stretch whole i c.length = c :=
  (List.prefix_iff_eq_take.1 h.isPrefix).symm

theorem left (h : StandsAt whole i k (c ++ d)) : StandsAt whole i k c where
  le := h.le
  isPrefix := (List.prefix_append c d).trans h.isPrefix
  place := h.place.imp (fun hnil => (List.append_eq_nil_iff.1 hnil).1) id

theorem right (h : StandsAt whole i k (c ++ d)) : StandsAt whole (i + c.length) (k + c.length) d where
  le := h.left.add_length_le
  isPrefix := by
    obtain ⟨behind, hbehind⟩ := h.isPrefix
    refine ⟨behind, ?_⟩
    rw [← List.drop_drop, ← hbehind, List.append_assoc, List.drop_left]
  place := h.place.imp (fun hnil => (List.append_eq_nil_iff.1 hnil).2) (by omega)

theorem take (h : StandsAt whole i k c) (x : ℕ) : StandsAt whole i k (c.take x) :=
  left (d := c.drop x) (by rwa [List.take_append_drop])

/-- A place that lies behind the sequence is carried on, but nothing stands there. -/
theorem drop (h : StandsAt whole i k c) (x : ℕ) :
    StandsAt whole (i + (c.take x).length) (k + x) (c.drop x) := by
  have hright : StandsAt whole (i + (c.take x).length) (k + (c.take x).length) (c.drop x) :=
    right (by rwa [List.take_append_drop])
  refine ⟨hright.le, hright.isPrefix, ?_⟩
  by_cases hx : c.length ≤ x
  · exact .inl (List.drop_eq_nil_of_le hx)
  · refine hright.place.imp id ?_
    rw [List.length_take]
    omega

end StandsAt

/-- A run of steps leads over the elements that it takes. -/
theorem leads_run (kind : Kind) (hi : i ≤ old.length) (hj : j ≤ new.length)
    (hold : kind ≠ .insert → StandsAt old i k c) (hnew : kind ≠ .delete → StandsAt new j l c) :
    Leads old new i j (Step.run kind k l c.length) (i + Step.oldLen ⟨kind, k, l, c.length⟩)
      (j + Step.newLen ⟨kind, k, l, c.length⟩) := by
  rw [Step.run]
  split
  · next hc => simp [hc, Step.oldLen, Step.newLen]
  · next hc =>
    have hc' : c ≠ [] := by simpa using hc
    refine .cons ⟨by simp only; omega, ?_, ?_, ?_, ?_, ?_⟩ (.nil _ _)
    · intro hkind
      exact (hold hkind).place.resolve_left hc'
    · intro hkind
      exact (hnew hkind).place.resolve_left hc'
    · by_cases hkind : kind = .insert
      · simpa [Step.oldLen, hkind] using hi
      · simpa [Step.oldLen, hkind] using (hold hkind).add_length_le
    · by_cases hkind : kind = .delete
      · simpa [Step.newLen, hkind] using hj
      · simpa [Step.newLen, hkind] using (hnew hkind).add_length_le
    · intro hkind
      simp only at hkind
      subst hkind
      rw [(hold (by simp)).stretch_eq, (hnew (by simp)).stretch_eq]

theorem leads_run_keep (hold : StandsAt old i k c) (hnew : StandsAt new j l c) :
    Leads old new i j (Step.run .keep k l c.length) (i + c.length) (j + c.length) :=
  leads_run .keep hold.le hnew.le (fun _ => hold) (fun _ => hnew)

theorem leads_run_delete (hold : StandsAt old i k c) (hj : j ≤ new.length) :
    Leads old new i j (Step.run .delete k l c.length) (i + c.length) j :=
  leads_run .delete hold.le hj (fun _ => hold) (by simp)

theorem leads_run_insert (hi : i ≤ old.length) (hnew : StandsAt new j l d) :
    Leads old new i j (Step.run .insert k l d.length) i (j + d.length) :=
  leads_run .insert hi hnew.le (by simp) (fun _ => hnew)

/-- What is replaced is gone over by deleting and inserting. -/
theorem leads_replaced (hold : StandsAt old i k c) (hnew : StandsAt new j l d) :
    Leads old new i j (Step.run .delete k l c.length ++ Step.run .insert k l d.length) (i + c.length)
      (j + d.length) :=
  passage_append_iff.2 ⟨_, _, leads_run_delete hold hnew.le, leads_run_insert hold.add_length_le hnew⟩

/-- Steps that lead over what differs lead over the whole, with the common beginning and end around them. -/
theorem leads_around {mid : List Step} (hold : StandsAt old i k (start ++ rest ++ stop))
    (hnew : StandsAt new j l (start ++ rest' ++ stop))
    (hmid : Leads old new (i + start.length) (j + start.length) mid (i + start.length + rest.length)
      (j + start.length + rest'.length)) :
    Leads old new i j (Step.run .keep k l start.length ++ mid ++
        Step.run .keep (k + start.length + rest.length) (l + start.length + rest'.length) stop.length)
      (i + (start ++ rest ++ stop).length) (j + (start ++ rest' ++ stop).length) := by
  have hstart := leads_run_keep hold.left.left hnew.left.left
  have hstop := leads_run_keep hold.right hnew.right
  simp only [List.length_append, ← Nat.add_assoc] at hstop ⊢
  exact passage_append_iff.2 ⟨_, _, passage_append_iff.2 ⟨_, _, hstart, hmid⟩, hstop⟩

variable [DecidableEq α]

/-- Two sequences are their common beginning, what differs, and their common end. -/
theorem exists_common (c d : List α) : ∃ start rest rest' stop : List α,
    c = start ++ rest ++ stop ∧ d = start ++ rest' ++ stop ∧ commonLength c d = start.length ∧
      commonEndLength (c.drop start.length) (d.drop start.length) = stop.length := by
  have hp := commonLength_le c d
  have hstart := take_commonLength c d
  generalize hplen : commonLength c d = p at hp hstart
  have hs := commonEndLength_le (c.drop p) (d.drop p)
  have hstop := drop_commonEndLength (c.drop p) (d.drop p)
  generalize hslen : commonEndLength (c.drop p) (d.drop p) = s at hs hstop
  refine ⟨c.take p, (c.drop p).take ((c.drop p).length - s), (d.drop p).take ((d.drop p).length - s),
    (c.drop p).drop ((c.drop p).length - s), ?_, ?_, ?_, ?_⟩
  · rw [List.append_assoc, List.take_append_drop, List.take_append_drop]
  · rw [hstart, hstop, List.append_assoc, List.take_append_drop, List.take_append_drop]
  · rw [List.length_take]
    omega
  · have hlen : (c.take p).length = p := by
      rw [List.length_take]
      omega
    rw [hlen, hslen, List.length_drop]
    omega

/-- The steps of a script between the common beginning and the common end. -/
def between (depth k l : ℕ) (c d : List α) : List Step :=
  if c = [] then Step.run .insert k l d.length
  else if d = [] then Step.run .delete k l c.length
  else match depth with
    | 0 => Step.run .delete k l c.length ++ Step.run .insert k l d.length
    | depth + 1 =>
      match meeting? c d with
      | none => Step.run .delete k l c.length ++ Step.run .insert k l d.length
      | some (x, y) =>
        scriptFrom depth k l (c.take x) (d.take y) ++ scriptFrom depth (k + x) (l + y) (c.drop x) (d.drop y)

theorem scriptFrom_eq (hc : c = start ++ rest ++ stop) (hd : d = start ++ rest' ++ stop)
    (hstart : commonLength c d = start.length)
    (hstop : commonEndLength (c.drop start.length) (d.drop start.length) = stop.length) :
    scriptFrom depth k l c d = Step.run .keep k l start.length ++
      between depth (k + start.length) (l + start.length) rest rest' ++
      Step.run .keep (k + start.length + rest.length) (l + start.length + rest'.length) stop.length := by
  have hrest : ∀ r : List α, (r ++ stop).take ((r ++ stop).length - stop.length) = r := by simp
  subst hc hd
  simp only [List.append_assoc, List.drop_left] at hstart hstop
  cases depth <;>
    · simp only [scriptFrom, List.append_assoc, hstart, List.drop_left, hstop, hrest]
      rfl

/-- The steps of a script between the common beginning and end lead over what differs, if this holds of the
scripts of its two parts. -/
theorem leads_between (hold : StandsAt old i k c) (hnew : StandsAt new j l d)
    (hpart : ∀ fewer, depth = fewer + 1 → ∀ {i j k l : ℕ} {c d : List α}, StandsAt old i k c →
      StandsAt new j l d → Leads old new i j (scriptFrom fewer k l c d) (i + c.length) (j + d.length)) :
    Leads old new i j (between depth k l c d) (i + c.length) (j + d.length) := by
  unfold between
  split_ifs with hc hd
  · subst hc
    exact leads_run_insert hold.le hnew
  · subst hd
    exact leads_run_delete hold hnew.le
  · cases depth with
    | zero => exact leads_replaced hold hnew
    | succ fewer =>
        cases hmeet : meeting? c d with
        | none => simpa only [hmeet] using leads_replaced hold hnew
        | some point =>
            obtain ⟨x, y⟩ := point
            have hfirst := hpart fewer rfl (hold.take x) (hnew.take y)
            have hsecond := hpart fewer rfl (hold.drop x) (hnew.drop y)
            rw [Nat.add_assoc, ← List.length_append, List.take_append_drop, Nat.add_assoc, ← List.length_append,
              List.take_append_drop] at hsecond
            simpa only [hmeet] using passage_append_iff.2 ⟨_, _, hfirst, hsecond⟩

/-- The script of two sequences that stand at a point leads over them, wherever the two searches meet. -/
theorem leads_scriptFrom (hold : StandsAt old i k c) (hnew : StandsAt new j l d) :
    Leads old new i j (scriptFrom depth k l c d) (i + c.length) (j + d.length) := by
  induction depth generalizing i j k l c d with
  | zero =>
      obtain ⟨start, rest, rest', stop, rfl, rfl, hstart, hstop⟩ := exists_common c d
      rw [scriptFrom_eq rfl rfl hstart hstop]
      exact leads_around hold hnew (leads_between hold.left.right hnew.left.right (by simp))
  | succ depth ih =>
      obtain ⟨start, rest, rest', stop, rfl, rfl, hstart, hstop⟩ := exists_common c d
      rw [scriptFrom_eq rfl rfl hstart hstop]
      refine leads_around hold hnew (leads_between hold.left.right hnew.left.right ?_)
      intro fewer hfewer
      obtain rfl : depth = fewer := by omega
      exact ih

/-- **The script leads from the beginnings of the two sequences to their ends.** -/
theorem leads_script (old new : List α) : Leads old new 0 0 (script old new) old.length new.length := by
  have hwhole : ∀ c : List α, StandsAt c 0 0 c := fun c => ⟨by simp, by simp, .inr rfl⟩
  simpa [script] using leads_scriptFrom (hwhole old) (hwhole new)

end Script

end DocSplice.Diff
