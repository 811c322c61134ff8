import DocSplice.Cut
import Mathlib.Data.List.Infix
import Mathlib.Data.Nat.Find

/-!
# The first and the last place

A place in a list is a way to write it as `u ++ v`. A property of the rest `v` holds at a place; `FirstPlace`
and `LastPlace` single out the outermost places at which it does, and `OnePlace` says that there is only one. The
two cuts of a list are made at the outermost places and nowhere else (`cutFirst_append`, `cutLast_append`), and
fail only where there is no such place.

A word at the head of a rest does not depend on what follows the word, so its first place survives every
change behind it (`FirstPlace.congr_rest`). A last place depends on the rest alone (`LastPlace.congr_front`).
-/
namespace DocSplice

variable {α : Type}

/-- The property holds behind `u` in `u ++ v`, and at no earlier place. -/
structure FirstPlace (P : List α → Prop) (u v : List α) : Prop where
  here : P v
  earlier : ∀ u' v', u' ++ v' = u ++ v → u'.length < u.length → ¬ P v'

/-- The property holds behind `u` in `u ++ v`, and at no later place. -/
structure LastPlace (P : List α → Prop) (u v : List α) : Prop where
  here : P v
  later : ∀ u' v', u' ++ v' = u ++ v → u.length < u'.length → ¬ P v'

/-- The property holds at exactly one place of the list. -/
def OnePlace (P : List α → Prop) (t : List α) : Prop := ∃! u, ∃ v, u ++ v = t ∧ P v

/-- Of two places in one list, the earlier one has the longer rest. -/
theorem exists_between {u v u' v' : List α} (h : u' ++ v' = u ++ v) (hl : u'.length ≤ u.length) :
    ∃ m, u = u' ++ m ∧ v' = m ++ v := by
  rcases List.append_eq_append_iff.1 h with ⟨m, hu, hv⟩ | ⟨m, hu, hv⟩
  · exact ⟨m, hu, hv⟩
  · have hm : m = [] := by
      have := congrArg List.length hu
      simp only [List.length_append] at this
      exact List.length_eq_zero_iff.1 (by omega)
    subst hm
    exact ⟨[], by simpa using hu.symm, by simpa using hv.symm⟩

section Existence

variable {P : List α → Prop}

/-- A property that holds at some place has a first one. -/
theorem exists_firstPlace {t : List α} (h : ∃ u v, u ++ v = t ∧ P v) :
    ∃ u v, u ++ v = t ∧ FirstPlace P u v := by
  classical
  have hn : ∃ n, ∃ u v, u ++ v = t ∧ P v ∧ u.length = n := by
    obtain ⟨u, v, ht, hv⟩ := h
    exact ⟨_, u, v, ht, hv, rfl⟩
  obtain ⟨u, v, ht, hv, hlength⟩ := Nat.find_spec hn
  refine ⟨u, v, ht, hv, ?_⟩
  intro u' v' h' hlt hP
  exact Nat.find_min hn (hlength ▸ hlt) ⟨u', v', h'.trans ht, hP, rfl⟩

/-- A property that holds at some place has a last one. -/
theorem exists_lastPlace {t : List α} (h : ∃ u v, u ++ v = t ∧ P v) :
    ∃ u v, u ++ v = t ∧ LastPlace P u v := by
  classical
  have hn : ∃ n, ∃ u v, u ++ v = t ∧ P v ∧ v.length = n := by
    obtain ⟨u, v, ht, hv⟩ := h
    exact ⟨_, u, v, ht, hv, rfl⟩
  obtain ⟨u, v, ht, hv, hlength⟩ := Nat.find_spec hn
  refine ⟨u, v, ht, hv, ?_⟩
  intro u' v' h' hlt hP
  have hsum := congrArg List.length h'
  simp only [List.length_append] at hsum
  exact Nat.find_min hn (by omega) ⟨u', v', h'.trans ht, hP, rfl⟩

/-- A last place is last in every list with the same rest. -/
theorem LastPlace.congr_front {u v : List α} (h : LastPlace P u v) (w : List α) : LastPlace P w v := by
  refine ⟨h.here, ?_⟩
  intro u' v' h' hlt
  obtain ⟨m, rfl, rfl⟩ := exists_between h'.symm hlt.le
  exact h.later (u ++ m) v' (by simp) (by simpa using hlt)

/-- A list has one last place. -/
theorem LastPlace.eq {u v u' v' : List α} (h : LastPlace P u v) (h' : LastPlace P u' v')
    (heq : u ++ v = u' ++ v') : u = u' ∧ v = v' := by
  refine List.append_inj heq ?_
  by_contra hne
  rcases Nat.lt_or_gt_of_ne hne with hlt | hlt
  · exact h.later u' v' heq.symm hlt h'.here
  · exact h'.later u v heq hlt h.here

theorem OnePlace.eq {t u v u' v' : List α} (h : OnePlace P t) (ht : u ++ v = t) (hv : P v) (ht' : u' ++ v' = t)
    (hv' : P v') : u = u' :=
  h.unique ⟨v, ht, hv⟩ ⟨v', ht', hv'⟩

/-- A place that is the first and the last is the only one. -/
theorem FirstPlace.onePlace {u v : List α} (hfirst : FirstPlace P u v) (hlast : LastPlace P u v) :
    OnePlace P (u ++ v) := by
  refine ⟨u, ⟨v, rfl, hfirst.here⟩, ?_⟩
  intro u' h
  obtain ⟨v', hsame, hv'⟩ := h
  have hlength : u'.length = u.length := by
    by_contra hne
    rcases Nat.lt_or_gt_of_ne hne with hlt | hlt
    · exact hfirst.earlier u' v' hsame hlt hv'
    · exact hlast.later u' v' hsame hlt hv'
  exact (List.append_inj hsame hlength).1

end Existence

/-! ## Words -/

/-- The first place of a word stays first, whatever follows the word. -/
theorem FirstPlace.congr_rest {w u v : List α} (h : FirstPlace (w <+: ·) u (w ++ v)) (v' : List α) :
    FirstPlace (w <+: ·) u (w ++ v') := by
  refine ⟨List.prefix_append w v', ?_⟩
  intro u₁ v₁ h₁ hlt hw
  obtain ⟨m, rfl, rfl⟩ := exists_between h₁ hlt.le
  have hw : w <+: m ++ w := by
    refine List.prefix_of_prefix_length_le hw ?_ (by simp)
    exact ⟨v', by simp⟩
  exact h.earlier u₁ (m ++ (w ++ v)) (by simp) hlt (hw.trans ⟨v, by simp⟩)

/-- A word stands in a list exactly where it heads some rest of it. -/
theorem infix_iff_exists_place {w t : List α} : w <:+: t ↔ ∃ u v, u ++ v = t ∧ w <+: v := by
  constructor
  · intro h
    rcases h with ⟨u, v, rfl⟩
    exact ⟨u, w ++ v, by simp, List.prefix_append w v⟩
  · intro h
    rcases h with ⟨u, v, rfl, s, rfl⟩
    exact ⟨u, s, by simp⟩

/-- A word without the element `a` ends before an `a`, or begins behind it. -/
theorem cases_of_append_eq_append_cons {u w v s t : List α} {a : α} (ha : a ∉ w)
    (h : u ++ (w ++ v) = s ++ a :: t) :
    (∃ x, s = u ++ (w ++ x)) ∨ ∃ x, t = x ++ (w ++ v) ∧ u = s ++ a :: x := by
  rcases List.append_eq_append_iff.1 h with ⟨m, rfl, hm⟩ | ⟨m, rfl, hm⟩
  · rcases List.append_eq_append_iff.1 hm with ⟨l, rfl, -⟩ | ⟨l, rfl, hl⟩
    · exact .inl ⟨l, rfl⟩
    · cases l with
      | nil => exact .inl ⟨[], by simp⟩
      | cons b l =>
          obtain ⟨rfl, -⟩ := List.cons_eq_cons.1 hl
          exact absurd (by simp) ha
  · cases m with
    | nil =>
        cases w with
        | nil => exact .inl ⟨[], by simp⟩
        | cons b w =>
            obtain ⟨rfl, -⟩ := List.cons_eq_cons.1 hm
            exact absurd List.mem_cons_self ha
    | cons b m =>
        obtain ⟨rfl, rfl⟩ := List.cons_eq_cons.1 hm
        exact .inr ⟨m, rfl, rfl⟩

/-- A word without the element `a` stands on one side of it. -/
theorem infix_append_cons_iff {w s t : List α} {a : α} (ha : a ∉ w) :
    w <:+: s ++ a :: t ↔ w <:+: s ∨ w <:+: t := by
  constructor
  · intro h'
    rcases h' with ⟨u, v, h⟩
    rw [List.append_assoc] at h
    rcases cases_of_append_eq_append_cons ha h with ⟨x, rfl⟩ | ⟨x, rfl, -⟩
    · exact .inl ⟨u, x, by simp⟩
    · exact .inr ⟨x, v, by simp⟩
  · intro h'
    rcases h' with h | h
    · exact h.trans (List.infix_append [] s _)
    · exact h.trans ⟨s ++ [a], [], by simp⟩

/-- A word is found behind elements that are not its first one. -/
theorem infix_append_left_iff {w s t v : List α} {a : α} (hw : w = a :: v) (hs : a ∉ s) :
    w <:+: s ++ t ↔ w <:+: t := by
  constructor
  · intro h
    induction s with
    | nil => exact h
    | cons b s ih =>
        obtain ⟨hb, hs⟩ := not_or.1 (List.mem_cons.not.1 hs)
        rcases List.infix_cons_iff.1 h with hhead | htail
        · rw [hw] at hhead
          obtain ⟨rest, hrest⟩ := hhead
          exact absurd (List.cons_eq_cons.1 hrest).1 hb
        · exact ih hs htail
  · intro h
    exact h.trans (List.suffix_append s t).isInfix

/-- A word is found before elements that are not its last one. -/
theorem infix_append_right_iff {w s t v : List α} {a : α} (hw : w = v ++ [a]) (ht : a ∉ t) :
    w <:+: s ++ t ↔ w <:+: s := by
  have hrev : w.reverse = a :: v.reverse := by simp [hw]
  rw [← List.reverse_infix, List.reverse_append,
    infix_append_left_iff hrev (fun h => ht (List.mem_reverse.1 h)), List.reverse_infix]

/-- A word that does not hold `a` heads no text that reaches across an `a`. -/
theorem prefix_of_prefix_append_cons {w m t : List α} {a : α} (ha : a ∉ w)
    (h : w <+: m ++ a :: t) : w <+: m := by
  by_cases hle : w.length ≤ m.length
  · exact List.prefix_of_prefix_length_le h (List.prefix_append m _) hle
  · have hlong : m ++ [a] <+: w := by
      refine List.prefix_of_prefix_length_le ⟨t, by simp⟩ h ?_
      simp only [List.length_append, List.length_singleton]
      omega
    exact absurd (hlong.subset (by simp)) ha

/-- A word that begins with its only `a` and heads a text before a further `a` ends before that. -/
theorem prefix_of_prefix_append_head {v m t : List α} {a : α} (ha : a ∉ v) (hm : m ≠ [])
    (h : a :: v <+: m ++ a :: t) : a :: v <+: m := by
  cases m with
  | nil => exact absurd rfl hm
  | cons b m =>
      obtain ⟨rfl, htail⟩ := List.cons_prefix_cons.1 h
      exact List.cons_prefix_cons.2 ⟨rfl, prefix_of_prefix_append_cons ha htail⟩

/-- Behind a text that ends in `a`, a word without `a` stands first where the text does not hold it. -/
theorem firstPlace_of_not_infix {w u : List α} {a : α} (ha : a ∉ w) (h : ¬ w <:+: u ++ [a])
    (s : List α) : FirstPlace (w <+: ·) (u ++ [a]) (w ++ s) := by
  refine ⟨List.prefix_append w s, ?_⟩
  intro u' v' hplace hlt hw
  obtain ⟨m, hu, rfl⟩ := exists_between hplace hlt.le
  rcases List.eq_nil_or_concat' m with rfl | ⟨m, b, rfl⟩
  · simp only [List.append_nil] at hu
    simp [hu] at hlt
  · have hb : b = a := by
      have := congrArg List.getLast? hu
      simpa using this.symm
    subst hb
    have hm : w <+: m := prefix_of_prefix_append_cons ha (t := w ++ s) (by simpa using hw)
    refine h (hm.isInfix.trans ?_)
    rw [hu]
    exact ⟨u', [b], by simp⟩

/-! ## Runs -/

/-- The run of an element at the head of a list, if the rest does not begin with the element. -/
theorem takeWhile_replicate_append [BEq α] [LawfulBEq α] {a : α} {r : List α} (h : r.head? ≠ some a)
    (n : ℕ) : (List.replicate n a ++ r).takeWhile (· == a) = List.replicate n a := by
  rw [List.takeWhile_append_of_pos (by simp +contextual [List.mem_replicate])]
  cases r with
  | nil => simp
  | cons b r => rw [List.takeWhile_cons_of_neg (by simpa using h), List.append_nil]

theorem dropWhile_replicate_append [BEq α] [LawfulBEq α] {a : α} {r : List α} (h : r.head? ≠ some a)
    (n : ℕ) : (List.replicate n a ++ r).dropWhile (· == a) = r := by
  have hwhole := List.takeWhile_append_dropWhile (p := (· == a)) (l := List.replicate n a ++ r)
  rw [takeWhile_replicate_append h] at hwhole
  exact List.append_cancel_left hwhole

/-- Every list is a run of the element and a rest that does not begin with it. -/
theorem exists_eq_replicate_append (a : α) (t : List α) :
    ∃ n r, t = List.replicate n a ++ r ∧ r.head? ≠ some a := by
  induction t with
  | nil => exact ⟨0, [], by simp⟩
  | cons b t ih =>
      by_cases hb : b = a
      · obtain ⟨n, r, rfl, hr⟩ := ih
        exact ⟨n + 1, r, by simp [hb, List.replicate_succ], hr⟩
      · exact ⟨0, b :: t, by simp, by simpa using hb⟩

/-! ## Cuts -/

/-- Whether a pattern fits at the head of a list. -/
def Pattern.Fits (p : Pattern α) (t : List α) : Prop := (p t).isSome

theorem Pattern.fits_iff {p : Pattern α} {t : List α} : p.Fits t ↔ ∃ n, p t = some n :=
  Option.isSome_iff_exists

theorem Pattern.not_fits_iff {p : Pattern α} {t : List α} : ¬ p.Fits t ↔ p t = none := by
  simp [Pattern.Fits]

theorem Pattern.word_eq_some_iff [BEq α] [LawfulBEq α] {w t : List α} {n : ℕ} :
    Pattern.word w t = some n ↔ w <+: t ∧ w.length = n := by
  simp [Pattern.word]

@[simp] theorem Pattern.fits_word [BEq α] [LawfulBEq α] (w : List α) :
    (Pattern.word w).Fits = (w <+: ·) := by
  funext t
  simp [Pattern.fits_iff, Pattern.word_eq_some_iff]

variable {p : Pattern α} {t u v : List α} {n : ℕ}

theorem cutFirst.go_append (seen : List α) (h : FirstPlace p.Fits u v) (hn : p v = some n) :
    go p seen (u ++ v) = some (Cut.here (u.reverse ++ seen) v n) := by
  induction u generalizing seen with
  | nil => cases v <;> simp [go, hn]
  | cons a u ih =>
      have hhead : p (a :: (u ++ v)) = none :=
        Pattern.not_fits_iff.1 (h.earlier [] _ (by simp) (by simp))
      have htail : FirstPlace p.Fits u v := by
        refine ⟨h.here, ?_⟩
        intro u' v' h' hlt
        exact h.earlier (a :: u') v' (by simp [h']) (by simpa using hlt)
      simp [go, hhead, ih (a :: seen) htail]

/-- The first cut is made at the first place where the pattern fits. -/
theorem cutFirst_append (h : FirstPlace p.Fits u v) (hn : p v = some n) :
    cutFirst p (u ++ v) = some ⟨u, v.take n, v.drop n⟩ := by
  simpa [cutFirst, Cut.here] using cutFirst.go_append [] h hn

theorem cutFirst.go_eq_none (seen : List α) (h : ∀ u v, u ++ v = t → ¬ p.Fits v) :
    go p seen t = none := by
  induction t generalizing seen with
  | nil => simp [go, Pattern.not_fits_iff.1 (h [] [] rfl)]
  | cons a t ih =>
      have hhead : p (a :: t) = none := Pattern.not_fits_iff.1 (h [] _ rfl)
      simp [go, hhead, ih (a :: seen) fun u v huv => h (a :: u) v (by simp [huv])]

/-- The first cut fails only where the pattern fits nowhere. -/
theorem cutFirst_eq_none_iff : cutFirst p t = none ↔ ∀ u v, u ++ v = t → ¬ p.Fits v := by
  constructor
  · intro h u v ht hv
    obtain ⟨u', v', rfl, hfirst⟩ := exists_firstPlace ⟨u, v, ht, hv⟩
    obtain ⟨n, hn⟩ := Pattern.fits_iff.1 hfirst.here
    simp [cutFirst_append hfirst hn] at h
  · exact cutFirst.go_eq_none []

/-- What the first cut gives. -/
theorem firstPlace_of_cutFirst {c : Cut α} (h : cutFirst p t = some c) :
    ∃ v n, t = c.before ++ v ∧ FirstPlace p.Fits c.before v ∧ p v = some n ∧
      c.hit = v.take n ∧ c.after = v.drop n := by
  have hfits : ∃ u v, u ++ v = t ∧ p.Fits v := by
    by_contra hnone
    push Not at hnone
    simp [cutFirst_eq_none_iff.2 hnone] at h
  obtain ⟨u, v, rfl, hfirst⟩ := exists_firstPlace hfits
  obtain ⟨n, hn⟩ := Pattern.fits_iff.1 hfirst.here
  obtain rfl := Option.some.inj (h.symm.trans (cutFirst_append hfirst hn))
  exact ⟨v, n, rfl, hfirst, hn, rfl, rfl⟩

theorem cutLast.go_eq_map (best : Option (List α × List α × ℕ)) (seen : List α)
    (h : ∀ u v, u ++ v = t → ¬ p.Fits v) :
    go p best seen t = best.map fun b => Cut.here b.1 b.2.1 b.2.2 := by
  induction t generalizing best seen with
  | nil => simp [go, Pattern.not_fits_iff.1 (h [] [] rfl)]
  | cons a t ih =>
      have hhead : p (a :: t) = none := Pattern.not_fits_iff.1 (h [] _ rfl)
      simp [go, hhead, ih best (a :: seen) fun u v huv => h (a :: u) v (by simp [huv])]

theorem cutLast.go_append (best : Option (List α × List α × ℕ)) (seen : List α)
    (h : LastPlace p.Fits u v) (hn : p v = some n) :
    go p best seen (u ++ v) = some (Cut.here (u.reverse ++ seen) v n) := by
  induction u generalizing best seen with
  | nil =>
      cases v with
      | nil => simp [go, hn]
      | cons c r =>
          have hnone : ∀ u v, u ++ v = r → ¬ p.Fits v := by
            intro u v huv
            exact h.later (c :: u) v (by simp [huv]) (by simp)
          simp [go, hn, cutLast.go_eq_map _ _ hnone]
  | cons a u ih =>
      have htail : LastPlace p.Fits u v := h.congr_front u
      simp [go, ih _ (a :: seen) htail]

/-- The last cut is made at the last place where the pattern fits. -/
theorem cutLast_append (h : LastPlace p.Fits u v) (hn : p v = some n) :
    cutLast p (u ++ v) = some ⟨u, v.take n, v.drop n⟩ := by
  simpa [cutLast, Cut.here] using cutLast.go_append none [] h hn

/-- The last cut fails only where the pattern fits nowhere. -/
theorem cutLast_eq_none_iff : cutLast p t = none ↔ ∀ u v, u ++ v = t → ¬ p.Fits v := by
  constructor
  · intro h u v ht hv
    obtain ⟨u', v', rfl, hlast⟩ := exists_lastPlace ⟨u, v, ht, hv⟩
    obtain ⟨n, hn⟩ := Pattern.fits_iff.1 hlast.here
    simp [cutLast_append hlast hn] at h
  · intro h
    exact cutLast.go_eq_map none [] h

/-- What the last cut gives. -/
theorem lastPlace_of_cutLast {c : Cut α} (h : cutLast p t = some c) :
    ∃ v n, t = c.before ++ v ∧ LastPlace p.Fits c.before v ∧ p v = some n ∧
      c.hit = v.take n ∧ c.after = v.drop n := by
  have hfits : ∃ u v, u ++ v = t ∧ p.Fits v := by
    by_contra hnone
    push Not at hnone
    simp [cutLast_eq_none_iff.2 hnone] at h
  obtain ⟨u, v, rfl, hlast⟩ := exists_lastPlace hfits
  obtain ⟨n, hn⟩ := Pattern.fits_iff.1 hlast.here
  obtain rfl := Option.some.inj (h.symm.trans (cutLast_append hlast hn))
  exact ⟨v, n, rfl, hlast, hn, rfl, rfl⟩

/-- A pattern fits at one place if the first cut is the last one. -/
theorem onePlace_of_cuts {c : Cut α} (hfirst : cutFirst p t = some c) (hlast : cutLast p t = some c) :
    OnePlace p.Fits t := by
  obtain ⟨v, n, rfl, hf, -⟩ := firstPlace_of_cutFirst hfirst
  obtain ⟨v', n', hsame, hl, -⟩ := lastPlace_of_cutLast hlast
  obtain rfl := List.append_cancel_left hsame
  exact hf.onePlace hl

end DocSplice
