import DocSplice.Text.Line
import Mathlib.Data.List.Infix

/-!
# Lines of a text

A text is empty, one unterminated line, or a terminated line and a text behind it. `line_induction` follows
this shape, and `pieces` and `lines` have one equation for each case. A text that ends its last line (`EndsLine`)
may be joined to another one without joining two pieces, and every piece stands behind such a text.
-/
namespace DocSplice.Text

/-- The text is empty or ends in a line feed, so that a line begins behind it. -/
def EndsLine (t : Text) : Prop := t = [] ∨ ∃ u, t = u ++ ['\n']

theorem endsLine_nil : EndsLine [] := .inl rfl

/-- Behind a terminated line, a line begins. -/
theorem endsLine_append_cons (l : Text) {t : Text} (h : EndsLine t) : EndsLine (l ++ '\n' :: t) := by
  rcases h with rfl | ⟨u, rfl⟩
  · exact .inr ⟨l, rfl⟩
  · exact .inr ⟨l ++ '\n' :: u, by simp⟩

/-- The rest of a text that ends its last line ends it as well. -/
theorem EndsLine.of_append {s t : Text} (h : EndsLine (s ++ t)) : EndsLine t := by
  rcases List.eq_nil_or_concat' t with rfl | ⟨u, c, rfl⟩
  · exact endsLine_nil
  · rcases h with h | ⟨v, h⟩
    · simp at h
    · rw [← List.append_assoc] at h
      exact .inr ⟨u, by rw [(List.append_inj' h rfl).2]⟩

/-- What stands before a text that ends its last line does not matter. -/
theorem EndsLine.append_left {t : Text} (h : EndsLine t) (hne : t ≠ []) (s : Text) : EndsLine (s ++ t) := by
  obtain ⟨u, rfl⟩ := h.resolve_left hne
  exact .inr ⟨s ++ u, by simp⟩

/-- Induction on the lines of a text. -/
theorem line_induction {P : Text → Prop} (nil : P []) (rest : ∀ l, l ≠ [] → '\n' ∉ l → P l)
    (line : ∀ l t, '\n' ∉ l → P t → P (l ++ '\n' :: t)) (t : Text) : P t := by
  generalize hn : t.length = n
  induction n using Nat.strong_induction_on generalizing t with
  | _ n ih =>
    by_cases hline : '\n' ∈ t
    · obtain ⟨l, r, rfl, hl⟩ := List.eq_append_cons_of_mem hline
      have hr : r.length < n := by simp at hn; omega
      exact line l r hl (ih r.length hr r rfl)
    · by_cases ht : t = []
      · exact ht ▸ nil
      · exact rest t ht hline

/-- A text is its ended lines and a last line, which may be empty. -/
theorem exists_lastLine (t : Text) : ∃ front l, t = front ++ l ∧ EndsLine front ∧ '\n' ∉ l := by
  induction t using line_induction with
  | nil => exact ⟨[], [], rfl, endsLine_nil, by simp⟩
  | rest l _ h => exact ⟨[], l, rfl, endsLine_nil, h⟩
  | line l t _ ih =>
      obtain ⟨front, last, rfl, hends, hlast⟩ := ih
      exact ⟨l ++ '\n' :: front, last, by simp, endsLine_append_cons l hends, hlast⟩

/-! ## Pieces -/

theorem pieces.go_eq_append (done : List Text) (piece t : Text) :
    go done piece t = done.reverse ++ go [] piece t := by
  induction t generalizing done piece with
  | nil => by_cases h : piece = [] <;> simp [go, h]
  | cons c r ih =>
      by_cases h : c = '\n'
      · rw [go, if_pos h, go, if_pos h, ih, ih [_]]
        simp
      · rw [go, if_neg h, go, if_neg h, ih]

theorem pieces.go_append {l : Text} (h : '\n' ∉ l) (done : List Text) (piece t : Text) :
    go done piece (l ++ t) = go done (l.reverse ++ piece) t := by
  induction l generalizing piece with
  | nil => rfl
  | cons c l ih =>
      obtain ⟨hc, hl⟩ := not_or.1 (List.mem_cons.not.1 h)
      simp [go, Ne.symm hc, ih hl]

@[simp] theorem pieces_nil : pieces [] = [] := rfl

/-- An unterminated line is one piece. -/
theorem pieces_of_not_mem {l : Text} (hl : l ≠ []) (h : '\n' ∉ l) : pieces l = [l] := by
  have := pieces.go_append h [] [] []
  simpa [pieces, pieces.go, hl] using this

/-- A terminated line is a piece, with its line feed. -/
theorem pieces_append_cons {l : Text} (h : '\n' ∉ l) (t : Text) :
    pieces (l ++ '\n' :: t) = (l ++ ['\n']) :: pieces t := by
  rw [pieces, pieces.go_append h, pieces.go, if_pos rfl, pieces.go_eq_append]
  simp [pieces]

/-- No piece reaches across the beginning of a line. -/
theorem pieces_append {s : Text} (hs : EndsLine s) (t : Text) :
    pieces (s ++ t) = pieces s ++ pieces t := by
  induction s using line_induction with
  | nil => rfl
  | rest l hl h =>
      obtain rfl | ⟨u, rfl⟩ := hs
      · exact absurd rfl hl
      · simp at h
  | line l s h ih =>
      have hs : EndsLine s := EndsLine.of_append (s := l ++ ['\n']) (by simpa using hs)
      simp [pieces_append_cons h, ih hs]

/-- Every piece is a line that begins where the text before it ends one, and only the last piece may lack
its line feed. -/
theorem of_pieces_eq {t x : Text} {a b : List Text} (h : pieces t = a ++ x :: b) :
    EndsLine a.flatten ∧ ∃ l, '\n' ∉ l ∧ (x = l ++ ['\n'] ∨ x = l ∧ b = []) := by
  induction t using line_induction generalizing a with
  | nil => simp at h
  | rest l hl hmem =>
      rw [pieces_of_not_mem hl hmem] at h
      obtain ⟨rfl, rfl, rfl⟩ : a = [] ∧ x = l ∧ b = [] := by
        cases a <;> simp_all
      exact ⟨endsLine_nil, x, hmem, .inr ⟨rfl, rfl⟩⟩
  | line l t hmem ih =>
      rw [pieces_append_cons hmem] at h
      cases a with
      | nil =>
          obtain ⟨rfl, -⟩ := List.cons_eq_cons.1 h
          exact ⟨endsLine_nil, l, hmem, .inl rfl⟩
      | cons y a =>
          obtain ⟨rfl, htail⟩ := List.cons_eq_cons.1 h
          obtain ⟨hends, hx⟩ := ih htail
          refine ⟨?_, hx⟩
          simpa using endsLine_append_cons l hends

/-! ## Lines without their terminators -/

/-- A terminated line loses its line feed, and a carriage return directly before that. -/
theorem chomp_append (l : Text) :
    chomp (l ++ ['\n']) = if l.getLast? = some '\r' then l.dropLast else l := by
  rcases List.eq_nil_or_concat' l with rfl | ⟨l, a, rfl⟩
  · rfl
  · by_cases ha : a = '\r'
    · simp [chomp, ha]
    · rw [chomp]
      split
      · next r h => simp_all
      · next r h => simp_all
      · next h => simp at h

/-- An unterminated line is not changed. -/
theorem chomp_of_not_mem {l : Text} (h : '\n' ∉ l) : chomp l = l := by
  have hrev : '\n' ∉ l.reverse := fun hmem => h (List.mem_reverse.1 hmem)
  rw [chomp]
  split
  · next r heq => simp [heq] at hrev
  · next r heq => simp [heq] at hrev
  · rfl

@[simp] theorem lines_nil : lines [] = [] := rfl

theorem lines_of_not_mem {l : Text} (hl : l ≠ []) (h : '\n' ∉ l) : lines l = [l] := by
  rw [lines, pieces_of_not_mem hl h, List.map_singleton, chomp_of_not_mem h]

theorem lines_append_cons {l : Text} (h : '\n' ∉ l) (t : Text) :
    lines (l ++ '\n' :: t) = chomp (l ++ ['\n']) :: lines t := by
  rw [lines, pieces_append_cons h, List.map_cons, lines]

/-- No line holds a line feed. -/
theorem lineFeed_not_mem_of_mem_lines {t l : Text} (h : l ∈ lines t) : '\n' ∉ l := by
  induction t using line_induction with
  | nil => cases h
  | rest r hr hmem =>
      rw [lines_of_not_mem hr hmem, List.mem_singleton] at h
      rwa [h]
  | line r t hmem ih =>
      rw [lines_append_cons hmem, List.mem_cons] at h
      rcases h with rfl | h
      · rw [chomp_append]
        split
        · exact fun hlast => hmem (List.mem_of_mem_dropLast hlast)
        · exact hmem
      · exact ih h

/-- The lines of a text hold what the text holds. -/
theorem subset_of_mem_lines {t l : Text} (h : l ∈ lines t) : l ⊆ t := by
  induction t using line_induction with
  | nil => cases h
  | rest r hr hmem =>
      rw [lines_of_not_mem hr hmem, List.mem_singleton] at h
      exact h ▸ List.Subset.refl _
  | line r t hmem ih =>
      rw [lines_append_cons hmem, List.mem_cons] at h
      rcases h with rfl | h
      · refine List.Subset.trans ?_ (List.subset_append_left _ _)
        rw [chomp_append]
        split
        · exact List.dropLast_subset r
        · exact List.Subset.refl r
      · have hrest : t ⊆ r ++ '\n' :: t := List.subset_append_of_subset_right r (List.subset_cons_self _ t)
        exact List.Subset.trans (ih h) hrest

end DocSplice.Text
