import DocSplice.Marker
import DocSplice.Proofs.Line
import DocSplice.Proofs.Place

/-!
# Marker texts

What the loose markers fit, said without the way in which they are looked for. A closing is `<!-`, one dash
or more, and the closing word (`IsClosing`); the pattern takes all of it (`looseClosing_eq_some_iff`). An
opening line is a whole line that holds the words of an opening (`OpeningLine`). The strict markers are loose
markers as well.
-/
namespace DocSplice.Marker

/-- A closing comment up to its last word: two dashes or more, and the word. -/
def IsClosing (t : Text) : Prop :=
  ∃ n, t = "<!-".toList ++ List.replicate (n + 1) '-' ++ closingWord

/-- The text begins with a closing. -/
def ClosesAt (t : Text) : Prop := ∃ e s, IsClosing e ∧ e ++ s = t

/-- A closing stands somewhere in the text. -/
def Closes (t : Text) : Prop := ∃ u v, u ++ v = t ∧ ClosesAt v

theorem closes_of_isClosing {e : Text} (he : IsClosing e) (u s : Text) : Closes (u ++ e ++ s) :=
  ⟨u, e ++ s, by simp, e, s, he, rfl⟩

theorem closingWord_eq : closingWord = ' ' :: "END EXAMPLES".toList := by decide

/-- How the loose closing reads a text behind its first two dashes. -/
theorem looseClosing_dashes {r : Text} (h : r.head? ≠ some '-') (n : ℕ) :
    looseClosing ('<' :: '!' :: '-' :: '-' :: (List.replicate n '-' ++ r))
      = if closingWord <+: r then some (4 + n + closingWord.length) else none := by
  simp only [looseClosing, takeWhile_replicate_append h, List.length_replicate,
    List.isPrefixOf_iff_prefix]
  rw [List.drop_left' (List.length_replicate ..)]

theorem head?_ne_dash {r : Text} (h : closingWord <+: r) : r.head? ≠ some '-' := by
  obtain ⟨s, rfl⟩ := h
  rw [closingWord_eq]
  simp

/-- A closing, spelt out to its first two dashes. -/
theorem isClosing_iff {e : Text} :
    IsClosing e ↔ ∃ n, e = '<' :: '!' :: '-' :: '-' :: (List.replicate n '-' ++ closingWord) := by
  simp [IsClosing, List.replicate_succ]

/-- The loose closing takes a closing, and nothing else. -/
theorem looseClosing_eq_some_iff {t : Text} {n : ℕ} :
    looseClosing t = some n ↔ ∃ e s, IsClosing e ∧ e ++ s = t ∧ e.length = n := by
  constructor
  · intro h
    unfold looseClosing at h
    split at h
    · next r =>
      change looseClosing ('<' :: '!' :: '-' :: '-' :: r) = some n at h
      obtain ⟨k, r, rfl, hr⟩ := exists_eq_replicate_append '-' r
      rw [looseClosing_dashes hr] at h
      split at h
      · next hword =>
        obtain ⟨s, rfl⟩ := hword
        refine ⟨_, s, isClosing_iff.2 ⟨k, rfl⟩, by simp, ?_⟩
        simp at h ⊢
        omega
      · cases h
    · cases h
  · intro h
    rcases h with ⟨e, s, he, rfl, rfl⟩
    obtain ⟨k, rfl⟩ := isClosing_iff.1 he
    have hword : closingWord <+: closingWord ++ s := List.prefix_append closingWord s
    have hlength : ('<' :: '!' :: '-' :: '-' :: (List.replicate k '-' ++ closingWord)).length
        = 4 + k + closingWord.length := by
      simp
      omega
    rw [hlength, List.cons_append, List.cons_append, List.cons_append, List.cons_append,
      List.append_assoc, looseClosing_dashes (head?_ne_dash hword), if_pos hword]

/-- A text begins with one closing at most. -/
theorem IsClosing.eq_of_append {e e' s s' : Text} (he : IsClosing e) (he' : IsClosing e')
    (h : e ++ s = e' ++ s') : e = e' := by
  have hread := looseClosing_eq_some_iff.2 ⟨e, s, he, rfl, rfl⟩
  have hread' := looseClosing_eq_some_iff.2 ⟨e', s', he', rfl, rfl⟩
  rw [h, hread', Option.some.injEq] at hread
  exact (List.append_inj h hread.symm).1

@[simp] theorem fits_looseClosing : looseClosing.Fits = ClosesAt := by
  funext t
  rw [eq_iff_iff, Pattern.fits_iff]
  constructor
  · intro h
    rcases h with ⟨n, hn⟩
    obtain ⟨e, s, he, rfl, -⟩ := looseClosing_eq_some_iff.1 hn
    exact ⟨e, s, he, rfl⟩
  · intro h
    rcases h with ⟨e, s, he, rfl⟩
    exact ⟨e.length, looseClosing_eq_some_iff.2 ⟨e, s, he, rfl, rfl⟩⟩

/-! ## Strict markers -/

theorem openingWord_begins : openingWord <+: openingTail := by
  rw [← List.isPrefixOf_iff_prefix]
  decide

theorem isClosing_closingHead : IsClosing closingHead := ⟨0, by decide⟩

/-! ## Opening lines -/

/-- A whole line of the text that holds the words of an opening: what stands before it, the line without
its line feed, and what follows the line feed. -/
structure OpeningLine (t front line rest : Text) : Prop where
  whole : t = front ++ line ++ '\n' :: rest
  begins : Text.EndsLine front
  single : '\n' ∉ line
  holds : openingWord <:+: line

/-- An opening line stays one, whatever is added behind the text. -/
theorem OpeningLine.append {t front line rest : Text} (h : OpeningLine t front line rest) (s : Text) :
    OpeningLine (t ++ s) front line (rest ++ s) :=
  ⟨by simp [h.whole], h.begins, h.single, h.holds⟩

/-- A piece is an opening line where it is a line that holds the words, with its line feed. -/
theorem isOpeningLine_append_iff {line : Text} :
    isOpeningLine (line ++ ['\n']) = true ↔ openingWord <:+: line := by
  have hcut : (cutFirst (.word openingWord) (line ++ ['\n'])).isSome ↔ openingWord <:+: line ++ ['\n'] := by
    rw [Option.isSome_iff_ne_none, Ne, cutFirst_eq_none_iff, infix_iff_exists_place]
    simp
  have hline : openingWord <:+: line ++ ['\n'] ↔ openingWord <:+: line := by
    rw [infix_append_cons_iff (by decide), List.infix_nil]
    exact or_iff_left (by decide)
  simp [isOpeningLine, hcut, hline]

/-- A piece that is an opening line ends in a line feed. -/
theorem getLast?_of_isOpeningLine {piece : Text} (h : isOpeningLine piece = true) :
    piece.getLast? = some '\n' := by
  simp only [isOpeningLine, Bool.and_eq_true, beq_iff_eq] at h
  exact h.1

/-- The pieces that are opening lines are the opening lines of the text. -/
theorem openingLine_of_pieces {t x : Text} {a b : List Text} (h : Text.pieces t = a ++ x :: b)
    (hx : isOpeningLine x = true) : ∃ line, x = line ++ ['\n'] ∧ OpeningLine t a.flatten line b.flatten := by
  obtain ⟨hbegins, line, hline, hshape⟩ := Text.of_pieces_eq h
  have hlast := getLast?_of_isOpeningLine hx
  obtain rfl : x = line ++ ['\n'] := by
    rcases hshape with rfl | ⟨rfl, -⟩
    · rfl
    · exact absurd (List.mem_of_getLast? hlast) hline
  refine ⟨line, rfl, ?_, hbegins, hline, isOpeningLine_append_iff.1 hx⟩
  have := congrArg List.flatten h
  simpa using this

end DocSplice.Marker
