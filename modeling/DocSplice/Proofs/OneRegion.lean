import DocSplice.Proofs.OpeningLine

/-!
# Documents with one region

Where a document holds one opening word and one closing, an opening line before the closing is the one that the
stacking policy finds (`LastSplit.of_onePlace`), and a strict opening ends this line. So the two policies then work on
the same region. They differ in two things only: the stacking policy counts the line feeds behind the opening line to
the opening and not to the body, and it writes the opening twice.
-/
namespace DocSplice

/-- No line begins inside another one. -/
theorem Text.EndsLine.length_le {u v a b : Text} (hu : EndsLine u) (h : u ++ a = v ++ b) (hb : '\n' ∉ b) :
    u.length ≤ v.length := by
  by_contra hlt
  obtain ⟨m, rfl, rfl⟩ := exists_between h.symm (by omega)
  rcases hu.of_append with rfl | ⟨m, rfl⟩
  · simp at hlt
  · simp at hb

open Marker

namespace Sections

variable {t front front' line line' rest rest' P l R E S : Text} {k : ℕ}

/-- With one opening word, no opening line begins behind another one. -/
theorem length_le_of_onePlace (hword : OnePlace (openingWord <+: ·) t) (h : OpeningLine t front line rest)
    (h' : OpeningLine t front' line' rest') : front'.length ≤ front.length := by
  obtain ⟨a, b, hline⟩ := h.holds
  obtain ⟨a', b', hline'⟩ := h'.holds
  have hplace : (front ++ a) ++ (openingWord ++ (b ++ '\n' :: rest)) = t := by
    rw [h.whole, ← hline]
    simp
  have hplace' : (front' ++ a') ++ (openingWord ++ (b' ++ '\n' :: rest')) = t := by
    rw [h'.whole, ← hline']
    simp
  have hsame : front' ++ a' = front ++ a :=
    hword.eq hplace' (List.prefix_append _ _) hplace (List.prefix_append _ _)
  have ha : '\n' ∉ a := by
    intro hmem
    apply h.single
    simp [← hline, hmem]
  exact h'.begins.length_le hsame ha

/-- The only opening line and the only closing, in this order, make the last split. -/
theorem LastSplit.of_onePlace (hword : OnePlace (openingWord <+: ·) t) (hclosing : OnePlace ClosesAt t)
    (hline : OpeningLine t P l (List.replicate k '\n' ++ R ++ E ++ S)) (hE : IsClosing E)
    (hR : R.head? ≠ some '\n') : LastSplit t P l k R E S := by
  have hsplit : t = P ++ stacked l k ++ R ++ E ++ S := by
    rw [hline.whole]
    simp [stacked, List.replicate_succ]
  refine ⟨hsplit, hline.begins, hline.single, hline.holds, hR, hE, ?_, ?_⟩
  · intro front' line' h
    rcases h with ⟨rest', hline', -⟩
    exact length_le_of_onePlace hword hline hline'
  · intro u e s hu he
    have hu' : u ++ (e ++ s) = t := by simp [hu]
    have hE' : (P ++ stacked l k ++ R) ++ (E ++ S) = t := by simp [hsplit]
    exact (congrArg List.length (hclosing.eq hu' ⟨e, s, he, rfl⟩ hE' ⟨E, S, hE, rfl⟩)).le

end Sections

namespace Splice

open Sections

/-- **The policies agree on where the examples are.** The stacking policy finds the markers wherever the replacing
policy does. In a document with one opening word and one closing they find the same region; of its line feeds at the
beginning the stacking policy makes a part of the opening, which it writes twice. -/
theorem policies_agree (document : Text) :
    ((Policy.replacing.sections? document).isSome → (Policy.stacking.sections? document).isSome) ∧
    ∀ k rest, Policy.replacing.body? document = some (List.replicate k '\n' ++ rest) → rest.head? ≠ some '\n' →
      OnePlace (openingWord <+: ·) document → OnePlace ClosesAt document →
      Policy.stacking.body? document = some rest ∧
      ∃ P line S, OpeningLine document P line (List.replicate k '\n' ++ rest ++ closingHead ++ S) ∧ ∀ block,
        (make .replacing document block).content = P ++ (line ++ ['\n']) ++ block ++ closingHead ++ S ∧
        (make .stacking document block).content = P ++ (line ++ ['\n']) ++ List.replicate k '\n'
          ++ (line ++ ['\n']) ++ List.replicate k '\n' ++ block ++ closingHead ++ S := by
  refine ⟨isSome_loose?_of_isSome_strict?, ?_⟩
  intro k rest hbody hrest hword hclosing
  obtain ⟨c, hc, hregion⟩ := Option.map_eq_some_iff.1 hbody
  obtain ⟨hopening, hclosingHead, hsplit⟩ := strict?_eq_some_iff.1 hc
  obtain ⟨P, line, hend, hline⟩ := hsplit.split.exists_openingLine
  rw [hregion] at hline
  have hlast := LastSplit.of_onePlace hword hclosing hline isClosing_closingHead hrest
  have hsections : Policy.stacking.sections? document = some ⟨P, stacked line k, rest, closingHead, c.after⟩ :=
    hlast.loose?
  refine ⟨?_, P, line, c.after, hline, ?_⟩
  · rw [Policy.body?, hsections]
    rfl
  · intro block
    refine ⟨?_, ?_⟩
    · rw [make_eq_of_some hc]
      simp only [Policy.fill, hopening, hclosingHead, ← hend]
      simp
    · rw [make_eq_of_some hsections]
      simp [Policy.fill, stacked, List.replicate_succ]

/-- A document whose opening stands in the middle of a line. -/
def midlineDocument : Text := "# A BEGIN EXAMPLES -->\n\n\nold\n<!-- END EXAMPLES -->\n".toList

/-- The policies agree on this document. -/
theorem policies_agree_midline :
    Policy.stacking.body? midlineDocument = some "old\n".toList ∧
    ∃ P line S, OpeningLine midlineDocument P line (List.replicate 2 '\n' ++ "old\n".toList ++ closingHead ++ S) ∧
      ∀ block,
      (make .replacing midlineDocument block).content = P ++ (line ++ ['\n']) ++ block ++ closingHead ++ S ∧
      (make .stacking midlineDocument block).content =
        P ++ (line ++ ['\n']) ++ List.replicate 2 '\n' ++ (line ++ ['\n']) ++ List.replicate 2 '\n' ++ block
          ++ closingHead ++ S := by
  have hword : cutFirst (.word openingWord) midlineDocument =
      some ⟨"# A ".toList, openingWord, " -->\n\n\nold\n<!-- END EXAMPLES -->\n".toList⟩ ∧
      cutLast (.word openingWord) midlineDocument =
      some ⟨"# A ".toList, openingWord, " -->\n\n\nold\n<!-- END EXAMPLES -->\n".toList⟩ := by decide +kernel
  have hclosing : cutFirst looseClosing midlineDocument =
      some ⟨"# A BEGIN EXAMPLES -->\n\n\nold\n".toList, closingHead, " -->\n".toList⟩ ∧
      cutLast looseClosing midlineDocument =
      some ⟨"# A BEGIN EXAMPLES -->\n\n\nold\n".toList, closingHead, " -->\n".toList⟩ := by decide +kernel
  have honeWord := onePlace_of_cuts hword.1 hword.2
  have honeClosing := onePlace_of_cuts hclosing.1 hclosing.2
  rw [Pattern.fits_word] at honeWord
  rw [fits_looseClosing] at honeClosing
  exact (policies_agree _).2 2 "old\n".toList (by decide +kernel) (by decide) honeWord honeClosing

end Splice
end DocSplice
