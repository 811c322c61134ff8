import DocSplice.Proofs.Name

/-!
# The last name of a path

A path that is cut at a slash has the steps of both parts (`steps_append_slash`). What stands idle at the end of a
path are steps to nowhere (`exists_steps_dropIdleEnd`), so that its file name is its last step up to these
(`exists_steps_of_fileName?`), and a path whose last step is a name has it as its file name
(`fileName?_of_getLast?_steps`). With another file name, a path ends in this name (`getLast?_steps_withFileName`).
-/
namespace DocSplice.NativePath

variable {path : NativePath} {n : Octets}

/-! ## Cutting a path -/

theorem parts.go_append_slash (done : List Octets) (part a b : Octets) :
    go done part (a ++ slash :: b) = go done part a ++ parts b := by
  induction a generalizing done part with
  | nil =>
      have hslash : go done part (slash :: b) = go (part.reverse :: done) [] b := by rw [go, if_pos rfl]
      rw [List.nil_append, hslash, go_eq_append, go, parts]
  | cons c a ih =>
      rw [List.cons_append]
      by_cases hc : c = slash
      · rw [go, if_pos hc, go, if_pos hc, ih]
      · rw [go, if_neg hc, go, if_neg hc, ih]

/-- A path has the steps of what stands before a slash and of what stands behind it. -/
theorem steps_append_slash (a b : NativePath) : steps (a ++ slash :: b) = steps a ++ steps b := by
  rw [steps, parts, parts.go_append_slash, List.filter_append, List.map_append]
  rfl

@[simp] theorem steps_nil : steps [] = [] := rfl

/-- A slash at the end is no step. -/
theorem steps_append_singleton_slash (a : NativePath) : steps (a ++ [slash]) = steps a := by
  rw [steps_append_slash, steps_nil, List.append_nil]

/-- A stretch without slashes is one step. -/
theorem steps_of_not_mem {part : Octets} (hne : part ≠ []) (h : slash ∉ part) : steps part = [Step.ofPart part] := by
  simp [steps, parts_of_not_mem h, hne]

theorem IsName.steps (h : IsName n) : NativePath.steps n = [.name n] := by
  rw [steps_of_not_mem h.ne_nil h.slash_not_mem, h.ofPart]

/-- The path to an entry of a directory has one step more. -/
theorem steps_join (path : NativePath) (h : IsName n) : (join path n).steps = path.steps ++ [.name n] := by
  rw [join]
  split_ifs with hnil hslash
  · simp [hnil, h.steps]
  · obtain ⟨above, rfl⟩ : ∃ above, path = above ++ [slash] := by
      simpa [endsInSlash, List.getLast?_eq_some_iff] using hslash
    rw [List.append_assoc, List.singleton_append, steps_append_slash, steps_append_singleton_slash, h.steps]
  · rw [steps_append_slash, h.steps]

/-! ## What stands idle at the end -/

/-- What stands idle at the end of a path are steps to nowhere. -/
theorem exists_steps_dropIdleEnd (r : Octets) :
    ∃ k, steps r.reverse = steps (dropIdleEnd r).reverse ++ List.replicate k .here := by
  induction r with
  | nil => exact ⟨0, rfl⟩
  | cons b rest ih =>
      obtain ⟨k, ih⟩ := ih
      rw [dropIdleEnd, List.reverse_cons]
      split_ifs with hslash hrest hdot
      · exact ⟨0, by simp [hrest]⟩
      · exact ⟨k, by rw [hslash, steps_append_singleton_slash, ih]⟩
      · obtain ⟨rfl, hhead⟩ := hdot
        obtain ⟨above, rfl⟩ := List.head?_eq_some_iff.1 hhead
        have hdotStep : steps [dot] = [.here] := by decide
        refine ⟨k + 1, ?_⟩
        rw [List.reverse_cons, steps_append_singleton_slash] at ih
        rw [List.reverse_cons, List.append_assoc, List.singleton_append, steps_append_slash, ih, hdotStep,
          List.replicate_succ', List.append_assoc]
      · exact ⟨0, by simp⟩

theorem dropIdleEnd_suffix (r : Octets) : dropIdleEnd r <:+ r := by
  induction r with
  | nil => exact List.suffix_rfl
  | cons b rest ih =>
      rw [dropIdleEnd]
      split_ifs with hslash hrest hdot
      · exact hrest ▸ List.suffix_rfl
      · exact ih.trans (List.suffix_cons b rest)
      · exact ih.trans (List.suffix_cons b rest)
      · exact List.suffix_rfl

/-- Only the root is left with a slash at its end. -/
theorem eq_nil_of_dropIdleEnd {r rest : Octets} (h : dropIdleEnd r = slash :: rest) : rest = [] := by
  induction r with
  | nil => cases h
  | cons b r ih =>
      rw [dropIdleEnd] at h
      split_ifs at h with hslash hr hdot
      · exact (List.cons_eq_cons.1 h).2.symm
      · exact ih h
      · exact ih h
      · exact absurd (List.cons_eq_cons.1 h).1 hslash

/-! ## The last name -/

/-- A sequence of octets cut at its first slash. -/
theorem exists_span (r : Octets) : ∃ l rest, r.span (· ≠ slash) = (l, rest) ∧ r = l ++ rest ∧ slash ∉ l ∧
    (rest = [] ∨ ∃ d, rest = slash :: d) := by
  refine ⟨_, _, List.span_eq_takeWhile_dropWhile _ _, List.takeWhile_append_dropWhile.symm, ?_, ?_⟩
  · induction r with
    | nil => simp
    | cons b r ih =>
        rw [List.takeWhile_cons]
        split
        · next hb => simpa [Ne.symm (of_decide_eq_true hb)] using ih
        · simp
  · induction r with
    | nil => exact .inl rfl
    | cons b r ih =>
        rw [List.dropWhile_cons]
        split
        · exact ih
        · next hb => exact .inr ⟨r, by simpa using hb⟩

/-- A path cut before its last name, with what stands idle behind it. -/
theorem exists_splitLast (path : NativePath) : ∃ last above : Octets,
    splitLast path = (last.reverse, above.reverse) ∧ dropIdleEnd path.reverse = last.reverse ++ above.reverse ∧
      slash ∉ last ∧ (above = [] ∨ ∃ dir, above = dir ++ [slash]) := by
  obtain ⟨l, rest, hspan, hstem, hslash, hrest⟩ := exists_span (dropIdleEnd path.reverse)
  refine ⟨l.reverse, rest.reverse, by simpa [splitLast] using hspan, by simpa using hstem, by simpa using hslash, ?_⟩
  rcases hrest with rfl | ⟨d, rfl⟩
  · exact .inl rfl
  · exact .inr ⟨d.reverse, by simp⟩

/-- The steps of a path, read from its cut before the last name. -/
theorem exists_steps_of_splitLast {last above : Octets} (hsplit : splitLast path = (last.reverse, above.reverse))
    (hstem : dropIdleEnd path.reverse = last.reverse ++ above.reverse)
    (habove : above = [] ∨ ∃ dir, above = dir ++ [slash]) :
    ∃ k k', path.steps = (parent path).steps ++ List.replicate k .here ++ steps last ++ List.replicate k' .here := by
  obtain ⟨k', hpath⟩ := exists_steps_dropIdleEnd path.reverse
  obtain ⟨k, hdir⟩ := exists_steps_dropIdleEnd above.reverse
  have hparent : (dropIdleEnd above.reverse).reverse = parent path := by rw [parent, hsplit]
  rw [List.reverse_reverse, hparent] at hdir
  rw [List.reverse_reverse, hstem, List.reverse_append, List.reverse_reverse, List.reverse_reverse] at hpath
  refine ⟨k, k', ?_⟩
  rw [hpath, ← hdir]
  rcases habove with rfl | ⟨dir, rfl⟩
  · simp
  · rw [List.append_assoc, List.singleton_append, steps_append_slash, steps_append_singleton_slash]

/-- What is a file name is the last part of a path, and no full stop or two. -/
theorem fileName?_eq_some_iff {last above : Octets} (hsplit : splitLast path = (last.reverse, above.reverse)) :
    fileName? path = some n ↔ last = n ∧ n ≠ [] ∧ n ≠ [dot] ∧ n ≠ [dot, dot] := by
  have hlast : (splitLast path).1.reverse = last := by rw [hsplit, List.reverse_reverse]
  simp only [fileName?, hlast]
  split_ifs with h
  · simp only [false_iff, not_and]
    intro heq
    subst heq
    tauto
  · simp only [not_or] at h
    simp only [Option.some.injEq]
    constructor
    · intro heq
      subst heq
      exact ⟨rfl, h⟩
    · exact And.left

/-- A file name is a name. -/
theorem isName_of_fileName? (h : fileName? path = some n) (hnul : 0 ∉ path) : IsName n := by
  obtain ⟨last, above, hsplit, hstem, hslash, -⟩ := exists_splitLast path
  obtain ⟨rfl, hnil, hdot, hdots⟩ := (fileName?_eq_some_iff hsplit).1 h
  refine ⟨hnil, hslash, ?_, hdot, hdots⟩
  intro hmem
  have hstem' : (0 : UInt8) ∈ dropIdleEnd path.reverse := by
    rw [hstem]
    exact List.mem_append_left _ (List.mem_reverse.2 hmem)
  exact hnul (List.mem_reverse.1 ((dropIdleEnd_suffix _).subset hstem'))

/-- The file name is the last step of a path, up to steps to nowhere. -/
theorem exists_steps_of_fileName? (h : fileName? path = some n) : ∃ k k',
    path.steps = (parent path).steps ++ List.replicate k .here ++ [.name n] ++ List.replicate k' .here := by
  obtain ⟨last, above, hsplit, hstem, hslash, habove⟩ := exists_splitLast path
  obtain ⟨rfl, hnil, hdot, hdots⟩ := (fileName?_eq_some_iff hsplit).1 h
  have hlast : steps last = [.name last] := by
    rw [steps_of_not_mem hnil hslash, Step.ofPart, if_neg hdot, if_neg hdots]
  simpa only [hlast] using exists_steps_of_splitLast hsplit hstem habove

/-- A path whose last step is a name has it as its file name. -/
theorem fileName?_of_getLast?_steps (h : path.steps.getLast? = some (.name n)) : fileName? path = some n := by
  obtain ⟨last, above, hsplit, hstem, hslash, habove⟩ := exists_splitLast path
  obtain ⟨k, k', hsteps⟩ := exists_steps_of_splitLast hsplit hstem habove
  obtain rfl : k' = 0 := by
    by_contra hk
    obtain ⟨j, rfl⟩ := Nat.exists_eq_succ_of_ne_zero hk
    rw [hsteps, List.replicate_succ', ← List.append_assoc, List.getLast?_concat] at h
    cases h
  rw [hsteps, List.replicate_zero, List.append_nil] at h
  by_cases hlast : last = []
  · -- Only the root and the empty path have an empty last part, and neither has steps.
    have hparent : (parent path).steps = [] := by
      rw [parent, hsplit]
      rcases habove with rfl | ⟨dir, rfl⟩
      · rfl
      · rw [hlast, List.reverse_append, List.reverse_singleton, List.reverse_nil, List.nil_append,
          List.singleton_append] at hstem
        rw [List.reverse_eq_nil_iff.1 (eq_nil_of_dropIdleEnd hstem)]
        rfl
    rw [hparent, hlast, steps_nil, List.append_nil, List.nil_append] at h
    have hmem := List.eq_of_mem_replicate (List.mem_of_getLast? h)
    cases hmem
  · rw [steps_of_not_mem hlast hslash, List.getLast?_concat, Option.some.injEq, Step.ofPart] at h
    split_ifs at h with hdot hdots
    cases h
    exact (fileName?_eq_some_iff hsplit).2 ⟨rfl, hlast, hdot, hdots⟩

/-- With another file name, a path ends in this name. -/
theorem getLast?_steps_withFileName (path : NativePath) (h : IsName n) :
    (withFileName path n).steps.getLast? = some (.name n) := by
  rw [withFileName]
  split <;> rw [steps_join _ h, List.getLast?_concat]

/-! ## Where a path starts -/

theorem dropIdleEnd_ne_nil {r : Octets} (h : r ≠ []) : dropIdleEnd r ≠ [] := by
  induction r with
  | nil => exact absurd rfl h
  | cons b rest ih =>
      rw [dropIdleEnd]
      split_ifs with hslash hrest hdot
      · simp
      · exact ih hrest
      · refine ih ?_
        rintro rfl
        simp at hdot
      · simp

theorem isAbsolute_of_isPrefix {a b : NativePath} (h : a <+: b) (ha : a ≠ []) : b.isAbsolute = a.isAbsolute := by
  obtain ⟨rest, rfl⟩ := h
  obtain ⟨c, a, rfl⟩ := List.exists_cons_of_ne_nil ha
  rfl

theorem prefix_join (path : NativePath) (n : Octets) : path <+: join path n := by
  rw [join]
  split_ifs with hnil
  · exact hnil ▸ List.nil_prefix
  · exact List.prefix_append _ _
  · exact List.prefix_append _ _

theorem isAbsolute_append (hne : n ≠ []) (h : slash ∉ n) (rest : Octets) : isAbsolute (n ++ rest) = false := by
  obtain ⟨c, n, rfl⟩ := List.exists_cons_of_ne_nil hne
  have hc : c ≠ slash := fun heq => h (heq ▸ List.mem_cons_self)
  simp [isAbsolute, hc]

/-- With another file name, a path starts where it did. -/
theorem isAbsolute_withFileName (hpath : path ≠ []) (h : IsName n) :
    (withFileName path n).isAbsolute = path.isAbsolute := by
  rw [withFileName]
  split
  · next m hname =>
    obtain ⟨last, above, hsplit, hstem, hslash, habove⟩ := exists_splitLast path
    obtain ⟨rfl, hlast, -⟩ := (fileName?_eq_some_iff hsplit).1 hname
    have hparent : parent path = (dropIdleEnd above.reverse).reverse := by rw [parent, hsplit]
    obtain ⟨idle, hidle⟩ := dropIdleEnd_suffix path.reverse
    have hwhole : path = above ++ (last ++ idle.reverse) := by
      rw [hstem] at hidle
      have := congrArg List.reverse hidle
      simpa using this.symm
    by_cases hnil : above = []
    · have hempty : parent path = [] := by
        rw [hparent, hnil]
        rfl
      rw [hempty, join, if_pos rfl, hwhole, hnil, List.nil_append, isAbsolute_append hlast hslash]
      simpa using isAbsolute_append h.ne_nil h.slash_not_mem []
    · have hne : parent path ≠ [] := by simpa [hparent] using dropIdleEnd_ne_nil (by simpa using hnil)
      have hprefix : parent path <+: path := by
        have habove' : parent path <+: above := by
          rw [hparent]
          simpa using List.reverse_prefix.2 (dropIdleEnd_suffix above.reverse)
        exact habove'.trans ⟨_, hwhole.symm⟩
      rw [isAbsolute_of_isPrefix (prefix_join _ n) hne, isAbsolute_of_isPrefix hprefix hne]
  · exact isAbsolute_of_isPrefix (prefix_join path n) hpath

end DocSplice.NativePath
