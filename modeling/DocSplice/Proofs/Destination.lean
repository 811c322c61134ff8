import DocSplice.Proofs.WalkFrame

/-!
# Where paths lead

A path leads to a destination if it may be taken at all, its steps walk there, and a slash at its end stands
behind no file (`destination_eq_ok_iff`). The path from the root to a place leads to what stands there, so far as
no link is followed (`destination_pathTo`), and the path that the system gives for a file is this path
(`realPath_eq`). A file that a path leads to is found in every tree with the same directories and links
(`find_frame`).
-/
namespace DocSplice

/-- Whether a path may end in a slash that leads here. -/
def Destination.allowsSlash : Destination → Bool
  | vacant _ => true
  | found _ (.directory _) => true
  | found _ _ => false

namespace FileTree

open NativePath

variable {t t' : FileTree} {cwd dir p q : Place} {follow : Bool} {path : NativePath} {d : Destination}
  {n : Octets} {e : Entry} {mode mode' : Mode} {content content' : Octets}

/-- A path is walked, and then its last slash is looked at. -/
theorem resolveBy_eq (rule : StepRule) (hnil : path ≠ []) : t.resolveBy rule cwd follow path =
    match t.walk rule follow linkLimit (linkStart cwd path) path.steps with
    | .error r => .error r
    | .ok d => if path.endsInSlash && !d.allowsSlash then .error .notDirectory else .ok d := by
  have hstart : (if path.isAbsolute then [] else cwd) = linkStart cwd path := rfl
  rw [resolveBy, if_neg hnil, hstart]
  cases t.walk rule follow linkLimit (linkStart cwd path) path.steps with
  | error r => rfl
  | ok d =>
      rcases d with ⟨place, entry⟩ | place
      · cases entry <;> simp [Destination.allowsSlash]
      · simp [Destination.allowsSlash]

theorem resolveBy_eq_ok_iff {rule : StepRule} :
    t.resolveBy rule cwd follow path = .ok d ↔ path ≠ [] ∧
      t.walk rule follow linkLimit (linkStart cwd path) path.steps = .ok d ∧
      (path.endsInSlash = true → d.allowsSlash = true) := by
  by_cases hnil : path = []
  · simp [resolveBy, hnil]
  rw [resolveBy_eq rule hnil]
  cases t.walk rule follow linkLimit (linkStart cwd path) path.steps with
  | error r => simp
  | ok d' =>
      by_cases hslash : (path.endsInSlash && !d'.allowsSlash) = true
      · simp only [hslash, if_true, reduceCtorEq, false_iff, not_and]
        intro _ hd
        cases hd
        simpa using hslash
      · simp only [hslash, Bool.false_eq_true, if_false, Except.ok.injEq]
        constructor
        · intro hd
          subst hd
          exact ⟨hnil, rfl, by simpa using hslash⟩
        · intro h
          exact h.2.1

/-- Where a path leads. -/
theorem destination_eq_ok_iff :
    t.destination cwd follow path = .ok d ↔ checkPath path = .ok () ∧ path ≠ [] ∧
      Walks t t.wholeRule follow linkLimit (linkStart cwd path) path.steps d ∧
      (path.endsInSlash = true → d.allowsSlash = true) := by
  have hresolve : t.resolve cwd follow path = .ok d ↔ path ≠ [] ∧
      Walks t t.wholeRule follow linkLimit (linkStart cwd path) path.steps d ∧
      (path.endsInSlash = true → d.allowsSlash = true) := by
    rw [resolve, resolveBy_eq_ok_iff, walk_eq_ok_iff]
  rw [destination]
  cases hcheck : checkPath path with
  | error f => simp
  | ok u =>
      cases hres : t.resolve cwd follow path with
      | error r => simp [hres, Except.mapError, ← hresolve]
      | ok d' => simp [hres, Except.mapError, ← hresolve]

theorem lookup_of_destination (h : t.destination cwd follow path = .ok (.found p e)) : t.lookup p = some e :=
  (destination_eq_ok_iff.1 h).2.2.1.lookup_of_found

theorem find_eq_ok_iff :
    t.find cwd path = .ok (p, e) ↔ t.destination cwd true path = .ok (.found p e) := by
  rw [find]
  split <;> simp_all

/-- A path that is not taken at all finds nothing. -/
theorem find_eq_of_checkPath {f : Fault} (h : checkPath path = .error f) : t.find cwd path = .error f := by
  rw [find, destination, h]

theorem find_nil (t : FileTree) (cwd : Place) : t.find cwd [] = .error (.refused .notFound) := by
  rw [find, destination]
  rfl

/-- What a path finds is read from its walk. -/
theorem find_eq_walk (hcheck : checkPath path = .ok ()) (hnil : path ≠ []) : t.find cwd path =
    match t.walk t.wholeRule true linkLimit (linkStart cwd path) path.steps with
    | .error r => .error (.refused r)
    | .ok (.vacant _) => .error (.refused .notFound)
    | .ok (.found p e) =>
      if path.endsInSlash && !(Destination.found p e).allowsSlash then .error (.refused .notDirectory)
      else .ok (p, e) := by
  rw [find, destination, hcheck]
  simp only [resolve, resolveBy_eq _ hnil]
  cases t.walk t.wholeRule true linkLimit (linkStart cwd path) path.steps with
  | error r => rfl
  | ok d =>
      cases d with
      | vacant p => simp [Destination.allowsSlash, Except.mapError]
      | found p e =>
          dsimp only
          split_ifs <;> rfl

/-- Where a path to a file leads. -/
theorem find_file_iff :
    t.find cwd path = .ok (p, .file mode content) ↔ checkPath path = .ok () ∧ path ≠ [] ∧
      path.endsInSlash = false ∧
      Walks t t.wholeRule true linkLimit (linkStart cwd path) path.steps (.found p (.file mode content)) := by
  rw [find_eq_ok_iff, destination_eq_ok_iff]
  cases path.endsInSlash <;> simp [Destination.allowsSlash]

theorem lookup_of_find (h : t.find cwd path = .ok (p, e)) : t.lookup p = some e :=
  lookup_of_destination (find_eq_ok_iff.1 h)

/-! ## Trees with the same directories and links -/

section Frame

variable (hways : SameWays t t') (ht : t.Rooted) (hcwd : t.IsDir cwd)

include hways ht hcwd

/-- A path without a slash at its end leads to the same place. -/
theorem destination_frame (hslash : path.endsInSlash = false) (h : t.destination cwd follow path = .ok d) :
    t'.destination cwd follow path = .ok (t'.standing d.place) := by
  obtain ⟨hcheck, hnil, w, -⟩ := destination_eq_ok_iff.1 h
  refine destination_eq_ok_iff.2 ⟨hcheck, hnil, ?_, by simp [hslash]⟩
  rw [hways.sameDirectories.wholeRule_eq]
  exact w.frame hways ht (ht.isDir_linkStart hcwd path)

/-- A path to a file leads to what stands at this place. -/
theorem find_frame (h : t.find cwd path = .ok (p, .file mode content)) {e : Entry}
    (h' : t'.lookup p = some e) : t'.find cwd path = .ok (p, e) := by
  obtain ⟨-, -, hslash, -⟩ := find_file_iff.1 h
  have := destination_frame hways ht hcwd hslash (find_eq_ok_iff.1 h)
  rwa [Destination.place, standing_of_some h', ← find_eq_ok_iff] at this

/-- A path to a file finds nothing where nothing stands at this place. -/
theorem find_frame_none (h : t.find cwd path = .ok (p, .file mode content)) (h' : t'.lookup p = none) :
    t'.find cwd path = .error (.refused .notFound) := by
  obtain ⟨-, -, hslash, -⟩ := find_file_iff.1 h
  have := destination_frame hways ht hcwd hslash (find_eq_ok_iff.1 h)
  rw [Destination.place, standing_of_none h'] at this
  rw [find, this]

end Frame

/-! ## Paths from the root -/

section PathTo

variable (ht : t.Rooted) (hdir : t.IsDir dir) (hnames : ∀ m ∈ dir ++ [n], IsName m)

include ht hdir hnames

theorem walks_of_destination_pathTo (h : t.destination cwd follow (pathTo (dir ++ [n])) = .ok d) :
    Walks t t.wholeRule follow linkLimit dir [.name n] d := by
  obtain ⟨-, -, w, -⟩ := destination_eq_ok_iff.1 h
  rw [linkStart, if_pos (isAbsolute_pathTo _)] at w
  exact w.pathTo ht hdir hnames

/-- The path from the root leads to what stands at the place, if that is no link to be followed. -/
theorem destination_pathTo
    (keep : ∀ target, t.lookup (dir ++ [n]) = some (.link target) → follow = false)
    (h : t.destination cwd follow (pathTo (dir ++ [n])) = .ok d) : d = t.standing (dir ++ [n]) :=
  (walks_of_destination_pathTo ht hdir hnames h).eq_of_name keep

/-- Through a link, the path from the root leads where the link does. -/
theorem walks_of_destination_link {target : NativePath} (hlink : t.lookup (dir ++ [n]) = some (.link target))
    (h : t.destination cwd true (pathTo (dir ++ [n])) = .ok d) :
    ∃ links, Walks t t.wholeRule true links (linkStart dir target) (linkSteps target) d := by
  have w := walks_of_destination_pathTo ht hdir hnames h
  generalize linkLimit = limit at w
  cases w with
  | vacant _ hn => cases hn.symm.trans hlink
  | enter _ hn _ => cases hn.symm.trans hlink
  | file _ hn => cases hn.symm.trans hlink
  | link _ _ keep => cases keep
  | jump _ hn _ w =>
      cases hn.symm.trans hlink
      exact ⟨_, by simpa using w⟩

end PathTo

/-- The system gives the path from the root for an entry that a path leads to, unless a path is too long. -/
theorem realPath_eq (h : t.find cwd path = .ok (p, e)) :
    t.realPath cwd path = .ok (pathTo p) ∨ t.realPath cwd path = .error (.refused .nameTooLong) := by
  obtain ⟨hcheck, hnil, w, hslash⟩ := destination_eq_ok_iff.1 (find_eq_ok_iff.1 h)
  have hnul : path.contains 0 = false := by
    cases hnul : path.contains 0 with
    | false => rfl
    | true =>
        rw [checkPath, if_pos hnul] at hcheck
        cases hcheck
  rw [realPath]
  rw [hnul, if_neg Bool.false_ne_true]
  rcases w.single with hsingle | hsingle
  · have hresolve : t.resolveBy t.singleRule cwd true path = .ok (.found p e) :=
      resolveBy_eq_ok_iff.2 ⟨hnil, hsingle, hslash⟩
    rw [hresolve]
    by_cases hlong : pathLimit ≤ (pathTo p).length
    · exact .inr (if_pos hlong)
    · exact .inl (if_neg hlong)
  · rw [resolveBy_eq _ hnil, hsingle]
    exact .inr rfl

end FileTree
end DocSplice
